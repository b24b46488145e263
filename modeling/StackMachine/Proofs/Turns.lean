import Mathlib.Data.List.Rotate
import StackMachine.Proofs.Rotations
import StackMachine.Proofs.Splitting

/-! Rotations of residues by no more than the width, one after another. Each of them rotates
the list of the bits, so a program of rotations does so by the sum of its offsets, and two
such programs whose offsets agree modulo the width cannot be told apart. That is the
cyclic group; what holds of a list up to its order, the number of its set bits for
one, is the same throughout. -/
namespace StackMachine

namespace Bitwise

variable {value : Int} {count index : Nat}

theorem bitProduct (natural : 0 ≤ value) :
    (value * 2 ^ count).testBit index = (decide (count ≤ index) && value.testBit (index - count)) := by
  obtain ⟨value, rfl⟩ := Int.eq_ofNat_of_zero_le natural
  have product : (value : Int) * 2 ^ count = (value * 2 ^ count : Nat) := by push_cast; rfl
  rw [product]
  exact Nat.testBit_mul_two_pow value index count

end Bitwise

namespace Width

variable {width : Width} {value : Int} {count : Nat}

theorem wordRotated {result : Int} : width.word result = (width.word value).rotate count ↔
    ∀ index < width.bits,
      result.testBit index = value.testBit ((index + count) % width.bits) := by
  simp only [List.ext_getElem_iff, List.getElem_rotate, word, List.getElem_map,
    List.getElem_range, List.length_rotate, List.length_map, List.length_range, true_and]
  exact ⟨fun same index below => same index below below, fun same index below _ => same index below⟩

theorem wordSame {other : Nat} (same : count ≡ other [MOD width.bits]) :
    (width.word value).rotate count = (width.word value).rotate other := by
  rw [← List.rotate_mod, ← List.rotate_mod _ other, wordLength, same]

section Words

variable (residue : width.IsResidue value)

include residue

theorem bitTurned (within : count ≤ width.bits) {index : Nat} (below : index < width.bits) :
    (Bitwise.or (value / 2 ^ count) (width.residue (value * 2 ^ (width.bits - count)))).testBit
      index = value.testBit ((index + count) % width.bits) := by
  rw [Bitwise.bitOr, Bitwise.bitQuotient, bitResidue, Bitwise.bitProduct residue.1]
  rcases Nat.lt_or_ge (index + count) width.bits with inside | around
  · have low : ¬ width.bits - count ≤ index := by omega
    rw [Nat.mod_eq_of_lt inside]
    simp [low]
  · have high : width.bits - count ≤ index := by omega
    have source : index - (width.bits - count) = index + count - width.bits := by omega
    have past : value.testBit (index + count) = false := residueBits.mp residue _ (by omega)
    rw [Nat.mod_eq_sub_mod around, Nat.mod_eq_of_lt (by omega), past, source]
    simp [below, high]

theorem rotrWord (within : count ≤ width.bits) :
    ∃ result, width.rotr value count = .ok result ∧ width.IsResidue result ∧
      width.word result = (width.word value).rotate count := by
  have halves := rotrHalved within value
  rw [truncatedFixed residue] at halves
  have kept := quotientResidue residue count
  exact ⟨_, halves,
    actsResidue Bitwise.bitOr rfl kept (width.residueRange _),
    wordRotated.mpr fun _ below => bitTurned residue within below⟩

end Words
end Width

inductive Turn where
  | left (amount : Nat)
  | right (amount : Nat)

namespace Turn

def amount : Turn → Nat
  | left amount => amount
  | right amount => amount

def operation : Turn → Operation
  | left _ => .rotl
  | right _ => .rotr

def instructions (turn : Turn) : List Instruction :=
  [.constant turn.amount, .bare turn.operation]

def offset (width : Width) : Turn → Nat
  | left amount => width.bits - amount
  | right amount => amount

/-- The turned word, as a residue. A list of bits has the lowest first, so that it is rotated
by as many positions as they go to the right. -/
structure Rotates (width : Width) (turn : Turn) (value result : Int) : Prop where
  residue : width.IsResidue result
  word : width.word result = (width.word value).rotate (turn.offset width)

def offsets (width : Width) (turns : List Turn) : Nat := (turns.map (offset width)).sum

def program (turns : List Turn) : List Instruction := turns.flatMap instructions

variable {width : Width} {value : Int}

theorem appliedOffset (turn : Turn) (within : turn.amount ≤ width.bits) (value : Int)
    (rest : Stack) : width.apply turn.operation (.number turn.amount :: .number value :: rest) =
      .ofAnswer rest ((width.rotr value (turn.offset width)).map .number) := by
  cases turn with
  | left amount =>
    have inside : amount ≤ width.bits := within
    rw [operation, Width.applyShift rfl, Turn.amount, Width.rotlMirror (Int.ofNat_le.mpr inside),
      offset, Int.ofNat_sub inside]
  | right amount => rw [operation, Width.applyShift rfl, Turn.amount, offset]

theorem offsetWithin (turn : Turn) (within : turn.amount ≤ width.bits) :
    turn.offset width ≤ width.bits := by
  cases turn with
  | left amount => exact Nat.sub_le width.bits amount
  | right amount => exact within

theorem applied (turn : Turn) (within : turn.amount ≤ width.bits) (residue : width.IsResidue value) :
    ∃ result, turn.Rotates width value result ∧
      ∀ rest : Stack, width.apply turn.operation (.number turn.amount :: .number value :: rest) =
        .done (.number result :: rest) := by
  obtain ⟨result, found, kept, turned⟩ := Width.rotrWord residue (turn.offsetWithin within)
  refine ⟨result, ⟨kept, turned⟩, fun rest => ?_⟩
  rw [turn.appliedOffset within, found]
  rfl

theorem runProgram {turns : List Turn} (within : ∀ turn ∈ turns, turn.amount ≤ width.bits)
    (residue : width.IsResidue value) :
    ∃ result, width.IsResidue result ∧
      width.word result = (width.word value).rotate (offsets width turns) ∧
      ∀ index (rest : Stack), run width index (program turns) (.number value :: rest) =
        ⟨.number result :: rest, none⟩ := by
  induction turns generalizing value with
  | nil => exact ⟨value, residue, (List.rotate_zero _).symm, fun _ _ => rfl⟩
  | cons turn turns ih =>
    obtain ⟨middle, ⟨kept, first⟩, done⟩ := turn.applied (within turn List.mem_cons_self) residue
    obtain ⟨result, last, later, ran⟩ :=
      ih (fun next found => within next (List.mem_cons_of_mem _ found)) kept
    refine ⟨result, last, ?_, fun index rest => ?_⟩
    · rw [later, first, List.rotate_rotate]
      rfl
    · change run width index (.constant turn.amount :: .bare turn.operation :: program turns) _ = _
      simp only [run, Instruction.runConstant, Instruction.runBare, Outcome.done, done, ran]

theorem runSame {turns others : List Turn} (within : ∀ turn ∈ turns, turn.amount ≤ width.bits)
    (withinOthers : ∀ turn ∈ others, turn.amount ≤ width.bits) (residue : width.IsResidue value)
    (same : offsets width turns ≡ offsets width others [MOD width.bits]) (index : Nat)
    (rest : Stack) : run width index (program turns) (.number value :: rest) =
      run width index (program others) (.number value :: rest) := by
  obtain ⟨result, kept, turned, ran⟩ := runProgram within residue
  obtain ⟨other, keptOther, turnedOther, ranOther⟩ := runProgram withinOthers residue
  have words : width.word result = width.word other := by
    rw [turned, turnedOther, Width.wordSame same]
  rw [ran, ranOther, Width.wordInjective kept keptOther words]

theorem runUndone (turn back : Turn) (within : turn.amount ≤ width.bits)
    (withinBack : back.amount ≤ width.bits) (residue : width.IsResidue value)
    (full : turn.offset width + back.offset width = width.bits) (rest : Stack) :
    run width 0 (program [turn, back]) (.number value :: rest) = ⟨.number value :: rest, none⟩ := by
  have both : ∀ other ∈ [turn, back], other.amount ≤ width.bits := by simp [within, withinBack]
  have none : ∀ other ∈ ([] : List Turn), other.amount ≤ width.bits := by simp
  have same : offsets width [turn, back] ≡ offsets width [] [MOD width.bits] := by
    simp [offsets, full, Nat.ModEq]
  exact runSame both none residue same 0 rest

theorem runJoined (first second joined : Turn) (within : first.amount ≤ width.bits)
    (withinSecond : second.amount ≤ width.bits) (withinJoined : joined.amount ≤ width.bits)
    (residue : width.IsResidue value)
    (sum : first.offset width + second.offset width ≡ joined.offset width [MOD width.bits])
    (rest : Stack) : run width 0 (program [first, second]) (.number value :: rest) =
      run width 0 (program [joined]) (.number value :: rest) := by
  have both : ∀ other ∈ [first, second], other.amount ≤ width.bits := by
    simp [within, withinSecond]
  have one : ∀ other ∈ [joined], other.amount ≤ width.bits := by simp [withinJoined]
  have same : offsets width [first, second] ≡ offsets width [joined] [MOD width.bits] := by
    simpa [offsets] using sum
  exact runSame both one residue same 0 rest

theorem runMirrored {amount : Nat} (within : amount ≤ width.bits) (residue : width.IsResidue value)
    (rest : Stack) : run width 0 (program [.left amount]) (.number value :: rest) =
      run width 0 (program [.right (width.bits - amount)]) (.number value :: rest) := by
  have one : ∀ other ∈ [left amount], other.amount ≤ width.bits := by
    simpa [Turn.amount] using within
  have mirror : ∀ other ∈ [right (width.bits - amount)], other.amount ≤ width.bits := by
    simp [Turn.amount]
  exact runSame one mirror residue rfl 0 rest

end Turn

theorem rotationsCyclic {width : Width} {value : Int} (residue : width.IsResidue value)
    (rest : Stack) :
    let turned (turns : List Turn) :=
      (Program.execute ⟨width, Turn.program turns⟩ (.number value :: rest)).run
    (∀ amount ≤ width.bits,
      turned [.left amount, .right amount] = ⟨.number value :: rest, none⟩ ∧
      turned [.right amount, .left amount] = ⟨.number value :: rest, none⟩ ∧
      turned [.left amount] = turned [.right (width.bits - amount)]) ∧
    (∀ first ≤ width.bits, ∀ second ≤ width.bits,
      (first + second ≤ width.bits →
        turned [.left first, .left second] = turned [.left (first + second)]) ∧
      (width.bits ≤ first + second →
        turned [.left first, .left second] = turned [.left (first + second - width.bits)])) ∧
    ∀ turns : List Turn, (∀ turn ∈ turns, turn.amount ≤ width.bits) →
      ∃ result, turned turns = ⟨.number result :: rest, none⟩ ∧ width.IsResidue result ∧
        width.popcnt result = width.popcnt value := by
  intro turned
  simp only [turned, executeRun]
  refine ⟨fun amount within => ⟨?_, ?_, Turn.runMirrored within residue rest⟩,
    fun first firstWithin second secondWithin => ⟨fun short => ?_, fun long => ?_⟩,
    fun turns within => ?_⟩
  · exact Turn.runUndone (.left amount) (.right amount) within within residue
      (Nat.sub_add_cancel within) rest
  · exact Turn.runUndone (.right amount) (.left amount) within within residue
      (Nat.add_sub_cancel' within) rest
  · refine Turn.runJoined (.left first) (.left second) (.left (first + second)) firstWithin
      secondWithin short residue ?_ rest
    have sum : width.bits - first + (width.bits - second) =
        width.bits - (first + second) + width.bits := by omega
    exact (congrArg (· % width.bits) sum).trans (Nat.add_mod_right _ _)
  · have within : first + second - width.bits ≤ width.bits := by omega
    refine Turn.runJoined (.left first) (.left second) (.left (first + second - width.bits))
      firstWithin secondWithin within residue ?_ rest
    have sum : width.bits - first + (width.bits - second) =
        width.bits - (first + second - width.bits) := by omega
    exact congrArg (· % width.bits) sum
  · obtain ⟨result, kept, rotated, ran⟩ := Turn.runProgram within residue
    refine ⟨result, ran 0 rest, kept, ?_⟩
    rw [Width.popcntWord, Width.popcntWord, rotated, (List.rotate_perm _ _).count_eq]

theorem rotationsCyclicOverTheTop :
    (Program.execute ⟨.i32, Turn.program [.left 5, .right 5]⟩ [.number 0x80000001, .trap]).run =
      ⟨[.number 0x80000001, .trap], none⟩ ∧
    (Program.execute ⟨.i32, Turn.program [.left 20, .left 13]⟩ [.number 0x80000001]).run =
      ⟨[.number 3], none⟩ ∧
    ∃ result, (Program.execute ⟨.i32, Turn.program [.left 32, .right 1, .left 9]⟩
        [.number 0x80000001]).run = ⟨[.number result], none⟩ ∧ Width.i32.IsResidue result ∧
      Width.i32.popcnt result = 2 := by
  have residue : Width.i32.IsResidue 0x80000001 := ⟨by decide, by decide⟩
  obtain ⟨inverse, -, -⟩ := rotationsCyclic residue [.trap]
  obtain ⟨-, compose, all⟩ := rotationsCyclic residue []
  refine ⟨(inverse 5 (by decide)).1, ?_, ?_⟩
  · exact ((compose 20 (by decide) 13 (by decide)).2 (by decide)).trans (by rfl)
  · exact all [.left 32, .right 1, .left 9] (by decide)

end StackMachine
