import StackMachine.Proofs.LowBits
import StackMachine.Proofs.Splitting
import StackMachine.Proofs.Traps

/-! Numbers that are residues stay residues. Every operation answers residues with a
residue or a trap, save two: a shift to the left keeps all its bits, and a rotation to
the left by more than the width becomes one. Where neither of these happens nothing is
refused for its range either, neither as an operand of a division nor as an amount. -/
namespace StackMachine

def Value.IsResidue (width : Width) : Value → Prop
  | number value => width.IsResidue value
  | trap => True

def Stack.Residues (width : Width) (stack : Stack) : Prop := ∀ value ∈ stack, value.IsResidue width

def Violation.isRange : Violation → Bool
  | signedRange .. | shiftRange .. => true
  | _ => false

namespace Shift

theorem rightShrinks {value amount : Int} (natural : 0 ≤ value) (forward : 0 ≤ amount) :
    ∃ result, right value amount = .ok result ∧ 0 ≤ result ∧ result ≤ value := by
  obtain ⟨distance, rfl⟩ := Int.eq_ofNat_of_zero_le forward
  rcases Nat.lt_or_ge longest distance with beyond | near
  · refine ⟨0, ?_, Int.le_refl 0, natural⟩
    rw [right, scaleBeyond value beyond, if_neg (Int.not_lt.mpr natural)]
  · refine ⟨value >>> distance, by rw [right, scaleRight value near], ?_⟩
    rw [Int.shiftRight_eq_div_pow]
    exact ⟨Int.ediv_nonneg natural (Int.natCast_nonneg _), Int.ediv_le_self _ natural⟩

end Shift

namespace Width

variable {width : Width} {top second value amount : Int}

theorem truncatedRange (width : Width) (value : Int) :
    -width.modulus < value.tmod width.modulus ∧ value.tmod width.modulus < width.modulus :=
  ⟨Int.lt_tmod_of_pos value width.modulusPositive, Int.tmod_lt_of_pos value width.modulusPositive⟩

theorem truncatedResidue (natural : 0 ≤ value) : width.IsResidue (value.tmod width.modulus) :=
  ⟨Int.tmod_nonneg _ natural, (width.truncatedRange value).2⟩

theorem truncatedFixed (residue : width.IsResidue value) : value.tmod width.modulus = value :=
  Int.tmod_eq_of_lt residue.1 residue.2

theorem countResidue (width : Width) (count : Nat) (small : count ≤ 64) : width.IsResidue count := by
  have wide : 64 < width.modulus := by cases width <;> decide
  exact ⟨Int.natCast_nonneg count, by omega⟩

theorem bitsBound (width : Width) : width.bits ≤ 64 := by cases width <;> decide

theorem residueShrinks {less : Int} (residue : width.IsResidue value)
    (range : 0 ≤ less ∧ less ≤ value) : width.IsResidue less :=
  ⟨range.1, Int.lt_of_le_of_lt range.2 residue.2⟩

section Arithmetic

variable {dividend divisor : Int}

theorem addResidue (first : width.IsResidue top) (next : width.IsResidue second) :
    width.IsResidue (width.add top second) :=
  truncatedResidue (Int.add_nonneg first.1 next.1)

theorem subResidue (first : width.IsResidue top) (next : width.IsResidue second) :
    width.IsResidue (width.sub top second) := by
  refine truncatedResidue ?_
  have natural := first.1
  have below := next.2
  omega

theorem mulResidue (first : width.IsResidue top) (next : width.IsResidue second) :
    width.IsResidue (width.mul top second) :=
  truncatedResidue (Int.mul_nonneg first.1 next.1)

theorem dividedResidue (first : width.IsResidue dividend) (next : width.IsResidue divisor) :
    width.IsResidue (dividend / divisor) :=
  residueShrinks first ⟨Int.ediv_nonneg first.1 next.1, Int.ediv_le_self _ first.1⟩

theorem remainingResidue (next : width.IsResidue divisor) (nonzero : divisor ≠ 0) :
    width.IsResidue (dividend % divisor) := by
  have positive : 0 < divisor := by
    have natural := next.1
    omega
  exact residueShrinks next
    ⟨Int.emod_nonneg _ nonzero, Int.le_of_lt (Int.emod_lt_of_pos _ positive)⟩

theorem divUResidue (width : Width) (top second : Int) :
    (width.divU top second).IsResidue width := by
  unfold divU
  split
  · trivial
  · exact dividedResidue (width.residueRange top) (width.residueRange second)

theorem remainderResidue (next : width.IsResidue divisor) :
    (remainder dividend divisor).IsResidue width := by
  rw [remainderModulo]
  split
  · trivial
  · exact remainingResidue next ‹_›

theorem remUResidue (width : Width) (top second : Int) :
    (width.remU top second).IsResidue width :=
  remainderResidue (width.residueRange second)

theorem readingResidue {reading : Int} (read : width.signed? value = some reading) :
    width.IsResidue reading := by
  have range := width.signedRange read
  have positive := width.signedMaxPositive
  have split := width.modulusSplit
  exact ⟨range.1, by omega⟩

theorem signedOperandsResidue (first : width.IsResidue top) (next : width.IsResidue second) :
    ∃ dividend divisor, width.signedOperands top second = .ok (dividend, divisor) ∧
      width.IsResidue dividend ∧ width.IsResidue divisor := by
  obtain ⟨dividend, left⟩ := Option.isSome_iff_exists.mp ((width.signedDefined top).mpr first)
  obtain ⟨divisor, right⟩ := Option.isSome_iff_exists.mp ((width.signedDefined second).mpr next)
  exact ⟨dividend, divisor, width.signedOperandsOk.mpr ⟨left, right⟩, readingResidue left,
    readingResidue right⟩

theorem divSResidue (first : width.IsResidue top) (next : width.IsResidue second) :
    ∃ value, width.divS top second = .ok value ∧ value.IsResidue width := by
  obtain ⟨dividend, divisor, read, left, right⟩ := signedOperandsResidue first next
  refine ⟨width.quotient dividend divisor, by rw [divS, read], ?_⟩
  unfold quotient
  split
  · trivial
  · split
    · trivial
    · exact dividedResidue left right

theorem remSResidue (first : width.IsResidue top) (next : width.IsResidue second) :
    ∃ value, width.remS top second = .ok value ∧ value.IsResidue width := by
  obtain ⟨dividend, divisor, read, left, right⟩ := signedOperandsResidue first next
  exact ⟨remainder dividend divisor, by rw [remS, read], remainderResidue right⟩

end Arithmetic

section Counts

theorem clzResidue (width : Width) (value : Int) : width.IsResidue (width.clz value) :=
  width.countResidue _ ((Bitwise.leadingZerosBound 32 _).trans (by decide))

theorem ctzResidue (width : Width) (value : Int) : width.IsResidue (width.ctz value) :=
  width.countResidue _ ((Bitwise.trailingZerosBound width.bits _).trans width.bitsBound)

theorem popcntResidue (width : Width) (value : Int) : width.IsResidue (width.popcnt value) :=
  width.countResidue _ ((Bitwise.setBitsBound width.bits _).trans width.bitsBound)

end Counts

section Shifts

theorem shrUResidue (width : Width) (value : Int) (forward : 0 ≤ amount) :
    ∃ result, width.shrU value amount = .ok result ∧ width.IsResidue result := by
  obtain ⟨result, moved, range⟩ := Shift.rightShrinks (width.residueRange value).1 forward
  exact ⟨result, moved, residueShrinks (width.residueRange value) range⟩

theorem shrSResidue (residue : width.IsResidue value) (forward : 0 ≤ amount) :
    ∃ result, Shift.right value amount = .ok result ∧ width.IsResidue result := by
  obtain ⟨result, moved, range⟩ := Shift.rightShrinks residue.1 forward
  exact ⟨result, moved, residueShrinks residue range⟩

theorem rotlHalves {high low : Int} (residue : width.IsResidue value)
    (up : Shift.left value amount = .ok high)
    (down : Shift.right value (width.bits - amount) = .ok low) :
    width.rotl value amount = .ok (Bitwise.or (width.residue high) low) := by
  simp only [rotl, truncatedFixed residue, up, down, andMask]

theorem rotrHalves {high low : Int} (residue : width.IsResidue value)
    (down : Shift.right value amount = .ok low)
    (up : Shift.left value (width.bits - amount) = .ok high) :
    width.rotr value amount = .ok (Bitwise.or low (width.residue high)) := by
  simp only [rotr, truncatedFixed residue, up, down, andMask]

theorem rotlResidue (residue : width.IsResidue value)
    (within : 0 ≤ amount ∧ amount ≤ width.bits) :
    ∃ result, width.rotl value amount = .ok result ∧ width.IsResidue result := by
  obtain ⟨high, up⟩ := Shift.leftDefined value (within.2.trans width.bitsNear)
  obtain ⟨low, down, range⟩ := shrSResidue residue (Int.sub_nonneg.mpr within.2)
  exact ⟨_, rotlHalves residue up down,
    actsResidue Bitwise.bitOr rfl (width.residueRange high) range⟩

theorem rotrResidue (residue : width.IsResidue value) (forward : 0 ≤ amount) :
    ∃ result, width.rotr value amount = .ok result ∧ width.IsResidue result := by
  have near : width.bits - amount ≤ Shift.longest :=
    (Int.sub_le_self _ forward).trans width.bitsNear
  obtain ⟨high, up⟩ := Shift.leftDefined value near
  obtain ⟨low, down, range⟩ := shrSResidue residue forward
  exact ⟨_, rotrHalves residue down up,
    actsResidue Bitwise.bitOr rfl range (width.residueRange high)⟩

end Shifts
end Width

namespace Action

def Residual (width : Width) : Action → Prop
  | immediate => True
  | unary result => ∀ value, width.IsResidue value → width.IsResidue (result value)
  | binary result => ∀ top second, width.IsResidue top → width.IsResidue second →
      ∃ value, result top second = .ok value ∧ value.IsResidue width

theorem numberResidual {width : Width} {result : Int → Int → Int}
    (kept : ∀ {top second}, width.IsResidue top → width.IsResidue second →
      width.IsResidue (result top second)) : (number result).Residual width :=
  fun _ _ first next => ⟨_, rfl, kept first next⟩

theorem truthResidual (width : Width) (result : Int → Int → Bool) :
    (truth result).Residual width := by
  intro top second _ _
  refine ⟨_, rfl, ?_⟩
  cases result top second
  · exact width.countResidue 0 (by decide)
  · exact width.countResidue 1 (by decide)

theorem shiftResidual {width : Width} {result : Int → Int → Except Violation Int}
    (kept : ∀ {value amount}, width.IsResidue value → width.IsResidue amount →
      ∃ moved, result value amount = .ok moved ∧ width.IsResidue moved) :
    (shift result).Residual width := by
  intro amount value first next
  obtain ⟨moved, found, residue⟩ := kept next first
  exact ⟨.number moved, congrArg (Except.map Value.number) found, residue⟩

theorem answerResidual {width : Width} {action : Action} {operands : List Int}
    {answer : Except Violation Value} (kept : action.Residual width)
    (given : action.answer? operands = some answer)
    (residues : ∀ operand ∈ operands, width.IsResidue operand) :
    ∃ value, answer = .ok value ∧ value.IsResidue width := by
  cases action with
  | immediate => rw [answerImmediate] at given; contradiction
  | unary result =>
    obtain ⟨value, rfl, rfl⟩ := answerUnary given
    exact ⟨_, rfl, kept value (residues value (by simp))⟩
  | binary result =>
    obtain ⟨top, second, rfl, rfl⟩ := answerBinary given
    exact kept top second (residues top (by simp)) (residues second (by simp))

end Action

namespace Operation

open Width in
theorem actionResidual (width : Width) {operation : Operation} (unshifted : operation ≠ .shl)
    (unturned : operation ≠ .rotl) : (operation.action width).Residual width := by
  cases operation with
  | const => trivial
  | add => exact Action.numberResidual addResidue
  | sub => exact Action.numberResidual subResidue
  | mul => exact Action.numberResidual mulResidue
  | divU => exact fun top second _ _ => ⟨_, rfl, width.divUResidue top second⟩
  | divS => exact fun _ _ first next => divSResidue first next
  | remU => exact fun top second _ _ => ⟨_, rfl, width.remUResidue top second⟩
  | remS => exact fun _ _ first next => remSResidue first next
  | and => exact Action.numberResidual (actsResidue Bitwise.bitAnd rfl)
  | or => exact Action.numberResidual (actsResidue Bitwise.bitOr rfl)
  | xor => exact Action.numberResidual (actsResidue Bitwise.bitXor rfl)
  | shl => contradiction
  | shrU => exact Action.shiftResidual fun {value _} _ amount => width.shrUResidue value amount.1
  | shrS => exact Action.shiftResidual fun value amount => shrSResidue value amount.1
  | rotl => contradiction
  | rotr => exact Action.shiftResidual fun value amount => rotrResidue value amount.1
  | clz => exact fun value _ => width.clzResidue value
  | ctz => exact fun value _ => width.ctzResidue value
  | popcnt => exact fun value _ => width.popcntResidue value
  | eqz =>
    intro value _
    dsimp only
    split
    · exact width.countResidue 1 (by decide)
    · exact width.countResidue 0 (by decide)
  | eq | ne | ltU | ltS | gtU | gtS | leU | leS | geU | geS => exact Action.truthResidual width _

end Operation

structure Instruction.Residual (width : Width) (instruction : Instruction) : Prop where
  constant : ∀ value, instruction = .constant value → width.IsResidue value
  unshifted : instruction ≠ .bare .shl

def Instruction.TurnsWithin (width : Width) (instruction : Instruction) (stack : Stack) : Prop :=
  instruction = .bare .rotl → ∀ amount value rest,
    stack = .number amount :: .number value :: rest → amount ≤ width.bits

structure Outcome.InRange (width : Width) (outcome : Outcome) : Prop where
  residues : outcome.stack.Residues width
  violation : outcome.violation.any Violation.isRange = false

structure Run.InRange (width : Width) (run : Run) : Prop where
  residues : run.stack.Residues width
  failure : run.failure.any (fun failure => failure.violation.isRange) = false

section Step

variable {width : Width} {operation : Operation} {instruction : Instruction} {stack rest : Stack}
  {operands : List Int} {answer : Except Violation Value} {outcome : Outcome}

theorem Stack.residuesSplit : Residues width (operands.map .number ++ rest) ↔
    (∀ operand ∈ operands, width.IsResidue operand) ∧ rest.Residues width := by
  simp only [Residues, List.forall_mem_append, List.forall_mem_map, Value.IsResidue]

theorem Stack.residuesPush {value : Value} (first : value.IsResidue width)
    (others : rest.Residues width) : Residues width (value :: rest) :=
  List.forall_mem_cons.mpr ⟨first, others⟩

theorem Operation.answerResidue (given : (operation.action width).answer? operands = some answer)
    (start : Stack.Residues width (operands.map .number ++ rest))
    (residual : (Instruction.bare operation).Residual width)
    (turns : (Instruction.bare operation).TurnsWithin width (operands.map .number ++ rest)) :
    ∃ value, answer = .ok value ∧ Stack.Residues width (value :: rest) := by
  obtain ⟨numbers, others⟩ := Stack.residuesSplit.mp start
  by_cases turned : operation = .rotl
  · subst turned
    obtain ⟨amount, value, rfl, rfl⟩ := Action.answerBinary given
    obtain ⟨moved, found, residue⟩ := Width.rotlResidue (numbers value (by simp))
      ⟨(numbers amount (by simp)).1, turns rfl amount value rest rfl⟩
    exact ⟨.number moved, congrArg (Except.map Value.number) found,
      Stack.residuesPush residue others⟩
  · have unshifted : operation ≠ .shl := fun shifted =>
      residual.unshifted (congrArg Instruction.bare shifted)
    obtain ⟨value, found, residue⟩ :=
      Action.answerResidual (actionResidual width unshifted turned) given numbers
    exact ⟨value, found, Stack.residuesPush residue others⟩

theorem Transition.inRange (transition : Transition width instruction stack outcome)
    (start : stack.Residues width) (residual : instruction.Residual width)
    (turns : instruction.TurnsWithin width stack) : outcome.InRange width := by
  cases transition with
  | pushed value => exact ⟨Stack.residuesPush (residual.constant value rfl) start, rfl⟩
  | unexpected other value => exact ⟨start, rfl⟩
  | missing => exact ⟨start, rfl⟩
  | underflow short => exact ⟨start, rfl⟩
  | trapped enough trap => exact ⟨start, rfl⟩
  | answered given rest =>
    obtain ⟨_, same, residues⟩ := Operation.answerResidue given start residual turns
    cases same
    exact ⟨residues, rfl⟩
  | rejected given rest =>
    obtain ⟨_, same, _⟩ := Operation.answerResidue given start residual turns
    contradiction

end Step

theorem performEachInRange {width : Width} {calls : List Call} {stack : Stack}
    (start : stack.Residues width) (residual : ∀ call ∈ calls, call.instruction.Residual width)
    (turns : ∀ front call, front ++ [call] <+: calls →
      call.instruction.TurnsWithin width
        (((performEach width front stack).map Outcome.stack).getLastD stack)) :
    ∀ outcome ∈ performEach width calls stack, outcome.InRange width := by
  induction calls generalizing stack with
  | nil => simp [performEach]
  | cons call rest ih =>
    have first : (call.perform width stack).InRange width := by
      rw [call.performInstruction]
      exact (Transition.ofRun width call.instruction stack).inRange start
        (residual call List.mem_cons_self) (turns [] call (by simp))
    intro outcome member
    rcases List.mem_cons.mp member with rfl | later
    · exact first
    refine ih first.residues (fun next found => residual next (List.mem_cons_of_mem _ found))
      (fun front next opening => ?_) outcome later
    have turned := turns (call :: front) next (by simpa using opening)
    rwa [performEach, List.map_cons, List.getLastD_cons] at turned

theorem runInRange {width : Width} {instructions : List Instruction} {stack : Stack}
    (start : stack.Residues width)
    (residual : ∀ instruction ∈ instructions, instruction.Residual width)
    (turns : ∀ front instruction, front ++ [instruction] <+: instructions →
      (run width 0 front stack).failure = none →
      instruction.TurnsWithin width (run width 0 front stack).stack) :
    (run width 0 instructions stack).InRange width := by
  induction instructions generalizing stack with
  | nil => exact ⟨start, rfl⟩
  | cons instruction rest ih =>
    have first := (Transition.ofRun width instruction stack).inRange start
      (residual instruction List.mem_cons_self) (turns [] instruction (by simp) rfl)
    cases refused : (instruction.run width stack).violation with
    | some violation =>
      have range := first.violation
      rw [refused] at range
      rw [runConsRefused rest refused]
      exact ⟨first.residues, range⟩
    | none =>
      rw [runConsDone rest refused]
      have later := ih first.residues
        (fun next found => residual next (List.mem_cons_of_mem _ found))
        (fun front next opening done => by
          have turned := turns (instruction :: front) next (by simpa using opening)
          rw [runConsDone front refused] at turned
          exact turned (Option.map_eq_none_iff.mpr done))
      exact ⟨later.residues, by simpa [Run.later, Failure.later, Option.any_map] using later.failure⟩

theorem residuesKept (width : Width) {stack : Stack} (start : stack.Residues width) :
    (∀ calls : List Call, (∀ call ∈ calls, call.instruction.Residual width) →
      (∀ front call, front ++ [call] <+: calls →
        call.instruction.TurnsWithin width
          (((performEach width front stack).map Outcome.stack).getLastD stack)) →
      ∀ outcome ∈ performEach width calls stack, outcome.InRange width) ∧
    ∀ instructions : List Instruction,
      (∀ instruction ∈ instructions, instruction.Residual width) →
      (∀ front instruction, front ++ [instruction] <+: instructions →
        (Program.execute ⟨width, front⟩ stack).failure = none →
        instruction.TurnsWithin width (Program.execute ⟨width, front⟩ stack).stack) →
      ∀ front, front <+: instructions → (Program.execute ⟨width, front⟩ stack).run.InRange width := by
  refine ⟨fun calls residual turns => performEachInRange start residual turns, ?_⟩
  intro instructions residual turns front opening
  simp only [executeFailure, executeStack] at turns
  rw [executeRun]
  exact runInRange start (fun instruction found => residual instruction (opening.subset found))
    (fun before instruction within => turns before instruction (within.trans opening))

theorem residuesKeptAcrossFullTurn :
    (∀ outcome ∈ performEach .i32 [.run (.constant 32), .apply .rotl] [.number 7, .trap],
      outcome.InRange .i32) ∧
    (Program.execute ⟨.i32, [.constant 32, .bare .rotl]⟩ [.number 7, .trap]).run.InRange .i32 := by
  have start : Stack.Residues .i32 [.number 7, .trap] := by
    simp [Stack.Residues, Value.IsResidue, Width.IsResidue, Width.modulus]
  have pushed : (Instruction.constant 32).Residual .i32 :=
    ⟨by simp [Instruction.constant, Width.IsResidue, Width.modulus], by decide⟩
  have turned : (Instruction.bare .rotl).Residual .i32 :=
    ⟨by simp [Instruction.bare, Instruction.constant], by decide⟩
  have turning : (Instruction.bare .rotl).TurnsWithin .i32 [.number 32, .number 7, .trap] := by
    rintro - amount value rest whole
    cases whole
    decide
  have places {α : Type} {first second next : α} {front : List α}
      (opening : front ++ [next] <+: [first, second]) :
      front = [] ∧ next = first ∨ front = [first] ∧ next = second := by
    rcases front with _ | ⟨_, _ | ⟨_, _⟩⟩ <;> simp_all
  have kept := residuesKept .i32 start
  constructor
  · refine kept.1 _ (by simp [Call.instruction, pushed, turned]) fun front call opening => ?_
    obtain ⟨rfl, rfl⟩ | ⟨rfl, rfl⟩ := places opening
    · intro other
      contradiction
    · exact turning
  · refine kept.2 [.constant 32, .bare .rotl] (by simp [pushed, turned])
      (fun front instruction opening _ => ?_) _ (List.prefix_refl _)
    obtain ⟨rfl, rfl⟩ | ⟨rfl, rfl⟩ := places opening
    · intro other
      contradiction
    · exact turning

example : Width.i32.rotl 0x80000000 33 = .ok 0x100000000 := by rfl

end StackMachine
