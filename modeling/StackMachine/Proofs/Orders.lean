import StackMachine.Proofs.LowBits
import StackMachine.Proofs.Transition

/-! The ten comparisons as two orders. Each of the two is the order of the integers, one with the
operands as they come and the other with their residues, and the four comparisons of an
order hang together for either reading alike. The readings differ in what they hold
equal: integers that are the same, or that are congruent. On residues they are one. -/
namespace StackMachine

inductive Reading where
  | raw
  | residue
  deriving DecidableEq, Repr

def Reading.read (width : Width) : Reading → Int → Int
  | raw, value => value
  | residue, value => width.residue value

inductive Comparison where
  | less
  | greater
  | atMost
  | atLeast
  deriving DecidableEq, Repr

namespace Comparison

def operation : Comparison → Reading → Operation
  | less, .raw => .ltS
  | less, .residue => .ltU
  | greater, .raw => .gtS
  | greater, .residue => .gtU
  | atMost, .raw => .leS
  | atMost, .residue => .leU
  | atLeast, .raw => .geS
  | atLeast, .residue => .geU

def Relates : Comparison → Int → Int → Prop
  | less, second, top => second < top
  | greater, second, top => second > top
  | atMost, second, top => second ≤ top
  | atLeast, second, top => second ≥ top

end Comparison

namespace Operation

def comparisons : List Operation := [eq, ne, ltU, ltS, gtU, gtS, leU, leS, geU, geS]

def Holds (operation : Operation) (width : Width) (second top : Int) : Prop :=
  width.apply operation [.number top, .number second] = .done [.number 1]
instance (operation width second top) : Decidable (Holds operation width second top) := by
  unfold Holds; infer_instance

structure Ordered (width : Width) (less greater atMost atLeast : Operation) : Prop where
  mirrored : ∀ second top, greater.Holds width second top ↔ less.Holds width top second
  notLess : ∀ second top, atLeast.Holds width second top ↔ ¬ less.Holds width second top
  notGreater : ∀ second top, atMost.Holds width second top ↔ ¬ greater.Holds width second top
  transitive : ∀ first second third, less.Holds width first second →
    less.Holds width second third → less.Holds width first third

structure Coherent (width : Width) : Prop where
  pushed : ∀ comparison ∈ comparisons, ∀ second top, ∀ rest : Stack,
    width.apply comparison (.number top :: .number second :: rest) =
      .done (.number (if comparison.Holds width second top then 1 else 0) :: rest)
  raw : Ordered width ltS gtS leS geS
  residues : Ordered width ltU gtU leU geU
  equal : ∀ second top, eq.Holds width second top ↔ second = top
  unequal : ∀ second top, ne.Holds width second top ↔ ¬ eq.Holds width second top
  less : ∀ second top, ltS.Holds width second top ↔ second < top
  exhaustive : ∀ second top, ltS.Holds width second top ∨ eq.Holds width second top ∨
    gtS.Holds width second top
  exclusive : ∀ second top, ¬ (ltS.Holds width second top ∧ eq.Holds width second top) ∧
    ¬ (eq.Holds width second top ∧ gtS.Holds width second top) ∧
    ¬ (ltS.Holds width second top ∧ gtS.Holds width second top)
  modular : ∀ second top otherSecond otherTop, second ≡ otherSecond [ZMOD width.modulus] →
    top ≡ otherTop [ZMOD width.modulus] →
    (ltU.Holds width second top ↔ ltU.Holds width otherSecond otherTop)
  level : ∀ second top, ¬ ltU.Holds width second top ∧ ¬ gtU.Holds width second top ↔
    second ≡ top [ZMOD width.modulus]
  agreeing : ∀ second top, width.IsResidue second → width.IsResidue top →
    (ltU.Holds width second top ↔ ltS.Holds width second top) ∧
    (gtU.Holds width second top ↔ gtS.Holds width second top) ∧
    (leU.Holds width second top ↔ leS.Holds width second top) ∧
    (geU.Holds width second top ↔ geS.Holds width second top) ∧
    (leU.Holds width second top ∧ geU.Holds width second top ↔ eq.Holds width second top)

section Entries

variable {width : Width} {operation : Operation} {result : Int → Int → Bool} {second top : Int}

theorem applyTruth (row : operation.action width = .truth result) (second top : Int)
    (rest : Stack) : width.apply operation (.number top :: .number second :: rest) =
      .done (.ofBool (result top second) :: rest) :=
  Width.applyBinary row top second rest

theorem holdsTruth (row : operation.action width = .truth result) :
    operation.Holds width second top ↔ result top second = true := by
  rw [Holds, applyTruth row]
  cases result top second <;> simp [Value.ofBool, Outcome.done]

theorem comparisonTruth (listed : operation ∈ comparisons) (width : Width) :
    ∃ result, operation.action width = .truth result := by
  cases operation with
  | eq | ne | ltU | ltS | gtU | gtS | leU | leS | geU | geS => exact ⟨_, rfl⟩
  | _ => contradiction

theorem comparisonPushed (listed : operation ∈ comparisons) (width : Width) (second top : Int)
    (rest : Stack) : width.apply operation (.number top :: .number second :: rest) =
      .done (.number (if operation.Holds width second top then 1 else 0) :: rest) := by
  obtain ⟨result, row⟩ := comparisonTruth listed width
  rw [applyTruth row, Value.ofBool]
  simp only [holdsTruth row]

theorem equalHolds : eq.Holds width second top ↔ second = top := by
  rw [holdsTruth rfl, decide_eq_true_iff, eq_comm]

theorem unequalHolds : ne.Holds width second top ↔ second ≠ top := by
  rw [holdsTruth rfl, decide_eq_true_iff, ne_comm]

end Entries
end Operation

namespace Comparison

variable {width : Width} {second top : Int}

theorem holds (comparison : Comparison) (reading : Reading) :
    (comparison.operation reading).Holds width second top ↔
      comparison.Relates (reading.read width second) (reading.read width top) := by
  cases comparison <;> cases reading <;>
    exact (Operation.holdsTruth rfl).trans decide_eq_true_iff

theorem ordered (width : Width) (reading : Reading) :
    Operation.Ordered width (less.operation reading) (greater.operation reading)
      (atMost.operation reading) (atLeast.operation reading) where
  mirrored second top := by
    rw [holds, holds]
    rfl
  notLess second top := by
    rw [holds, holds]
    exact not_lt.symm
  notGreater second top := by
    rw [holds, holds]
    exact not_lt.symm
  transitive first second third := by
    rw [holds, holds, holds]
    exact lt_trans

theorem touching (reading : Reading) :
    (atMost.operation reading).Holds width second top ∧
        (atLeast.operation reading).Holds width second top ↔
      reading.read width second = reading.read width top := by
  rw [holds, holds]
  exact le_antisymm_iff.symm

theorem level (reading : Reading) :
    ¬ (less.operation reading).Holds width second top ∧
        ¬ (greater.operation reading).Holds width second top ↔
      reading.read width second = reading.read width top := by
  rw [← (ordered width reading).notLess, ← (ordered width reading).notGreater, and_comm, touching]

theorem exhaustive (reading : Reading) (second top : Int) :
    (less.operation reading).Holds width second top ∨
      reading.read width second = reading.read width top ∨
        (greater.operation reading).Holds width second top := by
  rw [holds, holds]
  exact lt_trichotomy _ _

theorem modular (comparison : Comparison) {otherSecond otherTop : Int}
    (first : second ≡ otherSecond [ZMOD width.modulus])
    (next : top ≡ otherTop [ZMOD width.modulus]) :
    (comparison.operation .residue).Holds width second top ↔
      (comparison.operation .residue).Holds width otherSecond otherTop := by
  have same {value other : Int} (congruent : value ≡ other [ZMOD width.modulus]) :
      Reading.residue.read width value = Reading.residue.read width other :=
    Width.residueEqual.mpr congruent
  rw [holds, holds, same first, same next]

theorem agreeing (comparison : Comparison) (first : width.IsResidue second)
    (next : width.IsResidue top) :
    (comparison.operation .residue).Holds width second top ↔
      (comparison.operation .raw).Holds width second top := by
  have fixed {value : Int} (residue : width.IsResidue value) :
      Reading.residue.read width value = Reading.raw.read width value :=
    width.residueFixed residue.1 residue.2
  rw [holds, holds, fixed first, fixed next]

end Comparison

theorem comparisonsCoherent (width : Width) :
    width.modulus = 2 ^ width.bits ∧ Operation.Coherent width := by
  have less (second top : Int) : Operation.ltS.Holds width second top ↔ second < top :=
    Comparison.less.holds .raw
  have greater (second top : Int) : Operation.gtS.Holds width second top ↔ second > top :=
    Comparison.greater.holds .raw
  have equal (second top : Int) : Operation.eq.Holds width second top ↔ second = top :=
    Operation.equalHolds
  exact ⟨width.modulusPower, {
    pushed := fun comparison listed => Operation.comparisonPushed listed width
    raw := Comparison.ordered width .raw
    residues := Comparison.ordered width .residue
    equal := equal
    unequal := fun second top => by rw [Operation.unequalHolds, equal]
    less := less
    exhaustive := fun second top => by
      rw [equal]
      exact Comparison.exhaustive .raw second top
    exclusive := fun second top => by
      rw [less, equal, greater]
      omega
    modular := fun _ _ _ _ first next => Comparison.less.modular first next
    level := fun _ _ => (Comparison.level .residue).trans Width.residueEqual
    agreeing := fun second top first next => by
      have agree (comparison : Comparison) := comparison.agreeing first next
      refine ⟨agree .less, agree .greater, agree .atMost, agree .atLeast, ?_⟩
      rw [equal]
      exact (and_congr (agree .atMost) (agree .atLeast)).trans (Comparison.touching .raw) }⟩

theorem comparisonsCoherentBelowZero :
    Operation.ltS.Holds .i32 (-1) 1 ∧ ¬ Operation.ltU.Holds .i32 (-1) 1 ∧
    Operation.ltU.Holds .i32 1 (-1) ∧
    (Operation.ltU.Holds .i32 0x100000001 (-1) ↔ Operation.ltU.Holds .i32 1 0xFFFFFFFF) ∧
    (Operation.leU.Holds .i32 5 0x80000000 ↔ Operation.leS.Holds .i32 5 0x80000000) := by
  obtain ⟨-, coherent⟩ := comparisonsCoherent .i32
  have below : Operation.ltU.Holds .i32 1 (-2) := by decide
  have above : Operation.ltU.Holds .i32 (-2) (-1) := by decide
  exact ⟨(coherent.less (-1) 1).mpr (by decide), by decide,
    coherent.residues.transitive 1 (-2) (-1) below above,
    coherent.modular _ _ _ _ (by decide) (by decide),
    (coherent.agreeing 5 0x80000000 (by decide) (by decide)).2.2.1⟩

end StackMachine
