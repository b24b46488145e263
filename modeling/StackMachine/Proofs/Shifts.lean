import Mathlib.Algebra.Order.Ring.Int
import StackMachine.Proofs.Refusals
import StackMachine.Proofs.Residues

/-! Shifts as multiplication and division. A shift by any distance scales the exact integer
by that power of two and rounds down, and only a distance to the left can be too long. Past
the longest distance a shift to the right is not carried out; what stands in for its
result is the same quotient for every integer that fits in as many bits. -/
namespace StackMachine

namespace Shift

def InReach (value : Int) : Prop := -2 ^ (longest + 1) ≤ value ∧ value < 2 ^ (longest + 1)

variable {value distance amount : Int}

theorem quotientFar (reach : InReach value) {count : Nat} (far : longest < count) :
    value / 2 ^ count = if value < 0 then -1 else 0 := by
  have wide : (2 : Int) ^ (longest + 1) ≤ 2 ^ count := pow_le_pow_right₀ (by decide) far
  have low : -2 ^ count ≤ value := (Int.neg_le_neg wide).trans reach.1
  have high : value < 2 ^ count := reach.2.trans_le wide
  have positive : (0 : Int) < 2 ^ count := Int.pow_pos (by decide)
  split
  next negative =>
    have parts : value / 2 ^ count = -1 ∧ value % 2 ^ count = value + 2 ^ count :=
      (Int.ediv_emod_unique positive).mpr (by omega)
    exact parts.1
  next natural => exact Int.ediv_eq_zero_of_lt (Int.not_lt.mp natural) high

theorem scaleUp (value : Int) (forward : 0 ≤ distance) (near : distance ≤ longest) :
    scale? value distance = some (value * 2 ^ distance.toNat) := by
  obtain ⟨count, rfl⟩ := Int.eq_ofNat_of_zero_le forward
  rw [scaleLeft value (Int.ofNat_le.mp near), Int.shiftLeft_eq, Int.toNat_natCast]

theorem scaleDown (backward : distance ≤ 0) (reach : InReach value) :
    scale? value distance = some (value / 2 ^ (-distance).toNat) := by
  obtain ⟨count, same⟩ := Int.eq_ofNat_of_zero_le (Int.neg_nonneg.mpr backward)
  obtain rfl : distance = -(count : Int) := by omega
  rw [neg_neg, Int.toNat_natCast]
  rcases Nat.lt_or_ge longest count with far | near
  · rw [scaleBeyond value far, quotientFar reach far]
  · rw [scaleRight value near, Int.shiftRight_eq_div_pow, Nat.cast_pow, Nat.cast_ofNat]

theorem scaleFar (value : Int) (far : longest < distance) : scale? value distance = none := by
  have undefined := (scaleDefined value distance).not.mpr (Int.not_le.mpr far)
  exact Option.not_isSome_iff_eq_none.mp undefined

theorem leftUp (value : Int) (forward : 0 ≤ amount) (near : amount ≤ longest) :
    left value amount = .ok (value * 2 ^ amount.toNat) := by
  rw [left, scaleUp value forward near]

theorem leftDown (backward : amount ≤ 0) (reach : InReach value) :
    left value amount = .ok (value / 2 ^ (-amount).toNat) := by
  rw [left, scaleDown backward reach]

theorem rightUp (value : Int) (backward : amount ≤ 0) (near : -amount ≤ longest) :
    right value amount = .ok (value * 2 ^ (-amount).toNat) := by
  rw [right, scaleUp value (Int.neg_nonneg.mpr backward) near]

theorem rightDown (forward : 0 ≤ amount) (reach : InReach value) :
    right value amount = .ok (value / 2 ^ amount.toNat) := by
  rw [right, scaleDown (Int.neg_nonpos_of_nonneg forward) reach, neg_neg]

end Shift

theorem Width.wordInReach {width : Width} {value : Int} (low : -width.modulus ≤ value)
    (high : value < width.modulus) : Shift.InReach value := by
  have wide : (2 : Int) ^ width.bits ≤ 2 ^ (Shift.longest + 1) :=
    pow_le_pow_right₀ (by decide) (by cases width <;> decide)
  rw [modulusPower] at low high
  exact ⟨(Int.neg_le_neg wide).trans low, high.trans_le wide⟩

theorem Width.residueInReach {width : Width} {value : Int} (residue : width.IsResidue value) :
    Shift.InReach value := by
  have positive := width.modulusPositive
  exact wordInReach ((Int.neg_nonpos_of_nonneg positive.le).trans residue.1) residue.2

structure Outcome.Scales (value distance amount : Int) (rest : Stack) (outcome : Outcome) :
    Prop where
  refused : Shift.longest < distance → outcome = .refused rest (.shiftRange amount)
  up : 0 ≤ distance → distance ≤ Shift.longest →
    outcome = .done (.number (value * 2 ^ distance.toNat) :: rest)
  total : distance ≤ 0 → ∃ result, outcome = .done (.number result :: rest)
  down : distance ≤ 0 → Shift.InReach value →
    outcome = .done (.number (value / 2 ^ (-distance).toNat) :: rest)

section Stacks

variable {width : Width} {value distance amount : Int} {answer : Except Violation Int}

theorem Width.applyShift {operation : Operation} {result : Int → Int → Except Violation Int}
    (shifts : operation.action width = .shift result) (value amount : Int) (rest : Stack) :
    width.apply operation (.number amount :: .number value :: rest) =
      .ofAnswer rest ((result value amount).map .number) :=
  applyBinary shifts amount value rest

theorem Outcome.scalesAnswer (found : ∀ result ∈ Shift.scale? value distance, answer = .ok result)
    (lost : Shift.scale? value distance = none → answer = .error (.shiftRange amount))
    (rest : Stack) : (Outcome.ofAnswer rest (answer.map .number)).Scales value distance amount rest where
  refused far := by rw [lost (Shift.scaleFar value far)]; rfl
  up forward near := by rw [found _ (Shift.scaleUp value forward near)]; rfl
  total backward := by
    have near : distance ≤ Shift.longest := backward.trans (Int.natCast_nonneg _)
    obtain ⟨result, scaled⟩ :=
      Option.isSome_iff_exists.mp ((Shift.scaleDefined value distance).mpr near)
    exact ⟨result, by rw [found _ scaled]; rfl⟩
  down backward reach := by rw [found _ (Shift.scaleDown backward reach)]; rfl

theorem Shift.leftScales (value amount : Int) (rest : Stack) :
    (Outcome.ofAnswer rest ((left value amount).map .number)).Scales value amount amount rest :=
  Outcome.scalesAnswer (fun result scaled => by rw [left, Option.mem_def.mp scaled])
    (fun lost => by rw [left, lost]) rest

theorem Shift.rightScales (value amount : Int) (rest : Stack) :
    (Outcome.ofAnswer rest ((right value amount).map .number)).Scales value (-amount) amount rest :=
  Outcome.scalesAnswer (fun result scaled => by rw [right, Option.mem_def.mp scaled])
    (fun lost => by rw [right, lost]) rest

end Stacks

theorem shiftsExact (width : Width) (value amount : Int) (rest : Stack) :
    Shift.longest = 2 ^ 32 - 1 ∧
    (width.apply .shl (.number amount :: .number value :: rest)).Scales value amount amount rest ∧
    (width.apply .shrS (.number amount :: .number value :: rest)).Scales value (-amount) amount rest ∧
    (width.apply .shrU (.number amount :: .number value :: rest)).Scales
      (width.residue value) (-amount) amount rest ∧
    Shift.InReach (width.residue value) := by
  refine ⟨rfl, ?_, ?_, ?_, Width.residueInReach (width.residueRange value)⟩
  · rw [Width.applyShift rfl]
    exact Shift.leftScales value amount rest
  · rw [Width.applyShift rfl]
    exact Shift.rightScales value amount rest
  · rw [Width.applyShift rfl]
    exact Shift.rightScales (width.residue value) amount rest

theorem shiftsExactPastTheLongest :
    Width.i32.apply .shl [.number 4294967296, .number 0] = .refused [] (.shiftRange 4294967296) ∧
    Width.i64.apply .shrS [.number 9223372036854775808, .number (-8)] = .done [.number (-1)] ∧
    Width.i32.apply .shrU [.number 4, .number (-16)] = .done [.number 268435455] := by
  obtain ⟨-, left, -, -, -⟩ := shiftsExact .i32 0 4294967296 []
  obtain ⟨-, -, signed, -, -⟩ := shiftsExact .i64 (-8) 9223372036854775808 []
  obtain ⟨-, -, -, unsigned, reach⟩ := shiftsExact .i32 (-16) 4 []
  refine ⟨left.refused (by decide), ?_, unsigned.down (by decide) reach⟩
  have small : Shift.InReach (-8) := by
    have wide : (2 : Int) ^ 3 ≤ 2 ^ (Shift.longest + 1) := pow_le_pow_right₀ (by decide) (by decide)
    exact ⟨by omega, by omega⟩
  rw [signed.down (by decide) small, Shift.quotientFar small (by decide)]
  rfl

end StackMachine
