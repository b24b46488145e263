import StackMachine.Proofs.Turns

/-! Rotations of all integers by no more than the width. What is turned is the remainder of
a division that rounds toward zero, and it keeps the sign of the value. For a value that is
natural or a multiple of the modulus it is the residue, and the word is turned. For any
other it is negative: the half that moves right then has ones wherever the other half
has its bits, so nothing of the other half is left, and no word is turned at all. -/
namespace StackMachine

namespace Bitwise

variable {value high low : Int} {count index : Nat}

theorem bitSign (negative : value < 0) (near : -2 ^ count ≤ value) (above : count ≤ index) :
    value.testBit index = true := by
  match value, negative, near with
  | .negSucc magnitude, _, near =>
    have power : (2 : Int) ^ count = (2 ^ count : Nat) := by push_cast; rfl
    have small : magnitude < 2 ^ count := by omega
    have beyond : magnitude < 2 ^ index :=
      small.trans_le (Nat.pow_le_pow_right (by decide) above)
    rw [Int.testBit, Nat.testBit_lt_two_pow beyond, Bool.not_false]

theorem orAbsorbed (multiple : 2 ^ count ∣ high) (negative : low < 0) (near : -2 ^ count ≤ low) :
    or low high = low := by
  refine bitExtensional fun index => ?_
  rw [bitOr]
  rcases Nat.lt_or_ge index count with below | above
  · rw [multipleBits.mp multiple index below, Bool.or_false]
  · rw [bitSign negative near above, Bool.true_or]

end Bitwise

namespace Width

variable {width : Width} {value : Int} {count : Nat}

theorem truncatedKept (kept : 0 ≤ value ∨ width.modulus ∣ value) :
    value.tmod width.modulus = width.residue value := by
  rw [Int.tmod_eq_emod, if_pos kept, Int.natCast_zero, Int.sub_zero, residueModulo]

theorem truncatedLost (lost : ¬ (0 ≤ value ∨ width.modulus ∣ value)) :
    value.tmod width.modulus < 0 := by
  have below := (width.residueRange value).2
  have lowered : value.tmod width.modulus = width.residue value - width.modulus := by
    rw [Int.tmod_eq_emod, if_neg lost, Int.natAbs_of_nonneg width.modulusPositive.le, residueModulo]
  omega

theorem rotrKept (kept : 0 ≤ value ∨ width.modulus ∣ value) (amount : Int) :
    width.rotr value amount = width.rotr (width.residue value) amount := by
  have twice : width.rotr (value.tmod width.modulus) amount = width.rotr value amount := by
    simp only [rotr, Int.tmod_tmod]
  rw [← twice, truncatedKept kept]

theorem halvesAbsorbed (negative : value < 0) (near : -width.modulus ≤ value)
    (within : count ≤ width.bits) :
    Bitwise.or (value / 2 ^ count) (width.residue (value * 2 ^ (width.bits - count))) =
      value / 2 ^ count := by
  have positive : (0 : Int) < 2 ^ count := Int.pow_pos (by decide)
  have modulus := width.modulusParts within
  have multiple : 2 ^ (width.bits - count) ∣ width.residue (value * 2 ^ (width.bits - count)) :=
    ⟨_, width.residueProduct (Nat.sub_add_cancel within) value⟩
  refine Bitwise.orAbsorbed multiple (Int.ediv_neg_of_neg_of_pos negative positive) ?_
  refine Int.le_ediv_of_mul_le positive ?_
  rw [Int.neg_mul, ← modulus]
  exact near

theorem rotrLost (lost : ¬ (0 ≤ value ∨ width.modulus ∣ value)) (within : count ≤ width.bits) :
    width.rotr value count = .ok (value.tmod width.modulus / 2 ^ count) := by
  have near := (width.truncatedRange value).1.le
  rw [rotrHalved within, halvesAbsorbed (truncatedLost lost) near within]

end Width

theorem rotationsOfRemainders {width : Width} {turn : Turn} (within : turn.amount ≤ width.bits)
    (value : Int) (rest : Stack) :
    let applied (value : Int) : Outcome :=
      width.apply turn.operation (.number turn.amount :: .number value :: rest)
    ∃ result, applied value = .done (.number result :: rest) ∧
      (turn.Rotates width (width.residue value) result ↔ 0 ≤ value ∨ width.modulus ∣ value) ∧
      (applied value = applied (width.residue value) ↔ 0 ≤ value ∨ width.modulus ∣ value) ∧
      (value < 0 → ¬ width.modulus ∣ value →
        result = value.tmod width.modulus / 2 ^ turn.offset width ∧ result < 0) := by
  intro applied
  obtain ⟨turned, rotates, done⟩ := turn.applied within (width.residueRange value)
  by_cases kept : 0 ≤ value ∨ width.modulus ∣ value
  · have same : applied value = applied (width.residue value) := by
      simp only [applied, turn.appliedOffset within, Width.rotrKept kept]
    refine ⟨turned, same.trans (done rest), iff_of_true rotates kept, iff_of_true same kept, ?_⟩
    intro negative other
    exact absurd kept (not_or.mpr ⟨Int.not_le.mpr negative, other⟩)
  · have pushed : applied value =
        .done (.number (value.tmod width.modulus / 2 ^ turn.offset width) :: rest) := by
      simp only [applied, turn.appliedOffset within, Width.rotrLost kept (turn.offsetWithin within)]
      rfl
    have negative : value.tmod width.modulus / 2 ^ turn.offset width < 0 :=
      Int.ediv_neg_of_neg_of_pos (Width.truncatedLost kept) (Int.pow_pos (by decide))
    refine ⟨_, pushed, iff_of_false ?_ kept, iff_of_false ?_ kept, fun _ _ => ⟨rfl, negative⟩⟩
    · intro rotated
      exact absurd rotated.residue.1 (Int.not_le.mpr negative)
    · intro same
      have outcomes := pushed.symm.trans (same.trans (done rest))
      have equal : value.tmod width.modulus / 2 ^ turn.offset width = turned := by
        simpa [Outcome.done] using outcomes
      exact absurd (equal ▸ rotates.residue.1) (Int.not_le.mpr negative)

theorem rotationsOfRemaindersOverWide :
    (∃ result, Width.i32.apply .rotl [.number 4, .number 0x180000001] = .done [.number result] ∧
      (Turn.left 4).Rotates .i32 0x80000001 result) ∧
    ∃ result, Width.i32.apply .rotr [.number 4, .number (-0x180000001)] = .done [.number result] ∧
      result = -0x8000001 := by
  have left : (Turn.left 4).amount ≤ Width.i32.bits := by decide
  have right : (Turn.right 4).amount ≤ Width.i32.bits := by decide
  obtain ⟨first, firstDone, turned, -, -⟩ := rotationsOfRemainders left 0x180000001 []
  obtain ⟨next, nextDone, -, -, lost⟩ := rotationsOfRemainders right (-0x180000001) []
  refine ⟨⟨first, firstDone, turned.mpr (by decide)⟩, next, nextDone, ?_⟩
  exact (lost (by decide) (by decide)).1

theorem signSurvivesRotation :
    Width.i32.residue (-2) = 0xFFFFFFFE ∧
    Width.i32.apply .rotl [.number 1, .number (-2)] = .done [.number (-1)] ∧
    Width.i32.apply .rotl [.number 1, .number 0xFFFFFFFE] = .done [.number 0xFFFFFFFD] ∧
    Width.i32.apply .rotr [.number 1, .number (-2)] = .done [.number (-1)] ∧
    Width.i32.apply .rotr [.number 1, .number 0xFFFFFFFE] = .done [.number 0x7FFFFFFF] := by
  decide

end StackMachine
