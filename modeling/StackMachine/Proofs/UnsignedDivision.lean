import StackMachine.Proofs.Residues

/-! Unsigned quotients and remainders, for all integers. Both operations read both operands
as residues, so an operand may be negative or too wide, and a divisor counts as zero when
it is any multiple of the modulus. The two answers to one pair of operands are the
quotient and the remainder of one division, and no other pair of numbers is. -/
namespace StackMachine

structure UnsignedAnswers (width : Width) (top second : Int) (quotient remainder : Value) :
    Prop where
  quotientTrap : quotient = .trap ↔ width.modulus ∣ second
  remainderTrap : remainder = .trap ↔ width.modulus ∣ second
  division : ¬ width.modulus ∣ second → ∃ whole left,
    quotient = .number whole ∧ remainder = .number left ∧
    top % width.modulus = whole * (second % width.modulus) + left ∧
    0 ≤ left ∧ left < second % width.modulus ∧ 0 ≤ whole ∧ whole < width.modulus
  only : ∀ whole left, top % width.modulus = whole * (second % width.modulus) + left →
    0 ≤ left → left < second % width.modulus →
    quotient = .number whole ∧ remainder = .number left

namespace Width

variable {width : Width} {top second value : Int}

theorem residueZero : width.residue value = 0 ↔ width.modulus ∣ value := by
  rw [residueModulo, Int.dvd_iff_emod_eq_zero]

theorem divUTrapped : width.divU top second = .trap ↔ width.modulus ∣ second := by
  rw [← residueZero, divU]
  split <;> simp [*]

theorem remUTrapped : width.remU top second = .trap ↔ width.modulus ∣ second := by
  rw [← residueZero, remU, remainderTrapped]

theorem dividedNumbers (nonzero : width.residue second ≠ 0) (top : Int) :
    width.divU top second = .number (width.residue top / width.residue second) ∧
      width.remU top second = .number (width.residue top % width.residue second) := by
  rw [divU, remU, remainderModulo, if_neg nonzero, if_neg nonzero]
  exact ⟨rfl, rfl⟩

theorem unsignedAnswers (width : Width) (top second : Int) :
    UnsignedAnswers width top second (width.divU top second) (width.remU top second) where
  quotientTrap := divUTrapped
  remainderTrap := remUTrapped
  division other := by
    have nonzero : width.residue second ≠ 0 := mt residueZero.mp other
    have dividend := width.residueRange top
    have divisor := width.residueRange second
    have whole := dividedResidue dividend divisor
    obtain ⟨quotient, remainder⟩ := dividedNumbers nonzero top
    simp only [← residueModulo]
    refine ⟨_, _, quotient, remainder, ?_, Int.emod_nonneg _ nonzero,
      Int.emod_lt_of_pos _ (by omega), whole.1, whole.2⟩
    exact (Int.ediv_mul_add_emod _ _).symm
  only whole left sum natural below := by
    simp only [← residueModulo] at sum below
    have positive : 0 < width.residue second := Int.lt_of_le_of_lt natural below
    obtain ⟨quotient, remainder⟩ := dividedNumbers (Int.ne_of_gt positive) top
    have parts : width.residue top / width.residue second = whole ∧
        width.residue top % width.residue second = left := by
      refine (Int.ediv_emod_unique positive).mpr ⟨?_, natural, below⟩
      rw [Int.add_comm, Int.mul_comm]
      exact sum.symm
    rw [quotient, remainder, parts.1, parts.2]
    exact ⟨rfl, rfl⟩

end Width

theorem unsignedDivisionEuclidean (width : Width) (top second : Int) (rest : Stack) :
    width.modulus = 2 ^ width.bits ∧ ∃ quotient remainder,
      width.apply .divU (.number top :: .number second :: rest) = .done (quotient :: rest) ∧
      width.apply .remU (.number top :: .number second :: rest) = .done (remainder :: rest) ∧
      UnsignedAnswers width top second quotient remainder :=
  ⟨width.modulusPower, _, _, rfl, rfl, width.unsignedAnswers top second⟩

end StackMachine
