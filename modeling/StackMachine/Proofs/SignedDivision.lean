import Mathlib.Data.Rat.Floor
import StackMachine.Proofs.LowBits
import StackMachine.Proofs.Refusals

/-! Signed quotients and remainders, for all integers. The signed reading folds the
residues in two: at the largest signed number it starts again from zero. So that number
divides as zero does, each smaller one has a second residue that stands for it, and a
quotient as large as it comes from two pairs of operands only. -/
namespace StackMachine

namespace Width

def folded (width : Width) (residue : Int) : Int :=
  if residue < width.signedMax then residue else residue - width.signedMax

variable {width : Width} {top second value reading dividend divisor : Int}

theorem signedFolded (residue : width.IsResidue value) :
    width.signed? value = some (width.folded value) := by
  unfold signed? folded
  by_cases lower : value < width.signedMax
  · rw [if_pos ⟨residue.1, lower⟩, if_pos lower]
  · rw [if_neg fun both => lower both.2, if_pos ⟨Int.not_lt.mp lower, residue.2⟩, if_neg lower]

theorem signedOutside (outside : ¬ width.IsResidue value) : width.signed? value = none :=
  Option.not_isSome_iff_eq_none.mp (mt (width.signedDefined value).mp outside)

theorem foldedRange (residue : width.IsResidue value) :
    0 ≤ width.folded value ∧ width.folded value ≤ width.signedMax + 1 :=
  width.signedRange (signedFolded residue)

theorem signedMaxLarge (width : Width) : 1 < width.signedMax := by cases width <;> decide

theorem signedMaxPower (width : Width) : width.signedMax = 2 ^ (width.bits - 1) - 1 := by
  cases width <;> rfl

theorem foldedTwice (residue : width.IsResidue value) (low : 0 ≤ reading)
    (high : reading < width.signedMax) :
    width.folded value = reading ↔ value = reading ∨ value = width.signedMax + reading := by
  have natural := residue.1
  unfold folded
  split <;> omega

theorem foldedOnce (high : width.signedMax ≤ reading) :
    width.folded value = reading ↔ value = width.signedMax + reading := by
  have positive := width.signedMaxPositive
  unfold folded
  split <;> omega

theorem foldedMax : width.folded value = width.signedMax ↔ value = width.modulus - 2 := by
  have split := width.modulusSplit
  rw [foldedOnce (Int.le_refl _)]
  omega

theorem foldedUnit (residue : width.IsResidue value) :
    width.folded value = 1 ↔ value = 1 ∨ value = width.signedMax + 1 :=
  foldedTwice residue (by decide) width.signedMaxLarge

theorem foldedZero (residue : width.IsResidue value) :
    width.folded value = 0 ↔ value = 0 ∨ value = width.signedMax := by
  simpa using foldedTwice residue (Int.le_refl 0) width.signedMaxPositive

theorem quotientReaches (dividendRange : dividend ≤ width.signedMax + 1)
    (divisorRange : 0 ≤ divisor) :
    width.signedMax ≤ dividend / divisor ↔ width.signedMax ≤ dividend ∧ divisor = 1 := by
  have large := width.signedMaxLarge
  constructor
  · intro reached
    rcases (by omega : divisor = 0 ∨ divisor = 1 ∨ 2 ≤ divisor) with rfl | rfl | two
    · rw [Int.ediv_zero] at reached
      omega
    · rw [Int.ediv_one] at reached
      exact ⟨reached, rfl⟩
    · have less : dividend < width.signedMax * divisor :=
        calc dividend
            ≤ width.signedMax + 1 := dividendRange
          _ < width.signedMax * 2 := by omega
          _ ≤ width.signedMax * divisor :=
            Int.mul_le_mul_of_nonneg_left two (Int.le_of_lt width.signedMaxPositive)
      exact absurd reached (Int.not_le.mpr (Int.ediv_lt_of_lt_mul (by omega) less))
  · rintro ⟨reached, rfl⟩
    rw [Int.ediv_one]
    exact reached

theorem quotientMax (dividendRange : dividend ≤ width.signedMax + 1) (divisorRange : 0 ≤ divisor) :
    dividend / divisor = width.signedMax ↔ dividend = width.signedMax ∧ divisor = 1 := by
  constructor
  · intro whole
    obtain ⟨-, rfl⟩ := (quotientReaches dividendRange divisorRange).mp (Int.le_of_eq whole.symm)
    rw [Int.ediv_one] at whole
    exact ⟨whole, rfl⟩
  · rintro ⟨rfl, rfl⟩
    exact Int.ediv_one _

end Width

structure SignedAnswers (width : Width) (top second : Int) (quotient remainder : Value) :
    Prop where
  quotientTrap : quotient = .trap ↔ second = 0 ∨ second = width.signedMax ∨
    top = width.modulus - 2 ∧ (second = 1 ∨ second = width.signedMax + 1)
  quotientNumber : ∀ number, quotient = .number number →
    number = ⌊(width.folded top : ℚ) / width.folded second⌋
  remainderTrap : remainder = .trap ↔ second = 0 ∨ second = width.signedMax
  remainderNumber : ∀ number, remainder = .number number →
    0 ≤ number ∧ number < width.folded second
  division : ∀ whole left, quotient = .number whole → remainder = .number left →
    width.folded top = whole * width.folded second + left

namespace Width

variable {width : Width} {top second dividend divisor number : Int}

theorem quotientTrapped : width.quotient dividend divisor = .trap ↔
    divisor = 0 ∨ dividend / divisor = width.signedMax := by
  unfold quotient
  split
  · simp [*]
  · split <;> simp [*]

theorem quotientNumbered (found : width.quotient dividend divisor = .number number) :
    number = dividend / divisor := by
  unfold quotient at found
  split at found
  · cases found
  · split at found
    · cases found
    · cases found; rfl

theorem remainderNumbered (found : remainder dividend divisor = .number number) :
    number = dividend % divisor ∧ divisor ≠ 0 := by
  rw [remainderModulo] at found
  split at found
  · cases found
  · cases found
    exact ⟨rfl, ‹_›⟩

theorem floorQuotient (dividend : Int) (natural : 0 ≤ divisor) :
    ⌊(dividend : ℚ) / divisor⌋ = dividend / divisor := by
  obtain ⟨count, rfl⟩ := Int.eq_ofNat_of_zero_le natural
  exact_mod_cast Rat.floor_intCast_div_natCast dividend count

theorem signedAnswers (first : width.IsResidue top) (next : width.IsResidue second) :
    SignedAnswers width top second (width.quotient (width.folded top) (width.folded second))
      (remainder (width.folded top) (width.folded second)) where
  quotientTrap := by
    rw [quotientTrapped, quotientMax (foldedRange first).2 (foldedRange next).1, foldedZero next,
      foldedMax, foldedUnit next, or_assoc]
  quotientNumber number found := by
    rw [quotientNumbered found, floorQuotient _ (foldedRange next).1]
  remainderTrap := by rw [remainderTrapped, foldedZero next]
  remainderNumber number found := by
    obtain ⟨rfl, nonzero⟩ := remainderNumbered found
    have natural := (foldedRange next).1
    exact ⟨Int.emod_nonneg _ nonzero, Int.emod_lt_of_pos _ (by omega)⟩
  division whole left quotient remainder := by
    rw [quotientNumbered quotient, (remainderNumbered remainder).1]
    exact (Int.ediv_mul_add_emod _ _).symm

section Operands

theorem signedOperandsFirst (outside : ¬ width.IsResidue top) (second : Int) :
    width.signedOperands top second = .error (.signedRange top width) := by
  rw [signedOperands, signedOutside outside]

theorem signedOperandsSecond (residue : width.IsResidue top) (outside : ¬ width.IsResidue second) :
    width.signedOperands top second = .error (.signedRange second width) := by
  rw [signedOperands, signedFolded residue, signedOutside outside]

theorem signedOperandsFolded (first : width.IsResidue top) (next : width.IsResidue second) :
    width.signedOperands top second = .ok (width.folded top, width.folded second) :=
  width.signedOperandsOk.mpr ⟨signedFolded first, signedFolded next⟩

theorem signedOperandsTwice {lower : Int} (low : 0 ≤ lower) (high : lower < width.signedMax)
    (other : Int) :
    width.signedOperands (lower + width.signedMax) other = width.signedOperands lower other ∧
      width.signedOperands other (lower + width.signedMax) =
        width.signedOperands other lower := by
  have split := width.modulusSplit
  have first : width.IsResidue lower := ⟨low, by omega⟩
  have later : width.IsResidue (lower + width.signedMax) := ⟨by omega, by omega⟩
  have one : width.signed? lower = some lower := by
    rw [signedFolded first, (foldedTwice first low high).mpr (.inl rfl)]
  have both : width.signed? (lower + width.signedMax) = some lower := by
    rw [signedFolded later, (foldedTwice later low high).mpr (.inr (Int.add_comm _ _))]
  simp only [signedOperands, one, both, and_self]

end Operands

end Width

section Stacks

variable {width : Width} {rest : Stack} {operation : Operation} {top second : Int}

theorem applyDivS (width : Width) (top second : Int) (rest : Stack) :
    width.apply .divS (.number top :: .number second :: rest) =
      .ofAnswer rest ((width.signedOperands top second).map fun readings =>
        width.quotient readings.1 readings.2) := by
  rw [← width.divSReadings]
  exact Width.applyBinary rfl top second rest

theorem applyRemS (width : Width) (top second : Int) (rest : Stack) :
    width.apply .remS (.number top :: .number second :: rest) =
      .ofAnswer rest ((width.signedOperands top second).map fun readings =>
        Width.remainder readings.1 readings.2) := by
  rw [← width.remSReadings]
  exact Width.applyBinary rfl top second rest

theorem applySigned (divides : operation ∈ [.divS, .remS]) (width : Width) :
    ∃ result : Int × Int → Value, ∀ top second rest,
      width.apply operation (.number top :: .number second :: rest) =
        .ofAnswer rest ((width.signedOperands top second).map result) := by
  rcases List.mem_pair.mp divides with rfl | rfl
  · exact ⟨_, applyDivS width⟩
  · exact ⟨_, applyRemS width⟩

theorem signedRefused (divides : operation ∈ [.divS, .remS]) {violation : Violation}
    (refused : width.signedOperands top second = .error violation) :
    width.apply operation (.number top :: .number second :: rest) = .refused rest violation := by
  obtain ⟨result, applied⟩ := applySigned divides width
  rw [applied, refused]
  rfl

theorem signedSame (divides : operation ∈ [.divS, .remS]) {other below : Int}
    (same : width.signedOperands top second = width.signedOperands other below) :
    width.apply operation (.number top :: .number second :: rest) =
      width.apply operation (.number other :: .number below :: rest) := by
  obtain ⟨result, applied⟩ := applySigned divides width
  rw [applied, applied, same]

end Stacks

theorem signedDivisionExact (width : Width) (rest : Stack) :
    width.modulus = 2 ^ width.bits ∧ width.signedMax = 2 ^ (width.bits - 1) - 1 ∧
    (∀ operation ∈ [Operation.divS, .remS], ∀ top second,
      (¬ width.IsResidue top →
        width.apply operation (.number top :: .number second :: rest) =
          .refused rest (.signedRange top width)) ∧
      (width.IsResidue top → ¬ width.IsResidue second →
        width.apply operation (.number top :: .number second :: rest) =
          .refused rest (.signedRange second width))) ∧
    (∀ top second, width.IsResidue top → width.IsResidue second → ∃ quotient remainder,
      width.apply .divS (.number top :: .number second :: rest) = .done (quotient :: rest) ∧
      width.apply .remS (.number top :: .number second :: rest) = .done (remainder :: rest) ∧
      SignedAnswers width top second quotient remainder) ∧
    ∀ operation ∈ [Operation.divS, .remS], ∀ lower other, 0 ≤ lower → lower < width.signedMax →
      width.apply operation (.number (lower + width.signedMax) :: .number other :: rest) =
        width.apply operation (.number lower :: .number other :: rest) ∧
      width.apply operation (.number other :: .number (lower + width.signedMax) :: rest) =
        width.apply operation (.number other :: .number lower :: rest) := by
  refine ⟨width.modulusPower, width.signedMaxPower, ?_, ?_, ?_⟩
  · intro operation divides top second
    exact ⟨fun outside => signedRefused divides (Width.signedOperandsFirst outside second),
      fun first outside => signedRefused divides (Width.signedOperandsSecond first outside)⟩
  · intro top second first next
    refine ⟨_, _, ?_, ?_, Width.signedAnswers first next⟩
    · rw [applyDivS, Width.signedOperandsFolded first next]
      rfl
    · rw [applyRemS, Width.signedOperandsFolded first next]
      rfl
  · intro operation divides lower other low high
    obtain ⟨above, beneath⟩ := Width.signedOperandsTwice low high other
    exact ⟨signedSame divides above, signedSame divides beneath⟩

theorem signedDivisionExactAtTheFold :
    Width.i32.apply .remS [.number 7, .number (-1)] = .refused [] (.signedRange (-1) .i32) ∧
    Width.i32.apply .divS [.number 4294967294, .number 2147483648, .number 5] =
      .done [.trap, .number 5] ∧
    Width.i32.apply .divS [.number 40, .number (3 + 2147483647)] =
      Width.i32.apply .divS [.number 40, .number 3] := by
  obtain ⟨-, -, refused, -, -⟩ := signedDivisionExact .i32 []
  obtain ⟨-, -, -, answered, -⟩ := signedDivisionExact .i32 [.number 5]
  obtain ⟨-, -, -, -, twice⟩ := signedDivisionExact .i32 []
  refine ⟨?_, ?_, ?_⟩
  · exact (refused .remS (by decide) 7 (-1)).2 ⟨by decide, by decide⟩ fun residue => by
      exact absurd residue.1 (by decide)
  · obtain ⟨quotient, remainder, divided, -, answers⟩ :=
      answered 4294967294 2147483648 ⟨by decide, by decide⟩ ⟨by decide, by decide⟩
    have trap : quotient = .trap := answers.quotientTrap.mpr (by decide)
    rw [divided, trap]
  · exact (twice .divS (by decide) 3 40 (by decide) (by decide)).2

end StackMachine
