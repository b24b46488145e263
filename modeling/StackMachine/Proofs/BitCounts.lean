import Mathlib.Algebra.BigOperators.Group.Finset.Piecewise
import Mathlib.Data.Nat.Digits.Defs
import Mathlib.Order.Bounds.Defs
import StackMachine.Proofs.Residues

/-! Bit counts told by the set of the places that hold a one. Counting zeros from either end of a
window finds the nearest such place, or runs through the window when there is none; counting
ones counts the set. A value enters through its residue alone, and of that the count from
above sees the low thirty-two places. Written in digits of as many bits, the residue gives
the same counts digit by digit. -/
namespace StackMachine

namespace Bitwise

def ones (window : Nat) (value : Int) : Finset Nat :=
  {place ∈ Finset.range window | value / 2 ^ place % 2 = 1}

variable {window value place : Nat}

theorem leadingZerosNone (clear : ∀ place < window, value.testBit place = false) :
    leadingZeros window value = window := by
  induction window with
  | zero => rfl
  | succ window ih =>
    have below := ih fun place inside => clear place (Nat.lt_succ_of_lt inside)
    simp [leadingZeros, clear window (Nat.lt_succ_self window), below, Nat.add_comm]

theorem leadingZerosHighest (inside : place < window) (holds : value.testBit place = true)
    (clear : ∀ other < window, place < other → value.testBit other = false) :
    leadingZeros window value = window - 1 - place := by
  induction window with
  | zero => contradiction
  | succ window ih =>
    unfold leadingZeros
    rcases Nat.lt_succ_iff_lt_or_eq.mp inside with below | rfl
    · have above := ih below fun other within => clear other (Nat.lt_succ_of_lt within)
      rw [clear window (Nat.lt_succ_self window) below, above]
      simp; omega
    · simp [holds]

theorem trailingZerosNone (clear : ∀ place < window, value.testBit place = false) :
    trailingZeros window value = window := by
  induction window generalizing value with
  | zero => rfl
  | succ window ih =>
    have even : ¬ value % 2 = 1 := by simpa [Nat.testBit_zero] using clear 0 (Nat.succ_pos window)
    have above : ∀ place < window, (value / 2).testBit place = false := fun place inside => by
      rw [← Nat.testBit_succ]
      exact clear (place + 1) (Nat.succ_lt_succ inside)
    rw [trailingZeros, if_neg even, ih above, Nat.add_comm]

theorem trailingZerosLowest (inside : place < window) (holds : value.testBit place = true)
    (clear : ∀ other < place, value.testBit other = false) :
    trailingZeros window value = place := by
  induction window generalizing value place with
  | zero => contradiction
  | succ window ih =>
    unfold trailingZeros
    cases place with
    | zero =>
      rw [Nat.testBit_zero, decide_eq_true_eq] at holds
      rw [if_pos holds]
    | succ place =>
      have even : ¬ value % 2 = 1 := by simpa [Nat.testBit_zero] using clear 0 (Nat.succ_pos place)
      rw [Nat.testBit_succ] at holds
      have above := ih (Nat.lt_of_succ_lt_succ inside) holds fun other below => by
        rw [← Nat.testBit_succ]
        exact clear (other + 1) (Nat.succ_lt_succ below)
      rw [if_neg even, above, Nat.add_comm]

theorem setBitsSum (window value : Nat) :
    setBits window value = ∑ place ∈ Finset.range window, (value.testBit place).toNat := by
  induction window generalizing value with
  | zero => rfl
  | succ window ih =>
    have lowest : value % 2 = (value.testBit 0).toNat := by
      rw [Nat.testBit_zero]
      rcases Nat.mod_two_eq_zero_or_one value with even | odd <;> simp [*]
    simp only [setBits, ih, Finset.sum_range_succ', Nat.testBit_succ, lowest, Nat.add_comm]

section Digits

theorem leadingZerosDigit (positive : 0 < window) (value : Nat) :
    leadingZeros window ((Nat.digits (2 ^ window) value).headD 0) = leadingZeros window value := by
  rcases Nat.eq_zero_or_pos value with rfl | natural
  · rw [Nat.digits_zero, List.headD_nil]
  · rw [Nat.digits_def' (Nat.one_lt_two_pow positive.ne') natural, List.headD_cons]
    refine leadingZerosLow fun place inside => ?_
    rw [Nat.testBit_mod_two_pow, decide_eq_true inside, Bool.true_and]

theorem setBitsWider {wide : Nat} (fits : window ≤ wide) (small : value < 2 ^ window) :
    setBits wide value = setBits window value := by
  rw [setBitsSum, setBitsSum]
  refine (Finset.sum_subset (Finset.range_subset_range.mpr fits) fun place _ outside => ?_).symm
  have beyond : window ≤ place := Nat.not_lt.mp (mt Finset.mem_range.mpr outside)
  rw [Nat.testBit_lt_two_pow (small.trans_le (Nat.pow_le_pow_right (by decide) beyond)),
    Bool.toNat_false]

theorem setBitsDigits (small : value < 2 ^ window) :
    ((Nat.digits (2 ^ window) value).map (setBits window)).sum = setBits window value := by
  rcases Nat.eq_zero_or_pos value with rfl | natural
  · rw [Nat.digits_zero, setBitsSum]
    simp
  · rw [Nat.digits_of_lt _ _ natural.ne' small, List.map_singleton, List.sum_singleton]

end Digits

theorem onesCount (window : Nat) (value : Int) :
    (ones window value).card = ∑ place ∈ Finset.range window, (value.testBit place).toNat := by
  simp only [ones, ← bitOdd, Finset.card_filter]
  refine Finset.sum_congr rfl fun place _ => ?_
  cases value.testBit place <;> rfl

end Bitwise

namespace Width

variable {width : Width} {window place : Nat} {value : Int}

theorem residueTestBit (width : Width) (value : Int) (place : Nat) :
    (width.residue value).toNat.testBit place = (width.residue value).testBit place := by
  rw [testBitResidue, bitResidue]

theorem onesResidue : place ∈ Bitwise.ones window (width.residue value) ↔
    place < window ∧ (width.residue value).toNat.testBit place = true := by
  rw [residueTestBit, Bitwise.bitOdd, Bitwise.ones, Finset.mem_filter, Finset.mem_range]

theorem onesClear (inside : place < window)
    (absent : place ∉ Bitwise.ones window (width.residue value)) :
    (width.residue value).toNat.testBit place = false :=
  Bool.eq_false_iff.mpr fun holds => absent (onesResidue.mpr ⟨inside, holds⟩)

theorem popcntSum (width : Width) (value : Int) :
    width.popcnt value = (∑ place ∈ Finset.range width.bits, (value.testBit place).toNat : Nat) := by
  rw [popcnt, Bitwise.setBitsSum]
  refine congrArg Int.ofNat (Finset.sum_congr rfl fun place inside => ?_)
  rw [testBitResidue, decide_eq_true (Finset.mem_range.mp inside), Bool.true_and]

theorem popcntOnes (width : Width) (value : Int) :
    width.popcnt value = (Bitwise.ones width.bits (width.residue value)).card := by
  rw [Bitwise.onesCount, popcnt, Bitwise.setBitsSum]
  simp only [residueTestBit]

theorem clzDigit (width : Width) (value : Int) : width.clz value =
    Bitwise.leadingZeros 32 ((Nat.digits (2 ^ 32) (width.residue value).toNat).headD 0) := by
  rw [clz, Bitwise.leadingZerosDigit (by decide)]

theorem popcntDigits (width : Width) (value : Int) : width.popcnt value =
    ((Nat.digits (2 ^ 64) (width.residue value).toNat).map (Bitwise.setBits 64)).sum := by
  have range := width.residueRange value
  rw [modulusPower] at range
  have small : (width.residue value).toNat < 2 ^ width.bits := by
    zify
    omega
  rw [Bitwise.setBitsDigits (small.trans_le (Nat.pow_le_pow_right (by decide) width.bitsBound)),
    Bitwise.setBitsWider width.bitsBound small, popcnt]

end Width

structure BitsCounted (width : Width) (value leading trailing population : Int) : Prop where
  leadingNone : Bitwise.ones 32 (width.residue value) = ∅ → leading = 32
  leadingHighest : ∀ place : Nat,
    IsGreatest (Bitwise.ones 32 (width.residue value) : Set Nat) place → leading = 31 - place
  trailingNone : Bitwise.ones width.bits (width.residue value) = ∅ → trailing = width.bits
  trailingLowest : ∀ place : Nat,
    IsLeast (Bitwise.ones width.bits (width.residue value) : Set Nat) place → trailing = place
  populationPlaces : population = (Bitwise.ones width.bits (width.residue value)).card
  leadingDigit : leading =
    Bitwise.leadingZeros 32 ((Nat.digits (2 ^ 32) (width.residue value).toNat).headD 0)
  populationDigits : population =
    ((Nat.digits (2 ^ 64) (width.residue value).toNat).map (Bitwise.setBits 64)).sum

theorem Width.bitsCounted (width : Width) (value : Int) :
    BitsCounted width value (width.clz value) (width.ctz value) (width.popcnt value) where
  leadingNone empty := by
    have clear := fun place inside => onesClear inside (empty ▸ Finset.notMem_empty place)
    rw [clz, Bitwise.leadingZerosNone clear]
    rfl
  leadingHighest place greatest := by
    obtain ⟨inside, holds⟩ := onesResidue.mp greatest.1
    have clear : ∀ other < 32, place < other →
        (width.residue value).toNat.testBit other = false := fun other within above =>
      onesClear within fun member => absurd (greatest.2 member) (Nat.not_le.mpr above)
    rw [clz, Bitwise.leadingZerosHighest inside holds clear]
    omega
  trailingNone empty := by
    have clear := fun place inside => onesClear inside (empty ▸ Finset.notMem_empty place)
    rw [ctz, Bitwise.trailingZerosNone clear]
  trailingLowest place least := by
    obtain ⟨inside, holds⟩ := onesResidue.mp least.1
    have clear : ∀ other < place, (width.residue value).toNat.testBit other = false :=
      fun other below => onesClear (below.trans inside) fun member =>
        absurd (least.2 member) (Nat.not_le.mpr below)
    rw [ctz, Bitwise.trailingZerosLowest inside holds clear]
  populationPlaces := width.popcntOnes value
  leadingDigit := width.clzDigit value
  populationDigits := width.popcntDigits value

theorem bitCountsExact (width : Width) (value : Int) (rest : Stack) :
    width.residue value = value % 2 ^ width.bits ∧ ∃ leading trailing population,
      width.apply .clz (.number value :: rest) = .done (.number leading :: rest) ∧
      width.apply .ctz (.number value :: rest) = .done (.number trailing :: rest) ∧
      width.apply .popcnt (.number value :: rest) = .done (.number population :: rest) ∧
      BitsCounted width value leading trailing population := by
  refine ⟨?_, _, _, _, rfl, rfl, rfl, width.bitsCounted value⟩
  rw [Width.residueModulo, Width.modulusPower]

theorem bitCountsExactBelowZero :
    Width.i32.apply .clz [.number (-0xFFFFFFD8)] = .done [.number 26] ∧
    Width.i32.apply .ctz [.number (-0xFFFFFFD8)] = .done [.number 3] ∧
    Width.i32.apply .popcnt [.number (-0xFFFFFFD8)] = .done [.number 2] := by
  obtain ⟨-, leading, trailing, population, first, last, all, counted⟩ :=
    bitCountsExact .i32 (-0xFFFFFFD8) []
  have places : Bitwise.ones 32 (Width.i32.residue (-0xFFFFFFD8)) = {3, 5} := by decide
  have either (place : Nat) : place ∈ Bitwise.ones 32 (Width.i32.residue (-0xFFFFFFD8)) ↔
      place = 3 ∨ place = 5 := by
    rw [places, Finset.mem_insert, Finset.mem_singleton]
  have highest : IsGreatest (Bitwise.ones 32 (Width.i32.residue (-0xFFFFFFD8)) : Set Nat) 5 :=
    ⟨(either 5).mpr (.inr rfl), fun place found => by have known := (either place).mp found; omega⟩
  have lowest : IsLeast (Bitwise.ones 32 (Width.i32.residue (-0xFFFFFFD8)) : Set Nat) 3 :=
    ⟨(either 3).mpr (.inl rfl), fun place found => by have known := (either place).mp found; omega⟩
  have both : population = 2 := by
    rw [counted.populationPlaces]
    exact congrArg (fun places : Finset Nat => (places.card : Int)) places
  rw [first, last, all, counted.leadingHighest 5 highest, counted.trailingLowest 3 lowest, both]
  exact ⟨rfl, rfl, rfl⟩

end StackMachine
