import Mathlib.Data.Int.Bitwise
import Mathlib.Data.Int.ModEq
import StackMachine.Arithmetic

/-! Residues seen bit by bit, a bit being `Int.testBit`. Modulo a power of two an integer
is its bits below that position, so what acts on bits one by one respects congruence
there, and a residue is an integer with no bit at the width or above. The list of the bits
below the width says all there is to a residue. -/
namespace StackMachine

namespace Bitwise

theorem withoutDifference (left right : Nat) : without left right = Nat.ldiff left right := by
  refine Nat.eq_of_testBit_eq fun index => ?_
  rw [without, Nat.testBit_xor, Nat.testBit_and, Nat.testBit_ldiff]
  cases left.testBit index <;> cases right.testBit index <;> rfl

theorem andLand (left right : Int) : and left right = Int.land left right := by
  cases left <;> cases right <;> simp only [and, withoutDifference] <;> rfl

theorem orLor (left right : Int) : or left right = Int.lor left right := by
  cases left <;> cases right <;> simp only [or, withoutDifference] <;> rfl

theorem xorLxor (left right : Int) : xor left right = Int.xor left right := by
  cases left <;> cases right <;> rfl

theorem bitAnd (left right : Int) (index : Nat) :
    (and left right).testBit index = (left.testBit index && right.testBit index) := by
  rw [andLand, Int.testBit_land]

theorem bitOr (left right : Int) (index : Nat) :
    (or left right).testBit index = (left.testBit index || right.testBit index) := by
  rw [orLor, Int.testBit_lor]

theorem bitXor (left right : Int) (index : Nat) :
    (xor left right).testBit index = (left.testBit index ^^ right.testBit index) := by
  rw [xorLxor, Int.testBit_lxor]

theorem bitExtensional {left right : Int} (same : ∀ index, left.testBit index = right.testBit index) :
    left = right := by
  -- Far enough up, the bits of an integer repeat its sign.
  have signs : ∀ first second : Nat, ¬ ∀ index, first.testBit index = !second.testBit index := by
    intro first second opposite
    have beyond := opposite (first + second)
    have low : first < 2 ^ (first + second) :=
      first.lt_two_pow_self.trans_le (Nat.pow_le_pow_right (by decide) (Nat.le_add_right _ _))
    have high : second < 2 ^ (first + second) :=
      second.lt_two_pow_self.trans_le (Nat.pow_le_pow_right (by decide) (Nat.le_add_left _ _))
    rw [Nat.testBit_lt_two_pow low, Nat.testBit_lt_two_pow high] at beyond
    contradiction
  match left, right, same with
  | .ofNat first, .ofNat second, same => exact congrArg Int.ofNat (Nat.eq_of_testBit_eq same)
  | .ofNat first, .negSucc second, same => exact absurd same (signs first second)
  | .negSucc first, .ofNat second, same =>
    exact absurd (fun index => (same index).symm) (signs second first)
  | .negSucc first, .negSucc second, same =>
    exact congrArg Int.negSucc
      (Nat.eq_of_testBit_eq fun index => Bool.not_inj (same index))

theorem bitModulo (value : Int) (count index : Nat) :
    (value % 2 ^ count).testBit index = (decide (index < count) && value.testBit index) := by
  have inside (magnitude : Nat) : magnitude % 2 ^ count < 2 ^ count :=
    Nat.mod_lt _ (Nat.two_pow_pos count)
  cases value with
  | ofNat value =>
    have residue : Int.ofNat value % 2 ^ count = Int.ofNat (value % 2 ^ count) := by simp
    rw [residue]
    exact Nat.testBit_mod_two_pow value count index
  | negSucc value =>
    have residue :
        Int.negSucc value % 2 ^ count = Int.ofNat (2 ^ count - (value % 2 ^ count + 1)) := by
      have power : (2 : Int) ^ count = (2 ^ count : Nat) := by simp
      have bound := inside value
      rw [power, Int.negSucc_emod _ (Int.natCast_pos.mpr (Nat.two_pow_pos count)),
        ← Int.natCast_emod, Int.ofNat_eq_natCast]
      omega
    rw [residue]
    simp only [Int.testBit, Nat.testBit_two_pow_sub_succ (inside value), Nat.testBit_mod_two_pow]
    cases decide (index < count) <;> simp

theorem congruentBits {left right : Int} {count : Nat} :
    left ≡ right [ZMOD 2 ^ count] ↔ ∀ index < count, left.testBit index = right.testBit index := by
  constructor
  · intro congruent index below
    have same : (left % 2 ^ count).testBit index = (right % 2 ^ count).testBit index := by rw [congruent]
    simpa [bitModulo, below] using same
  · intro same
    refine bitExtensional fun index => ?_
    rw [bitModulo, bitModulo]
    by_cases below : index < count
    · rw [same index below]
    · simp [below]

theorem bitQuotient (value : Int) (count index : Nat) :
    (value / 2 ^ count).testBit index = value.testBit (index + count) := by
  have power : (2 : Int) ^ count = (2 ^ count : Nat) := by push_cast; rfl
  cases value with
  | ofNat value =>
    have quotient : Int.ofNat value / 2 ^ count = Int.ofNat (value / 2 ^ count) := by
      rw [power]
      rfl
    rw [quotient]
    exact Nat.testBit_div_two_pow value index
  | negSucc value =>
    have quotient : Int.negSucc value / 2 ^ count = Int.negSucc (value / 2 ^ count) := by
      rw [power, Int.negSucc_ediv _ (Int.natCast_pos.mpr (Nat.two_pow_pos count))]
      rfl
    rw [quotient]
    exact congrArg (! ·) (Nat.testBit_div_two_pow value index)

theorem bitOdd (value : Int) (index : Nat) :
    value.testBit index = true ↔ value / 2 ^ index % 2 = 1 := by
  have lowest (value : Int) : value.testBit 0 = true ↔ value % 2 = 1 := by
    cases value with
    | ofNat value => rw [Int.testBit, Nat.testBit_zero, decide_eq_true_eq, Int.ofNat_eq_natCast]; omega
    | negSucc value =>
      rw [Int.testBit, Nat.testBit_zero, Int.negSucc_eq, Bool.not_eq_true', decide_eq_false_iff_not]
      omega
  rw [← lowest, bitQuotient, Nat.zero_add]

@[simp] theorem bitZero (index : Nat) : Int.testBit 0 index = false := Nat.zero_testBit index

theorem multipleBits {value : Int} {count : Nat} :
    2 ^ count ∣ value ↔ ∀ index < count, value.testBit index = false := by
  rw [← Int.modEq_zero_iff_dvd, congruentBits]
  simp only [bitZero]

def ActsOnBits (combine : Bool → Bool → Bool) (result : Int → Int → Int) : Prop :=
  ∀ (left right : Int) (index : Nat),
    (result left right).testBit index = combine (left.testBit index) (right.testBit index)

theorem ActsOnBits.congruent {combine : Bool → Bool → Bool} {result : Int → Int → Int}
    (acts : ActsOnBits combine result) {left right otherLeft otherRight : Int} {count : Nat}
    (first : left ≡ otherLeft [ZMOD 2 ^ count]) (second : right ≡ otherRight [ZMOD 2 ^ count]) :
    result left right ≡ result otherLeft otherRight [ZMOD 2 ^ count] := by
  rw [congruentBits] at first second ⊢
  intro index below
  rw [acts, acts, first index below, second index below]

theorem leadingZerosLow {window left right : Nat}
    (same : ∀ index < window, left.testBit index = right.testBit index) :
    leadingZeros window left = leadingZeros window right := by
  induction window with
  | zero => rfl
  | succ window ih =>
    have below := ih fun index inside => same index (Nat.lt_succ_of_lt inside)
    simp only [leadingZeros, same window (Nat.lt_succ_self window), below]

theorem setBitsCount (window value : Nat) :
    setBits window value = ((List.range window).map value.testBit).count true := by
  induction window generalizing value with
  | zero => rfl
  | succ window ih =>
    have above : value.testBit ∘ Nat.succ = (value / 2).testBit := funext (Nat.testBit_succ value)
    rw [setBits, ih, List.range_succ_eq_map, List.map_cons, List.map_map, above, List.count_cons,
      Nat.testBit_zero, Nat.add_comm]
    rcases Nat.mod_two_eq_zero_or_one value with even | odd
    · simp [even]
    · simp [odd]

end Bitwise

namespace Width

def IsResidue (width : Width) (value : Int) : Prop := 0 ≤ value ∧ value < width.modulus
instance (width value) : Decidable (IsResidue width value) := by
  unfold IsResidue; infer_instance

theorem modulusPower (width : Width) : width.modulus = 2 ^ width.bits := by
  cases width <;> rfl

theorem residueEqual {width : Width} {value other : Int} :
    width.residue value = width.residue other ↔ value ≡ other [ZMOD width.modulus] := by
  rw [residueModulo, residueModulo, Int.ModEq]

theorem residueCongruent (width : Width) (value : Int) :
    width.residue value ≡ value [ZMOD width.modulus] := by
  rw [residueModulo]
  exact Int.mod_modEq value width.modulus

theorem modulusDivides {narrow wide : Width} (fits : narrow.bits ≤ wide.bits) :
    narrow.modulus ∣ wide.modulus := by
  rw [modulusPower, modulusPower]
  exact pow_dvd_pow 2 fits

theorem bitResidue (width : Width) (value : Int) (index : Nat) :
    (width.residue value).testBit index =
      (decide (index < width.bits) && value.testBit index) := by
  rw [residueModulo, modulusPower]
  exact Bitwise.bitModulo value width.bits index

theorem testBitResidue (width : Width) (value : Int) (index : Nat) :
    (width.residue value).toNat.testBit index =
      (decide (index < width.bits) && value.testBit index) := by
  rw [← bitResidue]
  obtain ⟨natural, same⟩ := Int.eq_ofNat_of_zero_le (width.residueRange value).1
  rw [same]
  rfl

theorem residueBits {width : Width} {value : Int} :
    width.IsResidue value ↔ ∀ index, width.bits ≤ index → value.testBit index = false := by
  constructor
  · intro range index beyond
    rw [← width.residueFixed range.1 range.2, bitResidue]
    simp [beyond]
  · intro clear
    have fixed : width.residue value = value := by
      refine Bitwise.bitExtensional fun index => ?_
      rw [bitResidue]
      rcases Nat.lt_or_ge index width.bits with below | beyond
      · simp [below]
      · simp [clear index beyond]
    exact fixed ▸ width.residueRange value

theorem actsResidue {width : Width} {combine : Bool → Bool → Bool} {result : Int → Int → Int}
    (acts : Bitwise.ActsOnBits combine result) (clear : combine false false = false)
    {left right : Int} (first : width.IsResidue left) (second : width.IsResidue right) :
    width.IsResidue (result left right) := by
  rw [residueBits] at first second ⊢
  intro index beyond
  rw [acts, first index beyond, second index beyond, clear]

theorem actsCongruent {width : Width} {combine : Bool → Bool → Bool} {result : Int → Int → Int}
    (acts : Bitwise.ActsOnBits combine result) {left right otherLeft otherRight : Int}
    (first : left ≡ otherLeft [ZMOD width.modulus])
    (second : right ≡ otherRight [ZMOD width.modulus]) :
    result left right ≡ result otherLeft otherRight [ZMOD width.modulus] := by
  rw [modulusPower] at first second ⊢
  exact acts.congruent first second

theorem bitMask (width : Width) (index : Nat) :
    width.mask.testBit index = decide (index < width.bits) := by
  have ones : width.mask = Int.ofNat (2 ^ width.bits - 1) := by cases width <;> rfl
  rw [ones]
  exact Nat.testBit_two_pow_sub_one width.bits index

theorem andMask (width : Width) (value : Int) :
    Bitwise.and value width.mask = width.residue value := by
  refine Bitwise.bitExtensional fun index => ?_
  rw [Bitwise.bitAnd, bitMask, bitResidue, Bool.and_comm]

def word (width : Width) (value : Int) : List Bool :=
  (List.range width.bits).map (Int.testBit value)

theorem wordLength (width : Width) (value : Int) : (width.word value).length = width.bits := by
  rw [word, List.length_map, List.length_range]

theorem wordInjective {width : Width} {left right : Int} (first : width.IsResidue left)
    (second : width.IsResidue right) (same : width.word left = width.word right) : left = right := by
  refine Bitwise.bitExtensional fun index => ?_
  rcases Nat.lt_or_ge index width.bits with below | beyond
  · exact List.map_inj_left.mp same index (List.mem_range.mpr below)
  · rw [residueBits.mp first index beyond, residueBits.mp second index beyond]

theorem popcntWord (width : Width) (value : Int) :
    width.popcnt value = (width.word value).count true := by
  have bits : (List.range width.bits).map (width.residue value).toNat.testBit = width.word value := by
    refine List.map_congr_left fun index below => ?_
    rw [testBitResidue, decide_eq_true (List.mem_range.mp below), Bool.true_and]
  rw [popcnt, Bitwise.setBitsCount, bits]

end Width
end StackMachine
