import StackMachine.Proofs.BitCounts

/-! The bit operations beside sums and counts. And, or and exclusive or join two integers place
by place, without end above. Where two pairs of integers have as many ones at every place, they
have the same sum, as each integer is its bits weighted by their powers modulo any power of
two, and they have the same count of ones within the width. The identities between
the three operations are then facts about two bits. -/
namespace StackMachine

namespace Bitwise

variable {left right other another : Int}

theorem bitValue (value : Int) (place : Nat) :
    ((value.testBit place).toNat : Int) = value / 2 ^ place % 2 := by
  have odd := bitOdd value place
  rcases Int.emod_two_eq (value / 2 ^ place) with even | one
  · have clear : value.testBit place = false := Bool.eq_false_iff.mpr fun holds => by
      have one := odd.mp holds
      omega
    rw [clear, even]
    rfl
  · rw [odd.mpr one, one]
    rfl

theorem moduloStep (value : Int) (count : Nat) :
    value % 2 ^ (count + 1) = value % 2 ^ count + value / 2 ^ count % 2 * 2 ^ count := by
  have positive : (0 : Int) ≤ 2 ^ count := (Int.pow_pos (by decide)).le
  rw [pow_succ, Int.emod_def, Int.emod_def value (2 ^ count), Int.emod_def (value / 2 ^ count),
    Int.ediv_ediv_of_nonneg positive]
  ring

theorem weightedBits (value : Int) (count : Nat) :
    value % 2 ^ count = ∑ place ∈ Finset.range count, ((value.testBit place).toNat : Int) * 2 ^ place := by
  induction count with
  | zero => rw [pow_zero, Int.emod_one, Finset.sum_range_zero]
  | succ count ih => rw [moduloStep, ih, Finset.sum_range_succ, bitValue value count]

def Balanced (left right other another : Int) : Prop := ∀ place,
  (left.testBit place).toNat + (right.testBit place).toNat =
    (other.testBit place).toNat + (another.testBit place).toNat

theorem Balanced.congruent (balanced : Balanced left right other another) (count : Nat) :
    left + right ≡ other + another [ZMOD 2 ^ count] := by
  have low (value : Int) : value % 2 ^ count ≡ value [ZMOD 2 ^ count] := Int.mod_modEq value _
  have same : left % 2 ^ count + right % 2 ^ count = other % 2 ^ count + another % 2 ^ count := by
    simp only [weightedBits, ← Finset.sum_add_distrib, ← add_mul]
    refine Finset.sum_congr rfl fun place _ => congrArg (· * 2 ^ place) ?_
    exact_mod_cast balanced place
  calc left + right
    _ ≡ left % 2 ^ count + right % 2 ^ count [ZMOD 2 ^ count] := ((low left).add (low right)).symm
    _ ≡ other % 2 ^ count + another % 2 ^ count [ZMOD 2 ^ count] := by rw [same]
    _ ≡ other + another [ZMOD 2 ^ count] := (low other).add (low another)

theorem Balanced.total (balanced : Balanced left right other another) :
    left + right = other + another :=
  bitExtensional fun index =>
    congruentBits.mp (balanced.congruent (index + 1)) index (Nat.lt_succ_self index)

theorem Balanced.counted (balanced : Balanced left right other another) (width : Width) :
    width.popcnt left + width.popcnt right = width.popcnt other + width.popcnt another := by
  simp only [Width.popcntSum]
  norm_cast
  simp only [← Finset.sum_add_distrib]
  exact Finset.sum_congr rfl fun place _ => balanced place

theorem andOrBalanced (left right : Int) : Balanced (and left right) (or left right) left right := by
  intro place
  rw [bitAnd, bitOr]
  cases left.testBit place <;> cases right.testBit place <;> rfl

theorem andXorBalanced (left right : Int) :
    Balanced (and left right) (xor left right) (or left right) 0 := by
  intro place
  rw [bitAnd, bitXor, bitOr, bitZero]
  cases left.testBit place <;> cases right.testBit place <;> rfl

theorem xorTwice (left right : Int) : xor (xor left right) right = left := by
  refine bitExtensional fun index => ?_
  rw [bitXor, bitXor, Bool.xor_assoc, Bool.xor_self, Bool.xor_false]

theorem xorComm (left right : Int) : xor left right = xor right left := by
  refine bitExtensional fun index => ?_
  rw [bitXor, bitXor, Bool.xor_comm]

end Bitwise

inductive Connective
  | and | or | xor

namespace Connective

def operation : Connective → Operation
  | and => .and
  | or => .or
  | xor => .xor

def combine : Connective → Bool → Bool → Bool
  | and => Bool.and
  | or => Bool.or
  | xor => Bool.xor

def result : Connective → Int → Int → Int
  | and => Bitwise.and
  | or => Bitwise.or
  | xor => Bitwise.xor

theorem acts (connective : Connective) :
    Bitwise.ActsOnBits connective.combine connective.result := by
  cases connective with
  | and => exact Bitwise.bitAnd
  | or => exact Bitwise.bitOr
  | xor => exact Bitwise.bitXor

theorem clear (connective : Connective) : connective.combine false false = false := by
  cases connective <;> rfl

theorem pushed (connective : Connective) (width : Width) (left right : Int) (rest : Stack) :
    width.apply connective.operation (.number left :: .number right :: rest) =
      .done (.number (connective.result left right) :: rest) := by
  cases connective <;> rfl

end Connective

theorem bitwiseExact (width : Width) (left right : Int) (rest : Stack) :
    let pushes (operation : Operation) (top second result : Int) : Prop :=
      width.apply operation (.number top :: .number second :: rest) = .done (.number result :: rest)
    (∀ value index, Int.testBit value index = true ↔ value / 2 ^ index % 2 = 1) ∧
    (∀ connective : Connective, ∃ result, pushes connective.operation left right result ∧
      (∀ index, Int.testBit result index =
        connective.combine (Int.testBit left index) (Int.testBit right index)) ∧
      (width.IsResidue left → width.IsResidue right → width.IsResidue result) ∧
      ∀ otherLeft otherRight, width.residue left = width.residue otherLeft →
        width.residue right = width.residue otherRight →
        ∃ other, pushes connective.operation otherLeft otherRight other ∧
          width.residue result = width.residue other) ∧
    ∃ conjunction disjunction exclusive, pushes .and left right conjunction ∧
      pushes .or left right disjunction ∧ pushes .xor left right exclusive ∧
      conjunction + disjunction = left + right ∧
      disjunction - conjunction = exclusive ∧
      pushes .xor exclusive right left ∧ pushes .xor right exclusive left ∧
      (∀ value, width.apply .popcnt (.number value :: rest) =
        .done (.number (width.popcnt value) :: rest)) ∧
      width.popcnt conjunction + width.popcnt disjunction =
        width.popcnt left + width.popcnt right := by
  intro pushes
  refine ⟨Bitwise.bitOdd, fun connective => ⟨connective.result left right,
    connective.pushed width left right rest, connective.acts left right,
    Width.actsResidue connective.acts connective.clear, ?_⟩, ?_⟩
  · intro otherLeft otherRight first second
    rw [Width.residueEqual] at first second
    exact ⟨_, connective.pushed width otherLeft otherRight rest,
      Width.residueEqual.mpr (Width.actsCongruent connective.acts first second)⟩
  have total := (Bitwise.andOrBalanced left right).total
  have carried := (Bitwise.andXorBalanced left right).total
  have restored := Bitwise.xorTwice left right
  refine ⟨_, _, _, rfl, rfl, rfl, total, by omega, ?_, ?_, fun _ => rfl,
    (Bitwise.andOrBalanced left right).counted width⟩
  · exact (Connective.xor.pushed width _ right rest).trans (by rw [Connective.result, restored])
  · rw [Bitwise.xorComm] at restored
    exact (Connective.xor.pushed width right _ rest).trans (by rw [Connective.result, restored])

theorem bitwiseExactMixedSigns :
    (∃ result, Width.i32.apply .and [.number 12, .number 10] = .done [.number result] ∧
      Width.i32.IsResidue result) ∧
    (∃ result other,
      Width.i32.apply .xor [.number (-6), .number 0x10000000F] = .done [.number result] ∧
      Width.i32.apply .xor [.number 0xFFFFFFFA, .number 0xF] = .done [.number other] ∧
      Width.i32.residue result = Width.i32.residue other) ∧
    ∃ conjunction disjunction,
      Width.i32.apply .and [.number (-6), .number 0x10000000F] = .done [.number conjunction] ∧
      Width.i32.apply .or [.number (-6), .number 0x10000000F] = .done [.number disjunction] ∧
      conjunction + disjunction = 0x100000009 ∧
      Width.i32.popcnt conjunction + Width.i32.popcnt disjunction = 34 := by
  obtain ⟨-, narrow, -⟩ := bitwiseExact .i32 12 10 []
  obtain ⟨low, joined, -, kept, -⟩ := narrow .and
  obtain ⟨-, wide, conjunction, disjunction, -, meets, covers, -, total, -, -, -, -, counted⟩ :=
    bitwiseExact .i32 (-6) 0x10000000F []
  obtain ⟨result, mixed, -, -, alike⟩ := wide .xor
  obtain ⟨other, plain, same⟩ := alike 0xFFFFFFFA 0xF (by decide) (by decide)
  exact ⟨⟨low, joined, kept (by decide) (by decide)⟩, ⟨result, other, mixed, plain, same⟩,
    conjunction, disjunction, meets, covers, total.trans rfl, counted.trans rfl⟩

end StackMachine
