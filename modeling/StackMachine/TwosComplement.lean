import StackMachine.Bytes

/-! The shortest two's complement bytes of an unbounded integer. One byte holds the
integers from -128 to 127, and zero still takes that byte. Reading back is defined
on all byte lists; writing is its shortest inverse. -/
namespace StackMachine.TwosComplement

def lowByte (value : Int) : UInt8 := UInt8.ofNat (value % 256).toNat

def littleEndian (value : Int) : List UInt8 :=
  if -128 ≤ value ∧ value < 128 then [lowByte value]
  else lowByte value :: littleEndian (value / 256)
termination_by value.natAbs
decreasing_by omega

def bigEndian (value : Int) : List UInt8 := (littleEndian value).reverse

def readLittleEndian : List UInt8 → Int
  | [] => 0
  | [last] => if last.toNat < 128 then last.toNat else last.toNat - 256
  | byte :: rest => byte.toNat + 256 * readLittleEndian rest

def readBigEndian (bytes : List UInt8) : Int := readLittleEndian bytes.reverse

theorem lowByteValue (value : Int) : ((lowByte value).toNat : Int) = value % 256 := by
  have low := Int.emod_nonneg value (by decide : (256 : Int) ≠ 0)
  have high := Int.emod_lt_of_pos value (by decide : (0 : Int) < 256)
  simp only [lowByte, UInt8.toNat_ofNat']
  omega

theorem littleEndianNonempty (value : Int) : littleEndian value ≠ [] := by
  unfold littleEndian
  split <;> simp

theorem readLittleEndianWritten (value : Int) : readLittleEndian (littleEndian value) = value := by
  fun_induction littleEndian value with
  | case1 value small =>
    have byte := lowByteValue value
    simp only [readLittleEndian]
    split <;> omega
  | case2 value large ih =>
    have byte := lowByteValue value
    cases tail : littleEndian (value / 256) with
    | nil => exact absurd tail (littleEndianNonempty _)
    | cons next rest =>
      rw [tail] at ih
      simp only [readLittleEndian, ih, byte]
      omega

theorem readBigEndianWritten (value : Int) : readBigEndian (bigEndian value) = value := by
  simp only [readBigEndian, bigEndian, List.reverse_reverse, readLittleEndianWritten]

theorem bigEndianInjective {left right : Int} (same : bigEndian left = bigEndian right) :
    left = right := by
  rw [← readBigEndianWritten left, same, readBigEndianWritten]

theorem littleEndianShortest {bytes : List UInt8} (nonempty : bytes ≠ []) :
    (littleEndian (readLittleEndian bytes)).length ≤ bytes.length := by
  induction bytes with
  | nil => contradiction
  | cons byte rest ih =>
    have bound := byte.toNat_lt
    unfold littleEndian
    cases rest with
    | nil =>
      have small : -128 ≤ readLittleEndian [byte] ∧ readLittleEndian [byte] < 128 := by
        simp only [readLittleEndian]
        split <;> omega
      rw [if_pos small]
      exact Nat.le_refl 1
    | cons next rest =>
      have tail : readLittleEndian (byte :: next :: rest) / 256 = readLittleEndian (next :: rest) := by
        simp only [readLittleEndian]
        omega
      rw [tail]
      split
      · simp
      · exact Nat.succ_le_succ (ih (List.cons_ne_nil next rest))

theorem bigEndianShortest {bytes : List UInt8} {value : Int} (nonempty : bytes ≠ [])
    (read : readBigEndian bytes = value) : (bigEndian value).length ≤ bytes.length := by
  have shortest := littleEndianShortest (fun empty => nonempty (List.reverse_eq_nil_iff.mp empty))
  simp only [List.length_reverse] at shortest
  simpa only [bigEndian, List.length_reverse, ← read, readBigEndian] using shortest

end StackMachine.TwosComplement
