import Mathlib.Algebra.Group.Nat.Defs
import StackMachine.Digest

/-! The written form of a program can be read in one way only. No separator stands
between instructions, so what is proved of one instruction is that its form ends where
it ends: no form is the beginning of another followed by other bytes. The statement
needs every immediate to have a length that four bytes can count. Nothing is claimed
about the hash beyond its being a function of the written form. -/
namespace StackMachine

namespace Bytes

theorem bigEndianModulo {count left right : Nat}
    (same : bigEndian count left = bigEndian count right) :
    left % 256 ^ count = right % 256 ^ count := by
  induction count with
  | zero => simp [Nat.mod_one]
  | succ count ih =>
    obtain ⟨first, rest⟩ := List.cons.inj same
    have digit := congrArg UInt8.toNat first
    simp only [UInt8.toNat_ofNat', Nat.shiftRight_eq_div_pow, Nat.pow_mul] at digit
    rw [Nat.pow_succ, Nat.mod_mul, Nat.mod_mul, ih rest]
    exact congrArg (fun next => right % 256 ^ count + 256 ^ count * next) digit

theorem bigEndianInjective {count left right : Nat} (leftFits : left < 256 ^ count)
    (rightFits : right < 256 ^ count) (same : bigEndian count left = bigEndian count right) :
    left = right := by
  have residues := bigEndianModulo same
  rwa [Nat.mod_eq_of_lt leftFits, Nat.mod_eq_of_lt rightFits] at residues

theorem bigEndianAppendInjective {count left right : Nat} {leftRest rightRest : List UInt8}
    (leftFits : left < 256 ^ count) (rightFits : right < 256 ^ count)
    (same : bigEndian count left ++ leftRest = bigEndian count right ++ rightRest) :
    left = right ∧ leftRest = rightRest := by
  have lengths : (bigEndian count left).length = (bigEndian count right).length := by
    rw [bigEndianLength, bigEndianLength]
  obtain ⟨fields, rests⟩ := List.append_inj same lengths
  exact ⟨bigEndianInjective leftFits rightFits fields, rests⟩

end Bytes

namespace TwosComplement

theorem countedAppendInjective {left right : Int} {leftRest rightRest : List UInt8}
    (leftFits : (bigEndian left).length < UInt32.size)
    (rightFits : (bigEndian right).length < UInt32.size)
    (same : Bytes.bigEndian 4 (bigEndian left).length ++ bigEndian left ++ leftRest =
      Bytes.bigEndian 4 (bigEndian right).length ++ bigEndian right ++ rightRest) :
    left = right ∧ leftRest = rightRest := by
  simp only [List.append_assoc] at same
  obtain ⟨lengths, bodies⟩ := Bytes.bigEndianAppendInjective leftFits rightFits same
  obtain ⟨values, rests⟩ := List.append_inj bodies lengths
  exact ⟨bigEndianInjective values, rests⟩

end TwosComplement

namespace Instruction

def Counted (instruction : Instruction) : Prop :=
  ∀ value, instruction.immediate = some value →
    (TwosComplement.bigEndian value).length < UInt32.size

theorem encodeNonempty (instruction : Instruction) : instruction.encode ≠ [] := by
  obtain ⟨operation, immediate⟩ := instruction
  cases immediate <;> simp [encode]

theorem encodeAppendInjective {left right : Instruction} {leftRest rightRest : List UInt8}
    (leftCounted : left.Counted) (rightCounted : right.Counted)
    (same : left.encode ++ leftRest = right.encode ++ rightRest) :
    left = right ∧ leftRest = rightRest := by
  obtain ⟨leftOperation, leftImmediate⟩ := left
  obtain ⟨rightOperation, rightImmediate⟩ := right
  -- The second byte tells whether an immediate follows, so mixed forms differ there.
  cases leftImmediate with
  | none =>
    cases rightImmediate with
    | none =>
      obtain ⟨tags, tail⟩ := List.cons.inj same
      obtain ⟨_, rests⟩ := List.cons.inj tail
      cases Operation.tagInjective tags
      exact ⟨rfl, rests⟩
    | some value =>
      obtain ⟨_, tail⟩ := List.cons.inj same
      exact absurd (List.cons.inj tail).1 (by decide)
  | some leftValue =>
    cases rightImmediate with
    | none =>
      obtain ⟨_, tail⟩ := List.cons.inj same
      exact absurd (List.cons.inj tail).1 (by decide)
    | some rightValue =>
      obtain ⟨tags, tail⟩ := List.cons.inj same
      obtain ⟨_, fields⟩ := List.cons.inj tail
      obtain ⟨rfl, rests⟩ := TwosComplement.countedAppendInjective
        (leftCounted leftValue rfl) (rightCounted rightValue rfl) fields
      cases Operation.tagInjective tags
      exact ⟨rfl, rests⟩

theorem encodeAllInjective {left right : List Instruction}
    (leftCounted : ∀ instruction ∈ left, instruction.Counted)
    (rightCounted : ∀ instruction ∈ right, instruction.Counted)
    (same : left.flatMap encode = right.flatMap encode) : left = right := by
  induction left generalizing right with
  | nil =>
    cases right with
    | nil => rfl
    | cons first rest => simp [encodeNonempty] at same
  | cons leftFirst leftRest ih =>
    cases right with
    | nil => simp [encodeNonempty] at same
    | cons rightFirst rightRest =>
      obtain ⟨leftHead, leftTail⟩ := List.forall_mem_cons.mp leftCounted
      obtain ⟨rightHead, rightTail⟩ := List.forall_mem_cons.mp rightCounted
      simp only [List.flatMap_cons] at same
      obtain ⟨rfl, rests⟩ := encodeAppendInjective leftHead rightHead same
      rw [ih leftTail rightTail rests]

end Instruction

namespace Width

theorem bitsInjective {left right : Width} (same : left.bits = right.bits) : left = right := by
  cases left <;> cases right <;> first | rfl | contradiction

theorem bitsFit (width : Width) : width.bits < 256 ^ 4 := by cases width <;> decide

end Width

namespace Blake3

/-- Two inputs that the hash confuses. That there are any is neither assumed nor denied. -/
def Collision (left right : List UInt8) : Prop := left ≠ right ∧ hash left = hash right

end Blake3

namespace Program

def Counted (program : Program) : Prop :=
  ∀ instruction ∈ program.instructions, instruction.Counted

theorem encodeInjective {left right : Program} (leftCounted : left.Counted)
    (rightCounted : right.Counted) (same : left.encode = right.encode) : left = right := by
  obtain ⟨leftWidth, leftInstructions⟩ := left
  obtain ⟨rightWidth, rightInstructions⟩ := right
  obtain ⟨bits, bodies⟩ :=
    Bytes.bigEndianAppendInjective leftWidth.bitsFit rightWidth.bitsFit same
  cases Width.bitsInjective bits
  exact congrArg (mk leftWidth) (Instruction.encodeAllInjective leftCounted rightCounted bodies)

theorem digestCollision {left right : Program} (leftCounted : left.Counted)
    (rightCounted : right.Counted) (different : left ≠ right) (same : left.digest = right.digest) :
    Blake3.Collision left.encode right.encode :=
  ⟨fun written => different (encodeInjective leftCounted rightCounted written), same⟩

theorem digestPreimageInjective {left right : Program} (leftCounted : left.Counted)
    (rightCounted : right.Counted) :
    (left.encode = right.encode ↔
      left.width = right.width ∧ left.instructions = right.instructions) ∧
    (left.width = right.width ∧ left.instructions = right.instructions →
      left.digest = right.digest) ∧
    (¬(left.width = right.width ∧ left.instructions = right.instructions) →
      left.digest = right.digest → Blake3.Collision left.encode right.encode) := by
  have parts : left = right ↔
      left.width = right.width ∧ left.instructions = right.instructions := by
    cases left; cases right; simp only [mk.injEq]
  rw [← parts]
  refine ⟨⟨encodeInjective leftCounted rightCounted, congrArg encode⟩, congrArg digest, ?_⟩
  exact digestCollision leftCounted rightCounted

theorem digestPreimageInjectiveSignBoundary :
    Counted ⟨.i32, [⟨.add, some 127⟩, .bare .const]⟩ ∧
    Counted ⟨.i32, [⟨.add, some 128⟩, .bare .const]⟩ ∧
    encode ⟨.i32, [⟨.add, some 127⟩, .bare .const]⟩ ≠
      encode ⟨.i32, [⟨.add, some 128⟩, .bare .const]⟩ := by
  have counted (value : Int) (fits : (TwosComplement.bigEndian value).length < UInt32.size) :
      Counted ⟨.i32, [⟨.add, some value⟩, .bare .const]⟩ := by
    simpa [Counted, Instruction.Counted, Instruction.bare] using fits
  have shorter := counted 127 (by
    simp [TwosComplement.bigEndian, TwosComplement.littleEndian, UInt32.size])
  have longer := counted 128 (by
    simp [TwosComplement.bigEndian, TwosComplement.littleEndian, UInt32.size])
  refine ⟨shorter, longer, fun same => ?_⟩
  have lists := ((digestPreimageInjective shorter longer).1.mp same).2
  exact absurd lists (by decide)

end Program
end StackMachine
