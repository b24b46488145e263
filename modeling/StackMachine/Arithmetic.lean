import StackMachine.Bitwise
import StackMachine.Value
import StackMachine.Violation

/-! Arithmetic and bit counts at one width. Operands come as the stack gives them,
top first, and the top is the left operand. Sums, differences and products keep the
sign of the exact result; unsigned division reads residues; signed division reads
`signed?` and refuses everything outside it. -/
namespace StackMachine.Width

def add (width : Width) (top second : Int) : Int := (top + second).tmod width.modulus

def sub (width : Width) (top second : Int) : Int :=
  (top - second + width.modulus).tmod width.modulus

def mul (width : Width) (top second : Int) : Int := (top * second).tmod width.modulus

def divU (width : Width) (top second : Int) : Value :=
  if width.residue second = 0 then .trap
  else .number (width.residue top / width.residue second)

def remainder (dividend divisor : Int) : Value :=
  if divisor = 0 then .trap
  else .number (dividend - divisor * (dividend / divisor))

def remU (width : Width) (top second : Int) : Value :=
  remainder (width.residue top) (width.residue second)

def signedOperands (width : Width) (top second : Int) : Except Violation (Int × Int) :=
  match width.signed? top with
  | none => .error (.signedRange top width)
  | some dividend =>
    match width.signed? second with
    | none => .error (.signedRange second width)
    | some divisor => .ok (dividend, divisor)

/-- A quotient equal to the largest signed number counts as an overflow. -/
def quotient (width : Width) (dividend divisor : Int) : Value :=
  if divisor = 0 then .trap
  else if dividend / divisor = width.signedMax then .trap
  else .number (dividend / divisor)

def divS (width : Width) (top second : Int) : Except Violation Value :=
  match width.signedOperands top second with
  | .error violation => .error violation
  | .ok operands => .ok (width.quotient operands.1 operands.2)

def remS (width : Width) (top second : Int) : Except Violation Value :=
  match width.signedOperands top second with
  | .error violation => .error violation
  | .ok operands => .ok (remainder operands.1 operands.2)

/-- Counted in the low thirty-two bits at either width. -/
def clz (width : Width) (value : Int) : Int :=
  Bitwise.leadingZeros 32 (width.residue value).toNat

def ctz (width : Width) (value : Int) : Int :=
  Bitwise.trailingZeros width.bits (width.residue value).toNat

def popcnt (width : Width) (value : Int) : Int :=
  Bitwise.setBits width.bits (width.residue value).toNat

theorem remainderModulo (dividend divisor : Int) :
    remainder dividend divisor = if divisor = 0 then .trap else .number (dividend % divisor) := by
  rw [remainder, ← Int.emod_def]

theorem remainderTrapped {dividend divisor : Int} :
    remainder dividend divisor = .trap ↔ divisor = 0 := by
  unfold remainder
  split <;> simp [*]

theorem signedOperandsOk (width : Width) {top second dividend divisor : Int} :
    width.signedOperands top second = .ok (dividend, divisor) ↔
      width.signed? top = some dividend ∧ width.signed? second = some divisor := by
  unfold signedOperands
  cases width.signed? top <;> cases width.signed? second <;> simp

theorem signedOperandsError (width : Width) {top second : Int} {violation : Violation}
    (failed : width.signedOperands top second = .error violation) :
    violation = .signedRange top width ∧ width.signed? top = none ∨
      violation = .signedRange second width ∧ width.signed? second = none := by
  unfold signedOperands at failed
  cases left : width.signed? top <;> cases right : width.signed? second <;>
    simp [left, right] at failed <;> simp [failed.symm]

end StackMachine.Width
