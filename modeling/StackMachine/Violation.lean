import StackMachine.Operation
import StackMachine.Width

/-! What an instruction or a name can do wrong, one constructor a cause. The wording
is in `message` alone. -/
namespace StackMachine

inductive Violation where
  | stackUnderflow (operation : Operation) (needed depth : Nat)
  | trapOperand (operation : Operation)
  | signedRange (value : Int) (width : Width)
  | shiftRange (amount : Int)
  | missingImmediate
  | unexpectedImmediate (operation : Operation)
  | unknownOperation (name : String)
  | widthMismatch (expected : Width) (found : String)
  deriving DecidableEq, Repr

namespace Violation

def message : Violation → String
  | stackUnderflow operation needed depth =>
      s!"stack underflow: {operation.name} needs {needed} operand(s), stack holds {depth}"
  | trapOperand operation => s!"{operation.name} received a trap as an operand"
  | signedRange value width =>
      s!"value {value} is out of range for {width.bits}-bit signed interpretation"
  | shiftRange amount => s!"shift amount {amount} is out of range"
  | missingImmediate => s!"{Operation.const.name} requires an immediate operand"
  | unexpectedImmediate operation => s!"{operation.name} does not take an immediate operand"
  | unknownOperation name => s!"unknown operation: {name}"
  | widthMismatch expected found =>
      s!"width mismatch: expected {expected.name} operation, found {found}"

end Violation
end StackMachine
