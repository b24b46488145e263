import StackMachine.Stack
import StackMachine.Violation

/-! The log of an execution. An event holds what it reports; its level, its wording
and its fields are functions of it. Every field is text, a number in decimal. -/
namespace StackMachine

inductive Level where
  | trace
  | debug
  | warn
  deriving DecidableEq, Repr

namespace Level

def name : Level → String
  | trace => "TRACE"
  | debug => "DEBUG"
  | warn => "WARN"

end Level

inductive Event where
  | started (width : Width) (instructions : Nat) (digest : String)
  | step (index : Nat) (operation : Operation) (depth : Nat)
  | largeLeftShift (amount : Int)
  | arithmeticTrap (index : Nat) (operation : Operation)
  | violated (index : Nat) (operation : Operation) (violation : Violation)
  | finished (width : Width) (depth : Nat)
  deriving DecidableEq, Repr

namespace Event

def level : Event → Level
  | started .. | largeLeftShift .. | arithmeticTrap .. | finished .. => .debug
  | step .. => .trace
  | violated .. => .warn

def message : Event → String
  | started .. => "executing program"
  | step .. => "step"
  | largeLeftShift .. => "large left shift"
  | arithmeticTrap .. => "arithmetic trap"
  | violated .. => "contract violation, aborting program"
  | finished .. => "program finished"

def fields : Event → List (String × String)
  | started width instructions digest =>
      [("width", width.name), ("instructions", toString instructions), ("digest", digest)]
  | step index operation depth =>
      [("idx", toString index), ("op", operation.name), ("depth", toString depth)]
  | largeLeftShift amount => [("amount", toString amount)]
  | arithmeticTrap index operation => [("idx", toString index), ("op", operation.name)]
  | violated index operation violation =>
      [("idx", toString index), ("op", operation.name), ("violation", violation.message)]
  | finished width depth => [("width", width.name), ("depth", toString depth)]

def isArithmeticTrap : Event → Bool
  | arithmeticTrap .. => true
  | _ => false

end Event
end StackMachine
