/-! Values on the stack: an unbounded integer, or the trap that a division without
an answer leaves in its place. A trap is data until an operation tries to read it. -/
namespace StackMachine

inductive Value where
  | number (value : Int)
  | trap
  deriving DecidableEq, Repr

namespace Value

def isTrap : Value → Bool
  | number _ => false
  | trap => true

def number? : Value → Option Int
  | number value => some value
  | trap => none

def ofInt (value : Int) : Value := number value
def ofInt32 (value : Int32) : Value := number value.toInt
def ofInt64 (value : Int64) : Value := number value.toInt
def ofUInt64 (value : UInt64) : Value := number value.toNat

def ofBool (truth : Bool) : Value := number (if truth then 1 else 0)

def text : Value → String
  | number value => toString value
  | trap => "trap"

end Value
end StackMachine
