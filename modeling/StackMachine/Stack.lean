import StackMachine.Value

/-! The operand stack, top first. It has no bound on its depth, and nothing about
it depends on a width. -/
namespace StackMachine

abbrev Stack := List Value

namespace Stack

def empty : Stack := []

def ofBottomFirst (values : List Value) : Stack := values.reverse
def bottomFirst (stack : Stack) : List Value := stack.reverse

def depth (stack : Stack) : Nat := stack.length
def isEmpty (stack : Stack) : Bool := List.isEmpty stack
def top? (stack : Stack) : Option Value := stack.head?

def push (stack : Stack) (value : Value) : Stack := value :: stack
def pushNumber (stack : Stack) (value : Int) : Stack := stack.push (.number value)

def pop : Stack → Option Value × Stack
  | [] => (none, [])
  | value :: rest => (some value, rest)

def trapCount (stack : Stack) : Nat := stack.countP Value.isTrap

theorem bottomFirstOf (values : List Value) : (ofBottomFirst values).bottomFirst = values :=
  List.reverse_reverse values

theorem ofBottomFirstOf (stack : Stack) : ofBottomFirst stack.bottomFirst = stack :=
  List.reverse_reverse stack

end Stack
end StackMachine
