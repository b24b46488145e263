import StackMachine.Operation
import StackMachine.Width

/-! Instructions and programs. Any operation may be written with an immediate; whether
it takes one is found out when it runs. A program is the list of its instructions
together with the width they are read at. -/
namespace StackMachine

structure Instruction where
  operation : Operation
  immediate : Option Int
  deriving DecidableEq, Repr

namespace Instruction

def bare (operation : Operation) : Instruction := ⟨operation, none⟩
def constant (value : Int) : Instruction := ⟨.const, some value⟩

end Instruction

structure Program where
  width : Width
  instructions : List Instruction
  deriving DecidableEq, Repr

namespace Program

def length (program : Program) : Nat := program.instructions.length
def isEmpty (program : Program) : Bool := program.instructions.isEmpty

end Program
end StackMachine
