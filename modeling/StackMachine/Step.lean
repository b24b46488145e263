import StackMachine.Arithmetic
import StackMachine.Event
import StackMachine.Program
import StackMachine.Shift

/-! One instruction on one stack. The operation table has a row for each operation: the
name its refusals bear, what it computes from its operands, top first, and what it
reports once it has them. Taking the operands off the stack is the same for every row and
is done once, in `Entry.effect`. A refusal that comes before the operands are read leaves
the stack alone; one that comes after has already taken them. -/
namespace StackMachine

inductive Action where
  | immediate
  | unary (result : Int → Int)
  | binary (result : Int → Int → Except Violation Value)

namespace Action

def arity : Action → Nat
  | immediate => 0
  | unary _ => 1
  | binary _ => 2

def number (result : Int → Int → Int) : Action :=
  binary fun top second => .ok (.number (result top second))

def truth (result : Int → Int → Bool) : Action :=
  binary fun top second => .ok (.ofBool (result top second))

def shift (result : Int → Int → Except Violation Int) : Action :=
  binary fun amount value => (result value amount).map .number

end Action

structure Outcome where
  stack : Stack
  violation : Option Violation
  deriving DecidableEq, Repr

namespace Outcome

def done (stack : Stack) : Outcome := ⟨stack, none⟩
def refused (stack : Stack) (violation : Violation) : Outcome := ⟨stack, some violation⟩

def ofAnswer (rest : Stack) : Except Violation Value → Outcome
  | .ok value => done (value :: rest)
  | .error violation => refused rest violation

end Outcome

structure Effect where
  outcome : Outcome
  notices : List Event
  deriving DecidableEq, Repr

structure Entry where
  named : Operation
  action : Action
  notices : List Int → List Event

namespace Entry

def silent (named : Operation) (action : Action) : Entry := ⟨named, action, fun _ => []⟩

/-- Too few values outweigh a trap among them, and a trap outweighs what the row itself
would say. It reports as soon as its operands are numbers, whatever comes of them. -/
def effect (entry : Entry) (stack : Stack) : Effect :=
  match entry.action, stack with
  | .immediate, _ => ⟨.refused stack .missingImmediate, []⟩
  | .unary result, .number value :: rest =>
    ⟨.done (.number (result value) :: rest), entry.notices [value]⟩
  | .unary _, .trap :: _ => ⟨.refused stack (.trapOperand entry.named), []⟩
  | .unary _, [] => ⟨.refused stack (.stackUnderflow entry.named 1 stack.depth), []⟩
  | .binary result, .number top :: .number second :: rest =>
    ⟨.ofAnswer rest (result top second), entry.notices [top, second]⟩
  | .binary _, _ :: _ :: _ => ⟨.refused stack (.trapOperand entry.named), []⟩
  | .binary _, _ => ⟨.refused stack (.stackUnderflow entry.named 2 stack.depth), []⟩

end Entry

def largeShift : Int := 65536

def noticeShift : List Int → List Event
  | amount :: _ => if largeShift < amount then [.largeLeftShift amount] else []
  | [] => []

namespace Operation

/-- Comparisons and shifts read the top as their right operand, arithmetic as its left
one. The `U` comparisons compare residues, all others the integers themselves. -/
def entry (width : Width) : Operation → Entry
  | const => .silent const .immediate
  | add => .silent add (.number width.add)
  | sub => .silent sub (.number width.sub)
  | mul => .silent mul (.number width.mul)
  | divU => .silent divU (.binary fun top second => .ok (width.divU top second))
  | divS => .silent divS (.binary width.divS)
  | remU => .silent remU (.binary fun top second => .ok (width.remU top second))
  | remS => .silent remS (.binary width.remS)
  | and => .silent and (.number Bitwise.and)
  | or => .silent or (.number Bitwise.or)
  | xor => .silent xor (.number Bitwise.xor)
  | shl => ⟨shl, .shift Shift.left, noticeShift⟩
  | shrU => .silent shrU (.shift width.shrU)
  | shrS => .silent shrS (.shift Shift.right)
  | rotl => .silent rotl (.shift width.rotl)
  | rotr => .silent rotr (.shift width.rotr)
  | clz => .silent clz (.unary width.clz)
  | ctz => .silent ctz (.unary width.ctz)
  | popcnt => .silent popcnt (.unary width.popcnt)
  | eqz => .silent eqz (.unary fun value => if value = 0 then 1 else 0)
  | eq => .silent eq (.truth fun top second => top = second)
  | ne => .silent ne (.truth fun top second => top ≠ second)
  | ltU => .silent ltU (.truth fun top second => width.residue second < width.residue top)
  | ltS => .silent ltS (.truth fun top second => second < top)
  | gtU => .silent gtU (.truth fun top second => width.residue second > width.residue top)
  | gtS => .silent gtS (.truth fun top second => second > top)
  | leU => .silent leU (.truth fun top second => width.residue second ≤ width.residue top)
  | leS => .silent leS (.truth fun top second => second ≤ top)
  | geU => .silent geU (.truth fun top second => width.residue second ≥ width.residue top)
  | geS => .silent geS (.truth fun top second => second ≥ top)

def action (width : Width) (operation : Operation) : Action := (operation.entry width).action

theorem entryNamed (operation : Operation) (width : Width) :
    (operation.entry width).named = operation := by
  cases operation <;> rfl

theorem actionArity (operation : Operation) (width : Width) :
    (operation.action width).arity = operation.arity := by
  cases operation <;> rfl

theorem entrySilent (operation : Operation) (other : operation ≠ shl) (width : Width)
    (operands : List Int) : (operation.entry width).notices operands = [] := by
  cases operation <;> first | rfl | contradiction

end Operation

def Width.apply (width : Width) (operation : Operation) (stack : Stack) : Outcome :=
  ((operation.entry width).effect stack).outcome

namespace Instruction

def effect (width : Width) (instruction : Instruction) (stack : Stack) : Effect :=
  match instruction with
  | ⟨operation, none⟩ => (operation.entry width).effect stack
  | ⟨.const, some value⟩ => ⟨.done (stack.pushNumber value), []⟩
  | ⟨operation, some _⟩ => ⟨.refused stack (.unexpectedImmediate operation), []⟩

def run (width : Width) (instruction : Instruction) (stack : Stack) : Outcome :=
  (instruction.effect width stack).outcome

def notices (width : Width) (instruction : Instruction) (stack : Stack) : List Event :=
  (instruction.effect width stack).notices

theorem effectBare (width : Width) (operation : Operation) (stack : Stack) :
    (bare operation).effect width stack = (operation.entry width).effect stack := by
  cases operation <;> rfl

theorem runBare (width : Width) (operation : Operation) (stack : Stack) :
    (bare operation).run width stack = width.apply operation stack :=
  congrArg Effect.outcome (effectBare width operation stack)

theorem runConstant (width : Width) (value : Int) (stack : Stack) :
    (constant value).run width stack = .done (.number value :: stack) := rfl

end Instruction
end StackMachine
