import StackMachine.Digest
import StackMachine.Event
import StackMachine.Names
import StackMachine.Step

/-! Running a program over a stack. The first refusal ends the program and keeps the
stack as the refused instruction left it; the next program starts from there. `run`
follows the stack alone, `execute` writes the log beside it. Calls made one by one go on
after a refusal, and `performEach` keeps the outcome of each. -/
namespace StackMachine

structure Failure where
  index : Nat
  operation : Operation
  violation : Violation
  deriving DecidableEq, Repr

namespace Failure

def message (width : Width) (failure : Failure) : String :=
  s!"instruction {failure.index} ({width.qualifiedName failure.operation}): {failure.violation.message}"

end Failure

structure Run where
  stack : Stack
  failure : Option Failure
  deriving DecidableEq, Repr

def run (width : Width) (index : Nat) : List Instruction → Stack → Run
  | [], stack => ⟨stack, none⟩
  | instruction :: rest, stack =>
    let outcome := instruction.run width stack
    match outcome.violation with
    | none => run width (index + 1) rest outcome.stack
    | some violation => ⟨outcome.stack, some ⟨index, instruction.operation, violation⟩⟩

inductive Call where
  | run (instruction : Instruction)
  | apply (operation : Operation)
  deriving DecidableEq, Repr

def Call.perform (width : Width) : Call → Stack → Outcome
  | run instruction, stack => instruction.run width stack
  | apply operation, stack => width.apply operation stack

def performEach (width : Width) : List Call → Stack → List Outcome
  | [], _ => []
  | call :: rest, stack =>
    let outcome := call.perform width stack
    outcome :: performEach width rest outcome.stack

def runEach (width : Width) (instructions : List Instruction) (stack : Stack) : List Outcome :=
  performEach width (instructions.map .run) stack

/-- After a success of an operation that may trap, a trap on top is the one it pushed. -/
def trapNotices (index : Nat) (operation : Operation) (stack : Stack) : List Event :=
  if operation.canTrap ∧ stack.top? = some .trap then [.arithmeticTrap index operation] else []

structure Execution where
  stack : Stack
  failure : Option Failure
  events : List Event
  deriving DecidableEq, Repr

def executeFrom (width : Width) (index : Nat) : List Instruction → Stack → Execution
  | [], stack => ⟨stack, none, [.finished width stack.depth]⟩
  | instruction :: rest, stack =>
    let operation := instruction.operation
    let effect := instruction.effect width stack
    let outcome := effect.outcome
    let opening := .step index operation stack.depth :: effect.notices
    match outcome.violation with
    | some violation =>
      ⟨outcome.stack, some ⟨index, operation, violation⟩,
        opening ++ [.violated index operation violation]⟩
    | none =>
      let tail := executeFrom width (index + 1) rest outcome.stack
      ⟨tail.stack, tail.failure, opening ++ trapNotices index operation outcome.stack ++ tail.events⟩

namespace Program

def started (program : Program) : Event :=
  .started program.width program.length program.digestText

def execute (program : Program) (stack : Stack) : Execution :=
  let body := executeFrom program.width 0 program.instructions stack
  { body with events := program.started :: body.events }

/-- One program after another on one stack, whether or not the earlier ones failed. -/
def executeAll : List Program → Stack → List Execution
  | [], _ => []
  | program :: rest, stack =>
    let execution := program.execute stack
    execution :: executeAll rest execution.stack

end Program

namespace Execution

def run (execution : Execution) : Run := ⟨execution.stack, execution.failure⟩

def finalStack (executions : List Execution) (start : Stack) : Stack :=
  (executions.map stack).getLastD start

end Execution

section Step

variable {width : Width} {index : Nat} {instruction : Instruction} {stack : Stack}

theorem executeFromDone (rest : List Instruction)
    (done : (instruction.run width stack).violation = none) :
    let outcome := instruction.run width stack
    let tail := executeFrom width (index + 1) rest outcome.stack
    executeFrom width index (instruction :: rest) stack =
      ⟨tail.stack, tail.failure,
        .step index instruction.operation stack.depth :: (instruction.notices width stack ++
          trapNotices index instruction.operation outcome.stack) ++ tail.events⟩ := by
  have goesOn : (instruction.effect width stack).outcome.violation = none := done
  simp only [executeFrom, goesOn]
  rfl

theorem executeFromRefused (rest : List Instruction) {violation : Violation}
    (refused : (instruction.run width stack).violation = some violation) :
    executeFrom width index (instruction :: rest) stack =
      ⟨(instruction.run width stack).stack, some ⟨index, instruction.operation, violation⟩,
        .step index instruction.operation stack.depth :: instruction.notices width stack ++
          [.violated index instruction.operation violation]⟩ := by
  have stops : (instruction.effect width stack).outcome.violation = some violation := refused
  simp only [executeFrom, stops]
  rfl

end Step

theorem executeFromRun (width : Width) (index : Nat) (instructions : List Instruction)
    (stack : Stack) :
    (executeFrom width index instructions stack).run = run width index instructions stack := by
  induction instructions generalizing index stack with
  | nil => rfl
  | cons instruction rest ih =>
    rw [run]
    cases refused : (instruction.run width stack).violation with
    | none =>
      rw [executeFromDone rest refused]
      exact ih (index + 1) _
    | some violation =>
      rw [executeFromRefused rest refused]
      rfl

theorem executeRun (program : Program) (stack : Stack) :
    (program.execute stack).run = run program.width 0 program.instructions stack :=
  executeFromRun program.width 0 program.instructions stack

theorem executeStack (program : Program) (stack : Stack) :
    (program.execute stack).stack = (run program.width 0 program.instructions stack).stack :=
  congrArg Run.stack (executeRun program stack)

theorem executeFailure (program : Program) (stack : Stack) :
    (program.execute stack).failure = (run program.width 0 program.instructions stack).failure :=
  congrArg Run.failure (executeRun program stack)

end StackMachine
