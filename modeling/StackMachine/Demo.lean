import StackMachine.Execution

/-! Two fixed programs, each run on a stack of its own, and what is printed of them. -/
namespace StackMachine.Demo

def product : Program :=
  ⟨.i32, [.constant 1, .constant 2, .bare .add, .constant 3, .bare .mul]⟩

def division : Program :=
  ⟨.i64, [.constant 7, .constant 6, .bare .mul, .constant 0, .constant 44, .bare .divU]⟩

def line (width : Width) (stack : Stack) : String :=
  let values := " ".intercalate (stack.bottomFirst.map Value.text)
  s!"{width.name}: [{values}]\n"

structure Transcript where
  status : Nat
  output : String
  deriving DecidableEq, Repr

def transcript : List Program → Transcript
  | [] => ⟨0, ""⟩
  | program :: rest =>
    let execution := program.execute .empty
    match execution.failure with
    | some _ => ⟨1, ""⟩
    | none =>
      let tail := transcript rest
      ⟨tail.status, line program.width execution.stack ++ tail.output⟩

def session : Transcript := transcript [product, division]

end StackMachine.Demo
