import StackMachine.Proofs.Splitting
import StackMachine.Proofs.Transition

/-! Values far enough down a stack take no part in a run. A stack is written with its top
first, so `stack ++ base` is the stack with `base` put underneath. Only an underflow can
tell the two apart, since it reports a depth and may turn into something else where
there is more to take; whatever came before it is the same on both. -/
namespace StackMachine

def Violation.isUnderflow : Violation → Bool
  | stackUnderflow .. => true
  | _ => false

def Failure.isUnderflow (failure : Failure) : Bool := failure.violation.isUnderflow

def Outcome.over (outcome : Outcome) (base : Stack) : Outcome :=
  { outcome with stack := outcome.stack ++ base }

def Run.over (run : Run) (base : Stack) : Run := { run with stack := run.stack ++ base }

def Program.take (program : Program) (count : Nat) : Program :=
  { program with instructions := program.instructions.take count }

def Program.drop (program : Program) (count : Nat) : Program :=
  { program with instructions := program.instructions.drop count }

def Execution.chain (width : Width) (execution : Execution) : Option String :=
  execution.failure.map (Failure.message width)

theorem Transition.over {width : Width} {instruction : Instruction} {stack : Stack}
    {outcome : Outcome} (transition : Transition width instruction stack outcome)
    (deep : outcome.violation.any Violation.isUnderflow = false) (base : Stack) :
    Transition width instruction (stack ++ base) (outcome.over base) := by
  cases transition with
  | pushed value => exact .pushed value (stack ++ base)
  | unexpected other value => exact .unexpected other value (stack ++ base)
  | missing => exact .missing (stack ++ base)
  | underflow short => contradiction
  | @trapped operation _ enough trap =>
    have within : (stack ++ base).take operation.arity = stack.take operation.arity :=
      List.take_append_of_le_length enough
    have deeper : stack.depth ≤ Stack.depth (stack ++ base) :=
      (List.sublist_append_left stack base).length_le
    exact .trapped (Nat.le_trans enough deeper) (within ▸ trap)
  | answered given rest =>
    rw [List.append_assoc]
    exact .answered given (rest ++ base)
  | rejected given rest =>
    rw [List.append_assoc]
    exact .rejected given (rest ++ base)

theorem Instruction.runOver {width : Width} {instruction : Instruction} {stack : Stack}
    (deep : (instruction.run width stack).violation.any Violation.isUnderflow = false)
    (base : Stack) :
    instruction.run width (stack ++ base) = (instruction.run width stack).over base :=
  ((Transition.ofRun width instruction stack).over deep base).toRun

theorem runOver {width : Width} {index : Nat} {instructions : List Instruction} {stack : Stack}
    (deep : (run width index instructions stack).failure.any Failure.isUnderflow = false)
    (base : Stack) :
    run width index instructions (stack ++ base) =
      (run width index instructions stack).over base := by
  induction instructions generalizing index stack with
  | nil => rfl
  | cons instruction rest ih =>
    simp only [run] at deep ⊢
    cases refused : (instruction.run width stack).violation with
    | none =>
      have first := instruction.runOver (by rw [refused]; rfl) base
      simp only [refused] at deep ⊢
      simp only [first, Outcome.over, refused]
      exact ih deep
    | some violation =>
      simp only [refused] at deep ⊢
      have first := instruction.runOver (by rw [refused]; exact deep) base
      simp only [first, Outcome.over, refused, Run.over]

theorem runTakeOver {width : Width} {instructions : List Instruction} {stack : Stack}
    {failure : Failure} (failed : (run width 0 instructions stack).failure = some failure)
    (base : Stack) :
    run width 0 (instructions.take failure.index) (stack ++ base) =
      ⟨(run width 0 (instructions.take failure.index) stack).stack ++ base, none⟩ := by
  have opening := (runTakeFailed failed).2
  rw [runOver (by rw [opening]; rfl), Run.over, opening]

theorem runDropOver {width : Width} {instructions : List Instruction} {stack : Stack}
    {failure : Failure} (failed : (run width 0 instructions stack).failure = some failure)
    (base : Stack) :
    run width 0 instructions (stack ++ base) =
      (run width 0 (instructions.drop failure.index)
        ((run width 0 (instructions.take failure.index) stack).stack ++ base)).later
          failure.index := by
  have opening := runTakeOver failed base
  have resumed := runSplitAt (Nat.le_of_lt (runTakeFailed failed).1) (congrArg Run.failure opening)
  rwa [opening] at resumed

theorem stackExtension (program : Program) (stack base : Stack) :
    ((program.execute stack).failure.any Failure.isUnderflow = false →
      (program.execute (stack ++ base)).run = (program.execute stack).run.over base ∧
      (program.execute (stack ++ base)).chain program.width =
        (program.execute stack).chain program.width) ∧
    ∀ failure, (program.execute stack).failure = some failure → failure.isUnderflow = true →
      let opening := (program.take failure.index).execute stack
      let rest := program.drop failure.index
      failure.index < program.length ∧ opening.failure = none ∧
      (program.execute stack).run = (rest.execute opening.stack).run.later failure.index ∧
      ((program.take failure.index).execute (stack ++ base)).run = ⟨opening.stack ++ base, none⟩ ∧
      (program.execute (stack ++ base)).run =
        (rest.execute (opening.stack ++ base)).run.later failure.index := by
  refine ⟨fun deep => ?_, fun failure failed _ => ?_⟩
  · rw [executeFailure] at deep
    have whole : (program.execute (stack ++ base)).run = (program.execute stack).run.over base := by
      rw [executeRun, executeRun]
      exact runOver deep base
    have same : (program.execute (stack ++ base)).failure = (program.execute stack).failure :=
      congrArg Run.failure whole
    exact ⟨whole, congrArg (Option.map (Failure.message program.width)) same⟩
  · rw [executeFailure] at failed
    obtain ⟨inside, opening⟩ := runTakeFailed failed
    simp only [executeRun, executeFailure, executeStack]
    exact ⟨inside, opening, runSplitAt (Nat.le_of_lt inside) opening, runTakeOver failed base,
      runDropOver failed base⟩

theorem stackExtensionUnderSum :
    (Program.execute ⟨.i32, [.constant 7, .bare .add]⟩ ([.number 5] ++ [.trap])).run =
      ⟨[.number 12, .trap], none⟩ ∧
    (Program.execute ⟨.i32, [.constant 7, .bare .add, .bare .add]⟩ ([.number 5] ++ [.trap])).run =
      ⟨[.number 12, .trap], some ⟨2, .add, .trapOperand .add⟩⟩ := by
  have deep : (Program.execute ⟨.i32, [.constant 7, .bare .add]⟩
      [.number 5]).failure.any Failure.isUnderflow = false := by rfl
  have failed : (Program.execute ⟨.i32, [.constant 7, .bare .add, .bare .add]⟩
      [.number 5]).failure = some ⟨2, .add, .stackUnderflow .add 2 1⟩ := by rfl
  refine ⟨?_, ?_⟩
  · exact ((stackExtension _ _ [.trap]).1 deep).1.trans (by rfl)
  · exact ((stackExtension _ _ [.trap]).2 _ failed (by rfl)).2.2.2.2.trans (by rfl)

end StackMachine
