import StackMachine.Execution

/-! Where one program ends and the next begins cannot be seen on the stack. A run of two
lists of instructions after each other is the run of the first, continued by the second
only if the first was not refused; indices count on. A session has one execution for each
of its programs, each from the stack that the ones before it left, whether or not they
failed. It ends where single instructions end that leave out what stands behind the
refused ones. -/
namespace StackMachine

def Failure.later (count : Nat) (failure : Failure) : Failure :=
  { failure with index := failure.index + count }

def Run.later (count : Nat) (run : Run) : Run :=
  { run with failure := run.failure.map (Failure.later count) }

/-- All instructions, or those up to and including the refused one. -/
def begun (instructions : List Instruction) : Option Failure → List Instruction
  | none => instructions
  | some failure => instructions.take (failure.index + 1)

def begunAll (width : Width) : List (List Instruction) → Stack → List Instruction
  | [], _ => []
  | instructions :: rest, stack =>
    let reached := run width 0 instructions stack
    begun instructions reached.failure ++ begunAll width rest reached.stack

theorem Execution.finalStackCons (execution : Execution) (rest : List Execution) (start : Stack) :
    finalStack (execution :: rest) start = finalStack rest execution.stack := by
  rw [finalStack, List.map_cons, List.getLastD_cons, finalStack]

theorem runLater (width : Width) (index count : Nat) (instructions : List Instruction)
    (stack : Stack) :
    run width (index + count) instructions stack = (run width index instructions stack).later count := by
  induction instructions generalizing index stack with
  | nil => rfl
  | cons instruction rest ih =>
    simp only [run]
    cases (instruction.run width stack).violation with
    | none =>
      rw [← ih (index + 1), Nat.add_right_comm]
    | some violation => rfl

section Cons

variable {width : Width} {instruction : Instruction} {stack : Stack}

theorem runConsDone (rest : List Instruction)
    (done : (instruction.run width stack).violation = none) :
    run width 0 (instruction :: rest) stack =
      (run width 0 rest (instruction.run width stack).stack).later 1 := by
  simp only [run, done]
  exact runLater width 0 1 rest _

theorem runConsRefused (rest : List Instruction) {violation : Violation}
    (refused : (instruction.run width stack).violation = some violation) :
    run width 0 (instruction :: rest) stack =
      ⟨(instruction.run width stack).stack, some ⟨0, instruction.operation, violation⟩⟩ := by
  simp only [run, refused]

theorem begunConsDone (rest : List Instruction)
    (done : (instruction.run width stack).violation = none) :
    begun (instruction :: rest) (run width 0 (instruction :: rest) stack).failure =
      instruction :: begun rest (run width 0 rest (instruction.run width stack).stack).failure := by
  rw [runConsDone rest done, Run.later]
  cases (run width 0 rest (instruction.run width stack).stack).failure <;> rfl

end Cons

theorem runAppendDone {width : Width} {index : Nat} {front : List Instruction} {stack : Stack}
    (done : (run width index front stack).failure = none) (back : List Instruction) :
    run width index (front ++ back) stack =
      run width (index + front.length) back (run width index front stack).stack := by
  induction front generalizing index stack with
  | nil => rfl
  | cons instruction rest ih =>
    simp only [run, List.cons_append] at done ⊢
    cases refused : (instruction.run width stack).violation with
    | none =>
      simp only [refused] at done ⊢
      rw [ih done, List.length_cons, Nat.add_right_comm, Nat.add_assoc]
    | some violation =>
      simp only [refused] at done
      contradiction

theorem runAppendFailed {width : Width} {index : Nat} {front : List Instruction} {stack : Stack}
    {failure : Failure} (failed : (run width index front stack).failure = some failure)
    (back : List Instruction) :
    run width index (front ++ back) stack = run width index front stack := by
  induction front generalizing index stack with
  | nil => contradiction
  | cons instruction rest ih =>
    simp only [run, List.cons_append] at failed ⊢
    cases refused : (instruction.run width stack).violation with
    | none =>
      simp only [refused] at failed ⊢
      exact ih failed
    | some violation => rfl

theorem runFrontDone {width : Width} {index : Nat} {front back : List Instruction} {stack : Stack}
    (done : (run width index (front ++ back) stack).failure = none) :
    (run width index front stack).failure = none := by
  cases failed : (run width index front stack).failure with
  | none => rfl
  | some failure => rwa [runAppendFailed failed back, failed] at done

theorem runTakeFailed {width : Width} {instructions : List Instruction} {stack : Stack}
    {failure : Failure} (failed : (run width 0 instructions stack).failure = some failure) :
    failure.index < instructions.length ∧
      (run width 0 (instructions.take failure.index) stack).failure = none := by
  induction instructions generalizing stack failure with
  | nil => contradiction
  | cons instruction rest ih =>
    cases refused : (instruction.run width stack).violation with
    | none =>
      rw [runConsDone rest refused] at failed
      obtain ⟨inner, found, rfl⟩ := Option.map_eq_some_iff.mp failed
      obtain ⟨inside, opening⟩ := ih found
      refine ⟨Nat.succ_lt_succ inside, ?_⟩
      rw [Failure.later, List.take_succ_cons, runConsDone _ refused]
      exact Option.map_eq_none_iff.mpr opening
    | some violation =>
      rw [runConsRefused rest refused] at failed
      cases failed
      exact ⟨Nat.zero_lt_succ _, rfl⟩

theorem runSplitAt {width : Width} {count : Nat} {instructions : List Instruction} {stack : Stack}
    (inside : count ≤ instructions.length)
    (done : (run width 0 (instructions.take count) stack).failure = none) :
    run width 0 instructions stack =
      (run width 0 (instructions.drop count)
        (run width 0 (instructions.take count) stack).stack).later count := by
  have joined := runAppendDone done (instructions.drop count)
  rwa [List.take_append_drop, List.length_take, Nat.min_eq_left inside, runLater] at joined

theorem runEachCons (width : Width) (instruction : Instruction) (rest : List Instruction)
    (stack : Stack) : runEach width (instruction :: rest) stack =
      instruction.run width stack :: runEach width rest (instruction.run width stack).stack := rfl

theorem runEachAppend {width : Width} {front : List Instruction} {stack middle : Stack}
    (reached : ((runEach width front stack).map Outcome.stack).getLastD stack = middle)
    (back : List Instruction) :
    ((runEach width (front ++ back) stack).map Outcome.stack).getLastD stack =
      ((runEach width back middle).map Outcome.stack).getLastD middle := by
  induction front generalizing stack with
  | nil => cases reached; rfl
  | cons instruction rest ih =>
    simp only [List.cons_append, runEachCons, List.map_cons, List.getLastD_cons] at reached ⊢
    exact ih reached

theorem runEachBegun (width : Width) (instructions : List Instruction) (stack : Stack) :
    ((runEach width (begun instructions (run width 0 instructions stack).failure) stack).map
        Outcome.stack).getLastD stack =
      (run width 0 instructions stack).stack := by
  induction instructions generalizing stack with
  | nil => rfl
  | cons instruction rest ih =>
    cases refused : (instruction.run width stack).violation with
    | none =>
      rw [begunConsDone rest refused, runConsDone rest refused, runEachCons, List.map_cons,
        List.getLastD_cons]
      exact ih _
    | some violation =>
      rw [runConsRefused rest refused]
      rfl

theorem executeAllLength (programs : List Program) (stack : Stack) :
    (Program.executeAll programs stack).length = programs.length := by
  induction programs generalizing stack with
  | nil => rfl
  | cons program rest ih => simp only [Program.executeAll, List.length_cons, ih]

theorem executeAllAt {programs : List Program} {position : Nat} {program : Program} {stack : Stack}
    (there : programs[position]? = some program) :
    (Program.executeAll programs stack)[position]? = some (program.execute
      (Execution.finalStack ((Program.executeAll programs stack).take position) stack)) := by
  induction programs generalizing position stack with
  | nil => cases there
  | cons first rest ih =>
    cases position with
    | zero => cases there; rfl
    | succ position =>
      simp only [Program.executeAll, List.getElem?_cons_succ, List.take_succ_cons,
        Execution.finalStackCons] at there ⊢
      exact ih there

theorem executeAllBegun (width : Width) (programs : List (List Instruction)) (stack : Stack) :
    Execution.finalStack (Program.executeAll (programs.map (Program.mk width)) stack) stack =
      ((runEach width (begunAll width programs stack) stack).map Outcome.stack).getLastD stack := by
  induction programs generalizing stack with
  | nil => rfl
  | cons instructions rest ih =>
    rw [begunAll, runEachAppend (runEachBegun width instructions stack), ← ih, List.map_cons,
      Program.executeAll, Execution.finalStackCons, executeStack]

theorem splittingUnobservable (width : Width) (stack : Stack) :
    (∀ front back : List Instruction,
      let first := Program.execute ⟨width, front⟩ stack
      let whole := Program.execute ⟨width, front ++ back⟩ stack
      (first.failure = none →
        whole.run = (Program.execute ⟨width, back⟩ first.stack).run.later front.length) ∧
      (∀ failure, first.failure = some failure → whole.run = first.run)) ∧
    ∀ programs : List (List Instruction),
      let executions := Program.executeAll (programs.map (Program.mk width)) stack
      executions.length = programs.length ∧
      (∀ position instructions, programs[position]? = some instructions →
        executions[position]? = some (Program.execute ⟨width, instructions⟩
          (Execution.finalStack (executions.take position) stack))) ∧
      Execution.finalStack executions stack =
        ((runEach width (begunAll width programs stack) stack).map Outcome.stack).getLastD stack := by
  refine ⟨fun front back => ⟨fun done => ?_, fun failure failed => ?_⟩, fun programs => ?_⟩
  · rw [executeFailure] at done
    rw [executeRun, executeRun, executeStack, ← runLater]
    exact runAppendDone done back
  · rw [executeFailure] at failed
    rw [executeRun, executeRun]
    exact runAppendFailed failed back
  · refine ⟨?_, fun position instructions there => ?_, executeAllBegun width programs stack⟩
    · rw [executeAllLength, List.length_map]
    · exact executeAllAt (List.getElem?_map.trans (congrArg (Option.map _) there))

theorem splittingUnobservableAfterDivision :
    (Program.execute ⟨.i32, [.constant 7]⟩ [.number 5]).failure = none ∧
    (Program.execute ⟨.i32, [.constant 7] ++ [.bare .add]⟩ [.number 5]).run =
      ⟨[.number 12], none⟩ ∧
    (Program.execute ⟨.i32, [.constant (-1), .bare .divS] ++ [.constant 3]⟩ [.number 5]).run =
      ⟨[], some ⟨1, .divS, .signedRange (-1) .i32⟩⟩ ∧
    begunAll .i32 [[.constant 7, .bare .add], [.constant (-1), .bare .divS, .constant 3],
      [.constant 4]] [.number 5] =
        [.constant 7, .bare .add, .constant (-1), .bare .divS, .constant 4] ∧
    Execution.finalStack (Program.executeAll [⟨.i32, [.constant 7, .bare .add]⟩,
      ⟨.i32, [.constant (-1), .bare .divS, .constant 3]⟩, ⟨.i32, [.constant 4]⟩] [.number 5])
        [.number 5] = [.number 4] := by
  have done : (Program.execute ⟨.i32, [.constant 7]⟩ [.number 5]).failure = none := by rfl
  have failed : (Program.execute ⟨.i32, [.constant (-1), .bare .divS]⟩ [.number 5]).failure =
      some ⟨1, .divS, .signedRange (-1) .i32⟩ := by rfl
  have split := splittingUnobservable .i32 [.number 5]
  refine ⟨done, ?_, ?_, by rfl, ?_⟩
  · exact ((split.1 [.constant 7] [.bare .add]).1 done).trans (by rfl)
  · exact ((split.1 [.constant (-1), .bare .divS] [.constant 3]).2 _ failed).trans (by rfl)
  · exact (split.2 [[.constant 7, .bare .add], [.constant (-1), .bare .divS, .constant 3],
      [.constant 4]]).2.2.trans (by rfl)

end StackMachine
