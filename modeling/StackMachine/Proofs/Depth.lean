import StackMachine.Proofs.Residues

/-! The depth of the stack before each instruction is a sum over the instructions before
it, so a lack of operands can be foretold without running anything. For instructions that
answer residues with a residue and never with a trap it is also all that can go wrong. -/
namespace StackMachine

def Operation.risky : List Operation := [divU, divS, remU, remS, shl, rotl]

inductive Instruction.Plain (width : Width) : Instruction → Prop where
  | constant {value : Int} (residue : width.IsResidue value) : Plain width (.constant value)
  | bare {operation : Operation} (taking : operation ≠ .const) (safe : operation ∉ Operation.risky) :
      Plain width (.bare operation)

def expectedDepth (depth : Nat) (instructions : List Instruction) (index : Nat) : Int :=
  depth +
    ((instructions.take index).map fun instruction => (1 : Int) - instruction.operation.arity).sum

def Enough (depth : Nat) (instructions : List Instruction) (index : Nat) : Prop :=
  ∀ instruction ∈ instructions[index]?,
    (instruction.operation.arity : Int) ≤ expectedDepth depth instructions index

structure FirstShort (depth : Nat) (instructions : List Instruction) (failure : Failure) : Prop where
  short : ¬ Enough depth instructions failure.index
  earlier : ∀ index < failure.index, Enough depth instructions index
  reported : ∃ found : Nat, found = expectedDepth depth instructions failure.index ∧
    failure.violation = .stackUnderflow failure.operation failure.operation.arity found
  operation : instructions[failure.index]?.map Instruction.operation = some failure.operation

section Depths

variable {instruction : Instruction} {rest : List Instruction} {depth after : Nat}

theorem enoughFirst :
    Enough depth (instruction :: rest) 0 ↔ instruction.operation.arity ≤ depth := by
  simp [Enough, expectedDepth]

theorem expectedLater (step : after + instruction.operation.arity = depth + 1) (index : Nat) :
    expectedDepth depth (instruction :: rest) (index + 1) = expectedDepth after rest index := by
  simp only [expectedDepth, List.take_succ_cons, List.map_cons, List.sum_cons]
  omega

theorem enoughLater (step : after + instruction.operation.arity = depth + 1) (index : Nat) :
    Enough depth (instruction :: rest) (index + 1) ↔ Enough after rest index := by
  simp only [Enough, expectedLater step, List.getElem?_cons_succ]

theorem firstShortLater (step : after + instruction.operation.arity = depth + 1)
    (enough : instruction.operation.arity ≤ depth) {failure : Failure}
    (first : FirstShort after rest failure) :
    FirstShort depth (instruction :: rest) (failure.later 1) where
  short := (enoughLater step failure.index).not.mpr first.short
  earlier index before := by
    cases index with
    | zero => exact enoughFirst.mpr enough
    | succ index =>
      exact (enoughLater step index).mpr (first.earlier index (Nat.lt_of_succ_lt_succ before))
  reported := by
    obtain ⟨found, expected, violation⟩ := first.reported
    exact ⟨found, expected.trans (expectedLater step failure.index).symm, violation⟩
  operation := first.operation

end Depths

section Run

variable {width : Width} {stack : Stack}

theorem Operation.safeAnswer {operation : Operation} {operands : List Int}
    {answer : Except Violation Value} (safe : operation ∉ risky)
    (given : (operation.action width).answer? operands = some answer)
    (residues : ∀ operand ∈ operands, width.IsResidue operand) :
    ∃ value, answer = .ok value ∧ value.IsResidue width ∧ value ≠ .trap := by
  simp only [risky, List.mem_cons, List.not_mem_nil, or_false, not_or] at safe
  obtain ⟨noDivU, noDivS, noRemU, noRemS, unshifted, unturned⟩ := safe
  obtain ⟨value, rfl, residue⟩ := Action.answerResidual
    (Operation.actionResidual width unshifted unturned) given residues
  refine ⟨value, rfl, residue, ?_⟩
  rintro rfl
  have traps := Operation.answerTrap given
  cases operation <;> contradiction

theorem Instruction.Plain.step {instruction : Instruction} (plain : instruction.Plain width)
    (residues : stack.Residues width) (clean : .trap ∉ stack) :
    (stack.depth < instruction.operation.arity ∧
      instruction.run width stack = .refused stack
        (.stackUnderflow instruction.operation instruction.operation.arity stack.depth)) ∨
    ∃ after : Stack, instruction.run width stack = .done after ∧ after.Residues width ∧
      .trap ∉ after ∧ after.depth + instruction.operation.arity = stack.depth + 1 ∧
      instruction.operation.arity ≤ stack.depth := by
  cases plain with
  | @constant value residue =>
    right
    exact ⟨_, Instruction.runConstant width value stack, Stack.residuesPush residue residues,
      by simpa using clean, rfl, Nat.zero_le _⟩
  | @bare operation taking safe =>
    rw [Instruction.runBare]
    rcases Nat.lt_or_ge stack.depth operation.arity with short | enough
    · exact .inl ⟨short, Width.applyUnderflow short⟩
    right
    obtain ⟨operands, rest, taken, rfl⟩ :=
      Stack.splitOperands enough (fun trap => clean (List.mem_of_mem_take trap))
    obtain ⟨answer, given⟩ := Action.answerDefined
      (taken.trans (operation.actionArity width).symm)
      (mt Operation.actionImmediate.mp taking)
    obtain ⟨numbers, others⟩ := Stack.residuesSplit.mp residues
    obtain ⟨value, rfl, residue, number⟩ := Operation.safeAnswer safe given numbers
    refine ⟨value :: rest, Width.applyAnswered given rest, Stack.residuesPush residue others,
      List.not_mem_cons_of_ne_of_not_mem number.symm (mt (List.mem_append_right _) clean), ?_, enough⟩
    change rest.length + 1 + operation.arity = (operands.map Value.number ++ rest).length + 1
    rw [List.length_append, List.length_map, taken]
    omega

theorem runForetold {instructions : List Instruction}
    (plain : ∀ instruction ∈ instructions, instruction.Plain width)
    (residues : stack.Residues width) (clean : .trap ∉ stack) :
    ((run width 0 instructions stack).failure = none ∧
      ∀ index, Enough stack.depth instructions index) ∨
    ∃ failure, (run width 0 instructions stack).failure = some failure ∧
      FirstShort stack.depth instructions failure := by
  induction instructions generalizing stack with
  | nil => exact .inl ⟨rfl, by simp [Enough]⟩
  | cons instruction rest ih =>
    rcases (plain instruction List.mem_cons_self).step residues clean with
      ⟨short, refused⟩ | ⟨after, done, kept, untrapped, step, enough⟩
    · right
      refine ⟨_, congrArg Run.failure (runConsRefused rest (congrArg Outcome.violation refused)), ?_⟩
      exact {
        short := enoughFirst.not.mpr (Nat.not_le.mpr short)
        earlier := by simp
        reported := ⟨stack.depth, by simp [expectedDepth], rfl⟩
        operation := rfl }
    · have next : (run width 0 (instruction :: rest) stack).failure =
          (run width 0 rest after).failure.map (Failure.later 1) := by
        rw [runConsDone rest (congrArg Outcome.violation done), done]
        rfl
      rw [next]
      rcases ih (fun later found => plain later (List.mem_cons_of_mem _ found)) kept untrapped with
        ⟨succeeded, all⟩ | ⟨failure, failed, first⟩
      · left
        refine ⟨by rw [succeeded]; rfl, fun index => ?_⟩
        cases index with
        | zero => exact enoughFirst.mpr enough
        | succ index => exact (enoughLater step index).mpr (all index)
      · right
        exact ⟨failure.later 1, by rw [failed]; rfl, firstShortLater step enough first⟩

theorem wellStockedTotal {width : Width} {instructions : List Instruction} {stack : Stack}
    (plain : ∀ instruction ∈ instructions, instruction.Plain width)
    (residues : stack.Residues width) (clean : .trap ∉ stack) :
    let failure := (Program.execute ⟨width, instructions⟩ stack).failure
    (failure = none ↔ ∀ index, Enough stack.depth instructions index) ∧
    ∀ found, failure = some found → FirstShort stack.depth instructions found := by
  intro failure
  simp only [failure, executeFailure]
  rcases runForetold plain residues clean with ⟨succeeded, all⟩ | ⟨found, failed, first⟩
  · refine ⟨⟨fun _ => all, fun _ => succeeded⟩, fun other failed => ?_⟩
    rw [succeeded] at failed
    contradiction
  · refine ⟨⟨fun succeeded => ?_, fun all => absurd (all found.index) first.short⟩, ?_⟩
    · rw [failed] at succeeded
      contradiction
    · intro other same
      rw [failed] at same
      exact Option.some.inj same ▸ first

theorem wellStockedTotalSums :
    FirstShort 1 [.constant 3, .bare .add, .bare .add] ⟨2, .add, .stackUnderflow .add 2 1⟩ ∧
    ∀ index, Enough 1 [.constant 3, .bare .add, .bare .popcnt] index := by
  have pushed : (Instruction.constant 3).Plain .i32 :=
    .constant (by simp [Width.IsResidue, Width.modulus])
  have sum : (Instruction.bare .add).Plain .i32 := .bare (by decide) (by decide)
  have count : (Instruction.bare .popcnt).Plain .i32 := .bare (by decide) (by decide)
  have residues : Stack.Residues .i32 [.number 5] := by
    simp [Stack.Residues, Value.IsResidue, Width.IsResidue, Width.modulus]
  have clean : .trap ∉ ([.number 5] : Stack) := by decide
  constructor
  · exact (wellStockedTotal (by simp [pushed, sum]) residues clean).2 _ (by rfl)
  · exact (wellStockedTotal (by simp [pushed, sum, count]) residues clean).1.mp (by rfl)

end Run
end StackMachine
