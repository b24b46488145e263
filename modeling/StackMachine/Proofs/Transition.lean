import StackMachine.Step

/-! All that one instruction can do, as a relation between the stack before it and its
outcome. The operation table enters through the answer to a list of operands alone, so
whatever holds of each constructor holds of all thirty operations. The relation and the
running function say the same. -/
namespace StackMachine

namespace Action

def answer? : Action → List Int → Option (Except Violation Value)
  | unary result, [value] => some (.ok (.number (result value)))
  | binary result, [top, second] => some (result top second)
  | _, _ => none

theorem answerImmediate (operands : List Int) : immediate.answer? operands = none := by
  simp [answer?]

theorem answerUnary {result : Int → Int} {operands : List Int} {answer : Except Violation Value}
    (given : (unary result).answer? operands = some answer) :
    ∃ value, operands = [value] ∧ answer = .ok (.number (result value)) := by
  match operands, given with
  | [value], given => exact ⟨value, rfl, (Option.some.inj given).symm⟩

theorem answerBinary {result : Int → Int → Except Violation Value} {operands : List Int}
    {answer : Except Violation Value} (given : (binary result).answer? operands = some answer) :
    ∃ top second, operands = [top, second] ∧ answer = result top second := by
  match operands, given with
  | [top, second], given => exact ⟨top, second, rfl, (Option.some.inj given).symm⟩

theorem answerDefined {action : Action} {operands : List Int} (taken : operands.length = action.arity)
    (other : action ≠ immediate) : ∃ answer, action.answer? operands = some answer := by
  match action, operands, taken with
  | unary result, [value], _ => exact ⟨_, rfl⟩
  | binary result, [top, second], _ => exact ⟨_, rfl⟩
  | immediate, _, _ => contradiction

theorem answerLength {action : Action} {operands : List Int} {answer : Except Violation Value}
    (given : action.answer? operands = some answer) : operands.length = action.arity := by
  cases action with
  | immediate => rw [answerImmediate] at given; contradiction
  | unary result => obtain ⟨value, rfl, -⟩ := answerUnary given; rfl
  | binary result => obtain ⟨top, second, rfl, -⟩ := answerBinary given; rfl

end Action

namespace Operation

theorem actionImmediate {operation : Operation} {width : Width} :
    operation.action width = .immediate ↔ operation = .const := by
  cases operation <;>
    simp [action, entry, Entry.silent, Action.number, Action.truth, Action.shift]

theorem answerTaken {operation : Operation} {width : Width} {operands : List Int}
    {answer : Except Violation Value}
    (given : (operation.action width).answer? operands = some answer) :
    operands.length = operation.arity :=
  (Action.answerLength given).trans (operation.actionArity width)

end Operation

namespace Stack

theorem splitOperands {count : Nat} {stack : Stack} (enough : count ≤ stack.depth)
    (clean : .trap ∉ stack.take count) :
    ∃ (operands : List Int) (rest : Stack),
      operands.length = count ∧ stack = operands.map .number ++ rest := by
  induction count generalizing stack with
  | zero => exact ⟨[], stack, rfl, rfl⟩
  | succ count ih =>
    match stack, enough, clean with
    | .trap :: rest, _, clean => exact absurd (by simp) clean
    | .number value :: rest, enough, clean =>
      simp only [List.take_succ_cons, List.mem_cons, not_or] at clean
      obtain ⟨operands, below, taken, rfl⟩ := ih (Nat.le_of_succ_le_succ enough) clean.2
      exact ⟨value :: operands, below, congrArg Nat.succ taken, rfl⟩

end Stack

namespace Entry

variable {entry : Entry} {stack : Stack}

theorem effectUnderflow (short : stack.depth < entry.action.arity) :
    entry.effect stack =
      ⟨.refused stack (.stackUnderflow entry.named entry.action.arity stack.depth), []⟩ := by
  obtain ⟨named, action, notices⟩ := entry
  cases action with
  | immediate => exact absurd short (Nat.not_lt_zero _)
  | unary result =>
    cases stack with
    | nil => rfl
    | cons value rest => simp [Action.arity, Stack.depth] at short
  | binary result =>
    rcases stack with _ | ⟨top, _ | ⟨second, rest⟩⟩
    · rfl
    · cases top <;> rfl
    · simp only [Action.arity, Stack.depth, List.length_cons] at short
      omega

theorem effectTrapped (enough : entry.action.arity ≤ stack.depth)
    (trap : .trap ∈ stack.take entry.action.arity) :
    entry.effect stack = ⟨.refused stack (.trapOperand entry.named), []⟩ := by
  obtain ⟨named, action, notices⟩ := entry
  cases action with
  | immediate => simp [Action.arity] at trap
  | unary result =>
    match stack with
    | [] => contradiction
    | .trap :: rest => rfl
    | .number value :: rest => simp [Action.arity] at trap
  | binary result =>
    match stack with
    | [] => contradiction
    | [value] => simp [Action.arity, Stack.depth] at enough
    | .trap :: second :: rest => rfl
    | .number top :: .trap :: rest => rfl
    | .number top :: .number second :: rest => simp [Action.arity] at trap

theorem effectAnswered {operands : List Int} {answer : Except Violation Value}
    (given : entry.action.answer? operands = some answer) (rest : Stack) :
    entry.effect (operands.map .number ++ rest) =
      ⟨.ofAnswer rest answer, entry.notices operands⟩ := by
  obtain ⟨named, action, notices⟩ := entry
  cases action with
  | immediate => rw [Action.answerImmediate] at given; contradiction
  | unary result =>
    obtain ⟨value, rfl, rfl⟩ := Action.answerUnary given
    rfl
  | binary result =>
    obtain ⟨top, second, rfl, rfl⟩ := Action.answerBinary given
    rfl

theorem effectSilent (silent : ∀ operands, entry.notices operands = []) :
    (entry.effect stack).notices = [] := by
  unfold effect
  split <;> first | rfl | exact silent _

end Entry

namespace Width

variable {width : Width} {operation : Operation}

theorem applyUnderflow {stack : Stack} (short : stack.depth < operation.arity) :
    width.apply operation stack =
      .refused stack (.stackUnderflow operation operation.arity stack.depth) := by
  rw [← operation.actionArity width] at short ⊢
  rw [apply, Entry.effectUnderflow short, operation.entryNamed]
  rfl

theorem applyTrapped {stack : Stack} (enough : operation.arity ≤ stack.depth)
    (trap : .trap ∈ stack.take operation.arity) :
    width.apply operation stack = .refused stack (.trapOperand operation) := by
  rw [← operation.actionArity width] at enough trap
  rw [apply, Entry.effectTrapped enough trap, operation.entryNamed]

theorem applyAnswered {operands : List Int} {answer : Except Violation Value}
    (given : (operation.action width).answer? operands = some answer) (rest : Stack) :
    width.apply operation (operands.map .number ++ rest) = .ofAnswer rest answer := by
  rw [apply, Entry.effectAnswered given]

theorem applyBinary {result : Int → Int → Except Violation Value}
    (row : operation.action width = .binary result) (top second : Int) (rest : Stack) :
    width.apply operation (.number top :: .number second :: rest) =
      .ofAnswer rest (result top second) := by
  have given : (operation.action width).answer? [top, second] = some (result top second) := by
    rw [row, Action.answer?]
  exact applyAnswered given rest

end Width

inductive Transition (width : Width) : Instruction → Stack → Outcome → Prop where
  | pushed (value : Int) (stack : Stack) :
      Transition width (.constant value) stack (.done (.number value :: stack))
  | unexpected {operation : Operation} (other : operation ≠ .const) (value : Int) (stack : Stack) :
      Transition width ⟨operation, some value⟩ stack
        (.refused stack (.unexpectedImmediate operation))
  | missing (stack : Stack) :
      Transition width (.bare .const) stack (.refused stack .missingImmediate)
  | underflow {operation : Operation} {stack : Stack} (short : stack.depth < operation.arity) :
      Transition width (.bare operation) stack
        (.refused stack (.stackUnderflow operation operation.arity stack.depth))
  | trapped {operation : Operation} {stack : Stack} (enough : operation.arity ≤ stack.depth)
      (trap : .trap ∈ stack.take operation.arity) :
      Transition width (.bare operation) stack (.refused stack (.trapOperand operation))
  | answered {operation : Operation} {operands : List Int} {value : Value}
      (given : (operation.action width).answer? operands = some (.ok value)) (rest : Stack) :
      Transition width (.bare operation) (operands.map .number ++ rest) (.done (value :: rest))
  | rejected {operation : Operation} {operands : List Int} {violation : Violation}
      (given : (operation.action width).answer? operands = some (.error violation))
      (rest : Stack) :
      Transition width (.bare operation) (operands.map .number ++ rest) (.refused rest violation)

namespace Transition

theorem ofApply (width : Width) (operation : Operation) (stack : Stack) :
    Transition width (.bare operation) stack (width.apply operation stack) := by
  by_cases constant : operation = .const
  · subst constant
    exact missing stack
  rcases Nat.lt_or_ge stack.depth operation.arity with short | enough
  · rw [Width.applyUnderflow short]
    exact underflow short
  by_cases trap : .trap ∈ stack.take operation.arity
  · rw [Width.applyTrapped enough trap]
    exact trapped enough trap
  obtain ⟨operands, rest, taken, rfl⟩ := Stack.splitOperands enough trap
  obtain ⟨answer, given⟩ := Action.answerDefined
    (taken.trans (operation.actionArity width).symm) (mt Operation.actionImmediate.mp constant)
  rw [Width.applyAnswered given]
  cases answer with
  | ok value => exact answered given rest
  | error violation => exact rejected given rest

theorem runUnexpected {operation : Operation} (other : operation ≠ .const) (width : Width)
    (value : Int) (stack : Stack) :
    Instruction.run width ⟨operation, some value⟩ stack =
      .refused stack (.unexpectedImmediate operation) := by
  cases operation <;> first | rfl | contradiction

theorem ofRun (width : Width) (instruction : Instruction) (stack : Stack) :
    Transition width instruction stack (instruction.run width stack) := by
  obtain ⟨operation, immediate⟩ := instruction
  cases immediate with
  | none =>
    change Transition width (.bare operation) stack ((Instruction.bare operation).run width stack)
    rw [Instruction.runBare]
    exact ofApply width operation stack
  | some value =>
    by_cases constant : operation = .const
    · subst constant
      exact pushed value stack
    · rw [runUnexpected constant]
      exact unexpected constant value stack

theorem toRun {width : Width} {instruction : Instruction} {stack : Stack} {outcome : Outcome}
    (transition : Transition width instruction stack outcome) :
    instruction.run width stack = outcome := by
  cases transition with
  | pushed value => rfl
  | unexpected other value => exact runUnexpected other width value stack
  | missing => rfl
  | underflow short => rw [Instruction.runBare, Width.applyUnderflow short]
  | trapped enough trap => rw [Instruction.runBare, Width.applyTrapped enough trap]
  | answered given rest => rw [Instruction.runBare, Width.applyAnswered given, Outcome.ofAnswer]
  | rejected given rest => rw [Instruction.runBare, Width.applyAnswered given, Outcome.ofAnswer]

end Transition
end StackMachine
