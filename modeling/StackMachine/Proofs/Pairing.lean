import Mathlib.Data.List.Forall2
import StackMachine.Execution
import StackMachine.Proofs.Transition

/-! Two runs side by side. A relation between integers is carried over to stacks, position
by position and a trap beside a trap. Where the operations of a program answer related
operands alike, at one width or at two, running it keeps related stacks related and fails
in both runs or in neither. -/
namespace StackMachine

variable {related : Int → Int → Prop}

inductive Value.Paired (related : Int → Int → Prop) : Value → Value → Prop where
  | number {left right : Int} (same : related left right) :
      Paired related (.number left) (.number right)
  | trap : Paired related .trap .trap

def Stack.Paired (related : Int → Int → Prop) : Stack → Stack → Prop :=
  List.Forall₂ (Value.Paired related)

structure Instruction.Paired (related : Int → Int → Prop) (left right : Instruction) : Prop where
  operation : left.operation = right.operation
  immediate : Option.Rel related left.immediate right.immediate

structure Outcome.Paired (related : Int → Int → Prop) (left right : Outcome) : Prop where
  stack : left.stack.Paired related right.stack
  violation : left.violation = right.violation

structure Run.Paired (related : Int → Int → Prop) (left right : Run) : Prop where
  stack : left.stack.Paired related right.stack
  failure : left.failure = right.failure

namespace Action

inductive AnswersPaired (related : Int → Int → Prop) :
    Except Violation Value → Except Violation Value → Prop where
  | ok {left right : Value} (same : left.Paired related right) :
      AnswersPaired related (.ok left) (.ok right)
  | error (violation : Violation) : AnswersPaired related (.error violation) (.error violation)

def Alike (related : Int → Int → Prop) (first second : Action) : Prop :=
  ∀ left right : List Int, List.Forall₂ related left right →
    Option.Rel (AnswersPaired related) (first.answer? left) (second.answer? right)

theorem immediateAlike : Alike related immediate immediate := by
  intro left right _
  rw [answerImmediate, answerImmediate]
  exact .none

theorem unaryAlike {first second : Int → Int}
    (alike : ∀ {left right}, related left right → related (first left) (second right)) :
    Alike related (unary first) (unary second) := by
  intro left right operands
  match operands with
  | .nil => exact .none
  | .cons value .nil => exact .some (.ok (.number (alike value)))
  | .cons _ (.cons _ _) => exact .none

theorem binaryAlike {first second : Int → Int → Except Violation Value}
    (alike : ∀ {top otherTop below otherBelow}, related top otherTop → related below otherBelow →
      AnswersPaired related (first top below) (second otherTop otherBelow)) :
    Alike related (binary first) (binary second) := by
  intro left right operands
  match operands with
  | .nil => exact .none
  | .cons _ .nil => exact .none
  | .cons top (.cons below .nil) => exact .some (alike top below)
  | .cons _ (.cons _ (.cons _ _)) => exact .none

theorem numberAlike {first second : Int → Int → Int}
    (alike : ∀ {top otherTop below otherBelow}, related top otherTop → related below otherBelow →
      related (first top below) (second otherTop otherBelow)) :
    Alike related (number first) (number second) :=
  binaryAlike fun top below => .ok (.number (alike top below))

theorem equalPaired (reflexive : ∀ value, related value value) {left right : Value}
    (same : left = right) : left.Paired related right := by
  subst same
  cases left with
  | number value => exact .number (reflexive value)
  | trap => exact .trap

theorem valueAlike (reflexive : ∀ value, related value value) {first second : Int → Int → Value}
    (alike : ∀ {top otherTop below otherBelow}, related top otherTop → related below otherBelow →
      first top below = second otherTop otherBelow) :
    Alike related (binary fun top below => .ok (first top below))
      (binary fun top below => .ok (second top below)) :=
  binaryAlike fun top below => .ok (equalPaired reflexive (alike top below))

theorem truthAlike (reflexive : ∀ value, related value value) {first second : Int → Int → Bool}
    (alike : ∀ {top otherTop below otherBelow}, related top otherTop → related below otherBelow →
      first top below = second otherTop otherBelow) :
    Alike related (truth first) (truth second) :=
  valueAlike reflexive fun top below => congrArg Value.ofBool (alike top below)

end Action

def Operation.Respects (related : Int → Int → Prop) (first second : Width)
    (operation : Operation) : Prop :=
  Action.Alike related (operation.action first) (operation.action second)

theorem Operation.Respects.answered {first second : Width} {operation : Operation}
    {left right : List Int} {answer : Except Violation Value}
    (respects : operation.Respects related first second)
    (operands : List.Forall₂ related left right)
    (given : (operation.action first).answer? left = some answer) :
    ∃ other, (operation.action second).answer? right = some other ∧
      Action.AnswersPaired related answer other := by
  have answers := respects left right operands
  rw [given] at answers
  cases found : (operation.action second).answer? right with
  | none => rw [found] at answers; contradiction
  | some other =>
    rw [found] at answers
    obtain ⟨paired⟩ := answers
    exact ⟨other, rfl, paired⟩

namespace Stack.Paired

variable {left right : Stack}

theorem trap (matched : left.Paired related right) (found : .trap ∈ left) : .trap ∈ right := by
  induction matched with
  | nil => contradiction
  | cons first rest ih =>
    rcases List.mem_cons.mp found with rfl | below
    · cases first
      exact List.mem_cons_self
    · exact List.mem_cons_of_mem _ (ih below)

theorem split {operands : List Int} {rest : Stack}
    (matched : Stack.Paired related (operands.map .number ++ rest) right) :
    ∃ (others : List Int) (below : Stack), right = others.map .number ++ below ∧
      List.Forall₂ related operands others ∧ rest.Paired related below := by
  induction operands generalizing right with
  | nil => exact ⟨[], right, rfl, .nil, matched⟩
  | cons operand operands ih =>
    match matched with
    | .cons (.number first) matched =>
      obtain ⟨others, below, rfl, same, deeper⟩ := ih matched
      exact ⟨_ :: others, below, rfl, .cons first same, deeper⟩

end Stack.Paired

section Runs

variable {first second : Width}

theorem Transition.paired {instruction other : Instruction} {stack beside : Stack}
    {outcome : Outcome} (transition : Transition first instruction stack outcome)
    (instructions : instruction.Paired related other) (matched : stack.Paired related beside)
    (respects : instruction.operation.Respects related first second) :
    ∃ result, Transition second other beside result ∧ outcome.Paired related result := by
  obtain ⟨operation, immediate⟩ := other
  obtain ⟨same, immediates⟩ := instructions
  cases same
  cases transition with
  | pushed value =>
    obtain ⟨pushed⟩ := immediates
    exact ⟨_, .pushed _ beside, .cons (.number pushed) matched, rfl⟩
  | unexpected taken value =>
    obtain ⟨-⟩ := immediates
    exact ⟨_, .unexpected taken _ beside, matched, rfl⟩
  | missing =>
    obtain ⟨-⟩ := immediates
    exact ⟨_, .missing beside, matched, rfl⟩
  | @underflow taken _ short =>
    obtain ⟨-⟩ := immediates
    have depth : stack.depth = beside.depth := matched.length_eq
    refine ⟨_, .underflow (depth ▸ short), matched, ?_⟩
    exact congrArg (fun found => some (Violation.stackUnderflow taken taken.arity found)) depth
  | @trapped taken _ enough trap =>
    obtain ⟨-⟩ := immediates
    have depth : stack.depth = beside.depth := matched.length_eq
    have within : Stack.Paired related (stack.take taken.arity) (beside.take taken.arity) :=
      List.forall₂_take taken.arity matched
    exact ⟨_, .trapped (depth ▸ enough) (within.trap trap), matched, rfl⟩
  | answered given rest =>
    obtain ⟨-⟩ := immediates
    obtain ⟨others, below, rfl, operands, deeper⟩ := matched.split
    obtain ⟨_, beside, ⟨same⟩⟩ := respects.answered operands given
    exact ⟨_, .answered beside below, .cons same deeper, rfl⟩
  | rejected given rest =>
    obtain ⟨-⟩ := immediates
    obtain ⟨others, below, rfl, operands, deeper⟩ := matched.split
    obtain ⟨_, beside, ⟨-⟩⟩ := respects.answered operands given
    exact ⟨_, .rejected beside below, deeper, rfl⟩

theorem Instruction.Paired.outcomes {instruction other : Instruction} {stack beside : Stack}
    (instructions : instruction.Paired related other) (matched : stack.Paired related beside)
    (respects : instruction.operation.Respects related first second) :
    (instruction.run first stack).Paired related (other.run second beside) := by
  obtain ⟨result, transition, paired⟩ :=
    (Transition.ofRun first instruction stack).paired instructions matched respects
  exact transition.toRun ▸ paired

theorem runPaired {instructions others : List Instruction} {stack beside : Stack} {index : Nat}
    (programs : List.Forall₂ (Instruction.Paired related) instructions others)
    (matched : stack.Paired related beside)
    (respects : ∀ instruction ∈ instructions,
      instruction.operation.Respects related first second) :
    (run first index instructions stack).Paired related (run second index others beside) := by
  induction programs generalizing stack beside index with
  | nil => exact ⟨matched, rfl⟩
  | @cons instruction other rest otherRest same _ ih =>
    have outcomes := same.outcomes matched (respects instruction List.mem_cons_self)
    simp only [run, ← outcomes.violation, ← same.operation]
    cases (instruction.run first stack).violation with
    | some violation => exact ⟨outcomes.stack, rfl⟩
    | none =>
      exact ih outcomes.stack fun later found => respects later (List.mem_cons_of_mem _ found)

theorem sameProgram (reflexive : ∀ value, related value value) (instructions : List Instruction) :
    List.Forall₂ (Instruction.Paired related) instructions instructions := by
  refine List.forall₂_same.mpr fun instruction _ => ⟨rfl, ?_⟩
  cases instruction.immediate with
  | none => exact .none
  | some value => exact .some (reflexive value)

theorem executePaired {instructions others : List Instruction} {stack beside : Stack}
    (programs : List.Forall₂ (Instruction.Paired related) instructions others)
    (matched : stack.Paired related beside)
    (respects : ∀ instruction ∈ instructions,
      instruction.operation.Respects related first second) :
    (Program.execute ⟨first, instructions⟩ stack).run.Paired related
      (Program.execute ⟨second, others⟩ beside).run := by
  rw [executeRun, executeRun]
  exact runPaired programs matched respects

end Runs
end StackMachine
