import StackMachine.Proofs.Frame
import StackMachine.Proofs.Refusals
import StackMachine.Proofs.Traps

/-! The log of an execution as a record of what happened. Between its first line and its
last it is a row of segments, one for each instruction that was begun. What a segment
says is told from the instruction and the stack before it, and not from what the machine
looked at when it wrote the segment: a far shift is reported before anyone knows what
comes of it, a trap only where one was pushed. -/
namespace StackMachine

def Instruction.PushesTrap (width : Width) (instruction : Instruction) (stack : Stack) : Prop :=
  instruction.run width stack = .done (.trap :: stack.drop instruction.operation.arity)

structure Instruction.ShiftsFar (instruction : Instruction) (stack : Stack) (amount : Int) :
    Prop where
  shift : instruction = .bare .shl
  operands : ∃ value rest, stack = .number amount :: .number value :: rest
  far : 65536 < amount

inductive ShiftReport (instruction : Instruction) (stack : Stack) : List Event → Prop where
  | far {amount : Int} (shifts : instruction.ShiftsFar stack amount) :
      ShiftReport instruction stack [.largeLeftShift amount]
  | silent (near : ∀ amount, ¬ instruction.ShiftsFar stack amount) :
      ShiftReport instruction stack []

inductive TrapReport (width : Width) (index : Nat) (instruction : Instruction) (stack : Stack) :
    List Event → Prop where
  | pushed (trap : instruction.PushesTrap width stack) :
      TrapReport width index instruction stack [.arithmeticTrap index instruction.operation]
  | silent (other : ¬ instruction.PushesTrap width stack) :
      TrapReport width index instruction stack []

inductive Segment (width : Width) (index : Nat) (instruction : Instruction) (stack : Stack) :
    List Event → Prop where
  | reports {shift trap : List Event} (shifted : ShiftReport instruction stack shift)
      (trapped : TrapReport width index instruction stack trap) :
      Segment width index instruction stack
        (.step index instruction.operation stack.depth :: (shift ++ trap))

namespace Execution

def ending (width : Width) (execution : Execution) : Event :=
  match execution.failure with
  | none => .finished width execution.stack.depth
  | some failure => .violated failure.index failure.operation failure.violation

def reached (execution : Execution) (length : Nat) : Nat :=
  match execution.failure with
  | none => length
  | some failure => failure.index + 1

end Execution

structure Logged (width : Width) (index : Nat) (instructions : List Instruction) (stack : Stack)
    (execution : Execution) (segments : List (List Event)) : Prop where
  events : execution.events = segments.flatten ++ [execution.ending width]
  count : index + segments.length = execution.reached (index + instructions.length)
  segment : ∀ position events, segments[position]? = some events →
    ∃ instruction, instructions[position]? = some instruction ∧
      (run width 0 (instructions.take position) stack).failure = none ∧
      Segment width (index + position) instruction
        (run width 0 (instructions.take position) stack).stack events

section Reports

variable {width : Width} {instruction : Instruction} {stack : Stack} {outcome : Outcome}

theorem Transition.trapOnTop (transition : Transition width instruction stack outcome)
    (done : outcome.violation = none) (top : outcome.stack.top? = some .trap) :
    instruction.operation.canTrap = true := by
  cases transition with
  | pushed value => cases top
  | answered given rest =>
    cases top
    exact Operation.answerTrap given
  | unexpected | missing | underflow | trapped | rejected => cases done

theorem Instruction.PushesTrap.canTrap (pushes : instruction.PushesTrap width stack) :
    instruction.operation.canTrap = true := by
  have transition := Transition.ofRun width instruction stack
  rw [pushes] at transition
  exact transition.trapOnTop rfl rfl

theorem pushesTrapOnTop (done : (instruction.run width stack).violation = none) :
    instruction.PushesTrap width stack ↔
      (instruction.run width stack).stack.top? = some .trap := by
  have transition := Transition.ofRun width instruction stack
  constructor
  · intro pushes
    rw [pushes]
    rfl
  · intro top
    obtain ⟨-, value, whole⟩ := transition.pushesOne done
    rw [whole] at top
    cases top
    calc instruction.run width stack
        = ⟨(instruction.run width stack).stack, (instruction.run width stack).violation⟩ := rfl
      _ = .done (.trap :: stack.drop instruction.operation.arity) := by rw [whole, done]; rfl

theorem Instruction.noticesShift (width : Width) (amount value : Int) (rest : Stack) :
    (bare .shl).notices width (.number amount :: .number value :: rest) =
      if largeShift < amount then [.largeLeftShift amount] else [] := rfl

theorem Instruction.noticesNone (other : ∀ amount value rest,
    instruction = .bare .shl → stack ≠ .number amount :: .number value :: rest) (width : Width) :
    instruction.notices width stack = [] := by
  obtain ⟨operation, immediate⟩ := instruction
  cases immediate with
  | some value => cases operation <;> rfl
  | none =>
    by_cases shifts : operation = .shl
    · subst shifts
      match stack, other with
      | [], _ => rfl
      | [.number amount], _ => rfl
      | [.trap], _ => rfl
      | .trap :: below :: rest, _ => rfl
      | .number amount :: .trap :: rest, _ => rfl
      | .number amount :: .number value :: rest, other => exact absurd rfl (other _ _ _ rfl)
    · exact (congrArg Effect.notices (effectBare width operation stack)).trans
        (Entry.effectSilent (operation.entrySilent shifts width))

theorem shiftReported (width : Width) (instruction : Instruction) (stack : Stack) :
    ShiftReport instruction stack (instruction.notices width stack) := by
  by_cases shifts : ∃ amount value rest,
      instruction = .bare .shl ∧ stack = .number amount :: .number value :: rest
  · obtain ⟨amount, value, rest, rfl, rfl⟩ := shifts
    rw [Instruction.noticesShift]
    split
    next far => exact .far ⟨rfl, ⟨value, rest, rfl⟩, far⟩
    next near =>
      refine .silent fun other shifts => near ?_
      obtain ⟨_, _, same⟩ := shifts.operands
      cases same
      exact shifts.far
  · rw [Instruction.noticesNone fun amount value rest shift whole =>
      shifts ⟨amount, value, rest, shift, whole⟩]
    refine .silent fun amount far => shifts ?_
    obtain ⟨value, rest, whole⟩ := far.operands
    exact ⟨amount, value, rest, far.shift, whole⟩

theorem trapReported (index : Nat) (done : (instruction.run width stack).violation = none) :
    TrapReport width index instruction stack
      (trapNotices index instruction.operation (instruction.run width stack).stack) := by
  unfold trapNotices
  split
  next trap => exact .pushed ((pushesTrapOnTop done).mpr trap.2)
  next other =>
    refine .silent fun pushes => other ⟨pushes.canTrap, (pushesTrapOnTop done).mp pushes⟩

theorem trapSilent (index : Nat) {violation : Violation}
    (refused : (instruction.run width stack).violation = some violation) :
    TrapReport width index instruction stack [] := by
  refine .silent fun pushes => ?_
  rw [pushes] at refused
  cases refused

end Reports

theorem loggedRefused {width : Width} {instruction : Instruction} {stack : Stack}
    {violation : Violation} (index : Nat) (rest : List Instruction)
    (refused : (instruction.run width stack).violation = some violation) :
    Logged width index (instruction :: rest) stack
      (executeFrom width index (instruction :: rest) stack)
      [.step index instruction.operation stack.depth :: instruction.notices width stack] := by
  rw [executeFromRefused rest refused]
  refine ⟨by simp [Execution.ending], rfl, fun position events found => ?_⟩
  cases position with
  | zero =>
    cases found
    have segment := Segment.reports (shiftReported width instruction stack) (trapSilent index refused)
    rw [List.append_nil] at segment
    exact ⟨instruction, rfl, rfl, segment⟩
  | succ position => cases found

theorem loggedDone {width : Width} {instruction : Instruction} {stack : Stack} {index : Nat}
    {rest : List Instruction} {segments : List (List Event)}
    (done : (instruction.run width stack).violation = none)
    (logged : Logged width (index + 1) rest (instruction.run width stack).stack
      (executeFrom width (index + 1) rest (instruction.run width stack).stack) segments) :
    Logged width index (instruction :: rest) stack
      (executeFrom width index (instruction :: rest) stack)
      ((.step index instruction.operation stack.depth :: (instruction.notices width stack ++
        trapNotices index instruction.operation (instruction.run width stack).stack)) ::
          segments) := by
  have before (position : Nat) : run width 0 ((instruction :: rest).take (position + 1)) stack =
      (run width 0 (rest.take position) (instruction.run width stack).stack).later 1 :=
    runConsDone (rest.take position) done
  rw [executeFromDone rest done]
  refine ⟨?_, ?_, fun position events found => ?_⟩
  · simp [logged.events, Execution.ending]
  · have behind (count : Nat) : index + (count + 1) = index + 1 + count := by omega
    exact (behind segments.length).trans
      (logged.count.trans (congrArg (Execution.reached _) (behind rest.length).symm))
  cases position with
  | zero =>
    cases found
    exact ⟨instruction, rfl, rfl,
      .reports (shiftReported width instruction stack) (trapReported index done)⟩
  | succ position =>
    obtain ⟨next, there, opening, segment⟩ := logged.segment position events found
    rw [before]
    refine ⟨next, there, Option.map_eq_none_iff.mpr opening, ?_⟩
    rwa [Nat.add_right_comm] at segment

theorem executeFromLogged (width : Width) (index : Nat) (instructions : List Instruction)
    (stack : Stack) : ∃ segments,
      Logged width index instructions stack (executeFrom width index instructions stack) segments := by
  induction instructions generalizing index stack with
  | nil => exact ⟨[], rfl, rfl, fun _ _ found => by cases found⟩
  | cons instruction rest ih =>
    cases refused : (instruction.run width stack).violation with
    | some violation => exact ⟨_, loggedRefused index rest refused⟩
    | none =>
      obtain ⟨segments, logged⟩ := ih (index + 1) (instruction.run width stack).stack
      exact ⟨_, loggedDone refused logged⟩

example : (executeFrom .i32 0 [.constant 5000000000, .bare .shl] [.number 1]).events =
    [.step 0 .const 1, .step 1 .shl 2, .largeLeftShift 5000000000,
      .violated 1 .shl (.shiftRange 5000000000)] := by rfl

end StackMachine
