import StackMachine.Proofs.Transition

/-! Why an instruction is refused, and what is left of the stack. The causes are looked for
in a fixed order: the written form first, then the depth, then the traps among the
operands. What is refused for one of these has taken nothing. Only then do the numbers
count; a division or a shift that cannot use them has taken both already. -/
namespace StackMachine

def Violation.isEarly : Violation → Bool
  | missingImmediate | unexpectedImmediate .. | stackUnderflow .. | trapOperand .. => true
  | _ => false

inductive Operation.Refuses (width : Width) : Operation → Violation → Prop where
  | reading {operation : Operation} (divides : operation ∈ [divS, remS]) (value : Int) :
      Refuses width operation (.signedRange value width)
  | distance {operation : Operation} (shifts : operation ∈ [shl, shrU, shrS, rotl, rotr])
      (amount : Int) : Refuses width operation (.shiftRange amount)

structure Outcome.Decided (width : Width) (instruction : Instruction) (stack : Stack)
    (outcome : Outcome) : Prop where
  missing : outcome.violation = some .missingImmediate ↔ instruction = .bare .const
  unexpected : ∀ operation, outcome.violation = some (.unexpectedImmediate operation) ↔
    operation ≠ .const ∧ ∃ value, instruction = ⟨operation, some value⟩
  underflow : ∀ operation needed depth,
    outcome.violation = some (.stackUnderflow operation needed depth) ↔
      instruction = .bare operation ∧ needed = operation.arity ∧ depth = stack.depth ∧
        depth < needed
  trapped : ∀ operation, outcome.violation = some (.trapOperand operation) ↔
    instruction = .bare operation ∧ operation.arity ≤ stack.depth ∧
      .trap ∈ stack.take operation.arity
  early : ∀ violation ∈ outcome.violation, violation.isEarly = true → outcome.stack = stack
  late : ∀ violation ∈ outcome.violation, violation.isEarly = false →
    instruction.operation.Refuses width violation ∧ 2 ≤ stack.depth ∧
      outcome.stack = stack.drop 2
  pushed : outcome.violation = none → instruction.operation.arity ≤ stack.depth ∧
    ∃ value, outcome.stack = value :: stack.drop instruction.operation.arity

theorem refusedBefore {α β : Type} {result : α → β} {answer : Except Violation α}
    {violation : Violation} (refused : answer.map result = .error violation) :
    answer = .error violation := by
  cases answer with
  | ok value => cases refused
  | error cause => cases refused; rfl

namespace Width

variable {width : Width} {top second : Int} {violation : Violation}

theorem divSReadings (width : Width) (top second : Int) :
    width.divS top second = (width.signedOperands top second).map fun readings =>
      width.quotient readings.1 readings.2 := by
  unfold divS
  cases width.signedOperands top second <;> rfl

theorem remSReadings (width : Width) (top second : Int) :
    width.remS top second = (width.signedOperands top second).map fun readings =>
      remainder readings.1 readings.2 := by
  unfold remS
  cases width.signedOperands top second <;> rfl

theorem readingsRefusal {result : Int × Int → Value}
    (refused : (width.signedOperands top second).map result = .error violation) :
    ∃ operand, violation = .signedRange operand width := by
  rcases width.signedOperandsError (refusedBefore refused) with ⟨same, -⟩ | ⟨same, -⟩
  · exact ⟨top, same⟩
  · exact ⟨second, same⟩

end Width

namespace Action

variable {operands : List Int} {violation : Violation}

theorem unaryAccepts {result : Int → Int} :
    (unary result).answer? operands ≠ some (.error violation) := by
  intro given
  obtain ⟨value, -, same⟩ := answerUnary given
  cases same

theorem valueAccepts {result : Int → Int → Value} :
    (binary fun top second => .ok (result top second)).answer? operands ≠
      some (.error violation) := by
  intro given
  obtain ⟨top, second, -, same⟩ := answerBinary given
  cases same

theorem shiftRefusal {result : Int → Int → Except Violation Int}
    (given : (shift result).answer? operands = some (.error violation)) :
    ∃ amount value, result value amount = .error violation := by
  obtain ⟨amount, value, -, same⟩ := answerBinary given
  exact ⟨amount, value, refusedBefore same.symm⟩

end Action

theorem Operation.answerRefusal {operation : Operation} {width : Width} {operands : List Int}
    {violation : Violation}
    (given : (operation.action width).answer? operands = some (.error violation)) :
    operation.Refuses width violation ∧ operation.arity = 2 := by
  cases operation with
  | const => exact absurd given (by simp [action, entry, Entry.silent, Action.answerImmediate])
  | add | sub | mul | and | or | xor => exact absurd given Action.valueAccepts
  | divU | remU => exact absurd given Action.valueAccepts
  | clz | ctz | popcnt | eqz => exact absurd given Action.unaryAccepts
  | eq | ne | ltU | ltS | gtU | gtS | leU | leS | geU | geS =>
    exact absurd given Action.valueAccepts
  | divS =>
    obtain ⟨top, second, -, same⟩ := Action.answerBinary given
    rw [Width.divSReadings] at same
    obtain ⟨value, rfl⟩ := Width.readingsRefusal same.symm
    exact ⟨.reading (by decide) value, rfl⟩
  | remS =>
    obtain ⟨top, second, -, same⟩ := Action.answerBinary given
    rw [Width.remSReadings] at same
    obtain ⟨value, rfl⟩ := Width.readingsRefusal same.symm
    exact ⟨.reading (by decide) value, rfl⟩
  | shl =>
    obtain ⟨amount, value, refused⟩ := Action.shiftRefusal given
    obtain ⟨-, rfl⟩ := (Shift.leftError _ _ _).mp refused
    exact ⟨.distance (by decide) amount, rfl⟩
  | shrU | shrS =>
    obtain ⟨amount, value, refused⟩ := Action.shiftRefusal given
    obtain ⟨-, rfl⟩ := (Shift.rightError _ _ _).mp refused
    exact ⟨.distance (by decide) amount, rfl⟩
  | rotl =>
    obtain ⟨amount, value, refused⟩ := Action.shiftRefusal given
    obtain ⟨-, rfl⟩ := Width.rotlError.mp refused
    exact ⟨.distance (by decide) amount, rfl⟩
  | rotr =>
    obtain ⟨amount, value, refused⟩ := Action.shiftRefusal given
    rcases Width.rotrError.mp refused with ⟨-, rfl⟩ | ⟨-, -, rfl⟩
    · exact ⟨.distance (by decide) amount, rfl⟩
    · exact ⟨.distance (by decide) _, rfl⟩

theorem Stack.dropOperands {operands : List Int} {count : Nat} (taken : operands.length = count)
    (rest : Stack) : (operands.map Value.number ++ rest).drop count = rest :=
  List.drop_left' (by rw [List.length_map, taken])

theorem Stack.depthOperands {operands : List Int} {count : Nat} (taken : operands.length = count)
    (rest : Stack) : count ≤ Stack.depth (operands.map Value.number ++ rest) := by
  rw [depth, List.length_append, List.length_map, taken]
  exact Nat.le_add_right _ _

namespace Transition

variable {width : Width} {instruction : Instruction} {stack : Stack} {outcome : Outcome}
  {violation : Violation}

theorem pushesOne (transition : Transition width instruction stack outcome)
    (done : outcome.violation = none) : instruction.operation.arity ≤ stack.depth ∧
      ∃ value, outcome.stack = value :: stack.drop instruction.operation.arity := by
  cases transition with
  | pushed value => exact ⟨Nat.zero_le _, _, rfl⟩
  | answered given rest =>
    have taken := Operation.answerTaken given
    exact ⟨Stack.depthOperands taken rest, _, congrArg _ (Stack.dropOperands taken rest).symm⟩
  | unexpected | missing | underflow | trapped | rejected => cases done

theorem earlyKeeps (transition : Transition width instruction stack outcome)
    (found : outcome.violation = some violation) (early : violation.isEarly = true) :
    outcome.stack = stack := by
  cases transition with
  | pushed | answered => cases found
  | unexpected | missing | underflow | trapped => rfl
  | rejected given rest =>
    cases found
    obtain ⟨refuses, -⟩ := Operation.answerRefusal given
    cases refuses <;> contradiction

theorem lateTakes (transition : Transition width instruction stack outcome)
    (found : outcome.violation = some violation) (late : violation.isEarly = false) :
    instruction.operation.Refuses width violation ∧ 2 ≤ stack.depth ∧
      outcome.stack = stack.drop 2 := by
  cases transition with
  | pushed | answered => cases found
  | unexpected | missing | underflow | trapped => cases found; contradiction
  | rejected given rest =>
    cases found
    obtain ⟨refuses, two⟩ := Operation.answerRefusal given
    have taken := (Operation.answerTaken given).trans two
    exact ⟨refuses, Stack.depthOperands taken rest, (Stack.dropOperands taken rest).symm⟩

theorem unique {other : Outcome} (first : Transition width instruction stack outcome)
    (second : Transition width instruction stack other) : outcome = other :=
  first.toRun.symm.trans second.toRun

theorem missingExactly (transition : Transition width instruction stack outcome) :
    outcome.violation = some .missingImmediate ↔ instruction = .bare .const := by
  constructor
  · intro found
    cases transition with
    | missing => rfl
    | rejected given rest => cases found; cases (Operation.answerRefusal given).1
    | pushed | unexpected | underflow | trapped | answered => cases found
  · rintro rfl
    rw [transition.unique (.missing stack), Outcome.refused]

theorem unexpectedExactly (transition : Transition width instruction stack outcome)
    (operation : Operation) : outcome.violation = some (.unexpectedImmediate operation) ↔
      operation ≠ .const ∧ ∃ value, instruction = ⟨operation, some value⟩ := by
  constructor
  · intro found
    cases transition with
    | unexpected other value => cases found; exact ⟨other, value, rfl⟩
    | rejected given rest => cases found; cases (Operation.answerRefusal given).1
    | pushed | missing | underflow | trapped | answered => cases found
  · rintro ⟨other, value, rfl⟩
    rw [transition.unique (.unexpected other value stack), Outcome.refused]

theorem underflowExactly (transition : Transition width instruction stack outcome)
    (operation : Operation) (needed depth : Nat) :
    outcome.violation = some (.stackUnderflow operation needed depth) ↔
      instruction = .bare operation ∧ needed = operation.arity ∧ depth = stack.depth ∧
        depth < needed := by
  constructor
  · intro found
    cases transition with
    | underflow short => cases found; exact ⟨rfl, rfl, rfl, short⟩
    | rejected given rest => cases found; cases (Operation.answerRefusal given).1
    | pushed | unexpected | missing | trapped | answered => cases found
  · rintro ⟨rfl, rfl, rfl, short⟩
    rw [transition.unique (.underflow short), Outcome.refused]

theorem trappedExactly (transition : Transition width instruction stack outcome)
    (operation : Operation) : outcome.violation = some (.trapOperand operation) ↔
      instruction = .bare operation ∧ operation.arity ≤ stack.depth ∧
        .trap ∈ stack.take operation.arity := by
  constructor
  · intro found
    cases transition with
    | trapped enough trap => cases found; exact ⟨rfl, enough, trap⟩
    | rejected given rest => cases found; cases (Operation.answerRefusal given).1
    | pushed | unexpected | missing | underflow | answered => cases found
  · rintro ⟨rfl, enough, trap⟩
    rw [transition.unique (.trapped enough trap), Outcome.refused]

end Transition

theorem outcomeDecided (width : Width) (instruction : Instruction) (stack : Stack) :
    (instruction.run width stack).Decided width instruction stack := by
  have transition := Transition.ofRun width instruction stack
  exact {
    missing := transition.missingExactly
    unexpected := transition.unexpectedExactly
    underflow := transition.underflowExactly
    trapped := transition.trappedExactly
    early := fun _ found early => transition.earlyKeeps found early
    late := fun _ found late => transition.lateTakes found late
    pushed := transition.pushesOne }

end StackMachine
