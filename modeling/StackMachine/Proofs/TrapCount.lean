import StackMachine.Proofs.Log

/-! A balance of traps. Each instruction adds as many traps to the stack as its segment of
the log reports, which is one at most, and takes none away. Over a whole program the
reports are then the traps that were not there before, whether or not it came to its
end. -/
namespace StackMachine

def Operation.dividing : List Operation := [divU, divS, remU, remS]

theorem Operation.canTrapDivides {operation : Operation} (trapping : operation.canTrap = true) :
    operation ∈ dividing := by
  cases operation with
  | divU | divS | remU | remS => decide
  | _ => contradiction

theorem Stack.trapCountOperands (operands : List Int) (rest : Stack) :
    trapCount (operands.map .number ++ rest) = rest.trapCount := by
  have numbers : (operands.map Value.number).countP Value.isTrap = 0 := by
    refine List.countP_eq_zero.mpr fun value member => ?_
    obtain ⟨operand, -, rfl⟩ := List.mem_map.mp member
    exact Bool.false_ne_true
  rw [trapCount, List.countP_append, numbers, Nat.zero_add, trapCount]

section Balance

variable {width : Width} {index : Nat} {instruction : Instruction} {stack : Stack}
  {outcome : Outcome} {events : List Event}

theorem Transition.trapsAdded (transition : Transition width instruction stack outcome) :
    outcome.stack.trapCount = stack.trapCount +
      if outcome.violation = none ∧ outcome.stack.top? = some .trap then 1 else 0 := by
  cases transition with
  | pushed value => rfl
  | unexpected | missing | underflow | trapped => rfl
  | @answered _ _ value given rest =>
    rw [Stack.trapCountOperands]
    cases value with
    | number value => rfl
    | trap => exact List.countP_cons_of_pos rfl
  | rejected given rest => exact (Stack.trapCountOperands _ rest).symm

theorem TrapReport.balance (report : TrapReport width index instruction stack events) :
    (instruction.run width stack).stack.trapCount =
      stack.trapCount + events.countP Event.isArithmeticTrap := by
  rw [(Transition.ofRun width instruction stack).trapsAdded]
  cases report with
  | pushed trap => rw [trap]; rfl
  | silent other =>
    rw [if_neg fun top => other ((pushesTrapOnTop top.1).mpr top.2)]
    rfl

theorem ShiftReport.trapless (report : ShiftReport instruction stack events) :
    events.countP Event.isArithmeticTrap = 0 := by
  cases report <;> rfl

theorem Segment.reported {reported : Nat} {operation : Operation}
    (segment : Segment width index instruction stack events)
    (found : .arithmeticTrap reported operation ∈ events) :
    reported = index ∧ operation = instruction.operation ∧
      instruction.PushesTrap width stack := by
  cases segment with
  | reports shifted trapped =>
    rcases List.mem_cons.mp found with step | found
    · cases step
    rcases List.mem_append.mp found with shift | trap
    · cases shifted with
      | far shifts => cases List.mem_singleton.mp shift
      | silent near => cases shift
    · cases trapped with
      | pushed pushes => cases List.mem_singleton.mp trap; exact ⟨rfl, rfl, pushes⟩
      | silent other => cases trap

theorem Execution.endingOther (execution : Execution) {operation : Operation} :
    execution.ending width ≠ .arithmeticTrap index operation := by
  unfold ending
  split <;> exact Event.noConfusion

theorem executeFromBalance (width : Width) (index : Nat) (instructions : List Instruction)
    (stack : Stack) :
    (executeFrom width index instructions stack).stack.trapCount = stack.trapCount +
      (executeFrom width index instructions stack).events.countP Event.isArithmeticTrap := by
  induction instructions generalizing index stack with
  | nil => rfl
  | cons instruction rest ih =>
    have shift := (shiftReported width instruction stack).trapless
    cases refused : (instruction.run width stack).violation with
    | some violation =>
      have balance := (trapSilent index refused).balance
      rw [executeFromRefused rest refused]
      simpa [shift, Event.isArithmeticTrap] using balance
    | none =>
      have balance := (trapReported index refused).balance
      have opening (events : List Event) :
          (Event.step index instruction.operation stack.depth :: (instruction.notices width stack ++
            events)).countP Event.isArithmeticTrap = events.countP Event.isArithmeticTrap := by
        rw [List.countP_cons_of_neg Bool.false_ne_true, List.countP_append, shift, Nat.zero_add]
      rw [executeFromDone rest refused]
      simp only [List.countP_append, opening, ih, balance, Nat.add_assoc]

theorem executeFromReported {width : Width} {index : Nat} {instructions : List Instruction}
    {stack : Stack} {reported : Nat} {operation : Operation}
    (found : .arithmeticTrap reported operation ∈ (executeFrom width index instructions stack).events) :
    ∃ position instruction, reported = index + position ∧
      instructions[position]? = some instruction ∧ operation = instruction.operation ∧
      operation.canTrap = true := by
  obtain ⟨segments, logged⟩ := executeFromLogged width index instructions stack
  rw [logged.events] at found
  rcases List.mem_append.mp found with inside | last
  · obtain ⟨events, member, found⟩ := List.mem_flatten.mp inside
    obtain ⟨position, there⟩ := List.mem_iff_getElem?.mp member
    obtain ⟨instruction, placed, -, segment⟩ := logged.segment position events there
    obtain ⟨rfl, rfl, pushes⟩ := segment.reported found
    exact ⟨position, instruction, rfl, placed, rfl, pushes.canTrap⟩
  · exact absurd (List.mem_singleton.mp last).symm (Execution.endingOther _)

theorem Call.otherKeepsTraps (width : Width) {call : Call}
    (other : call.instruction.operation ∉ Operation.dividing) (stack : Stack) :
    (call.perform width stack).stack.trapCount = stack.trapCount := by
  have transition := Transition.ofRun width call.instruction stack
  rw [call.performInstruction, transition.trapsAdded, if_neg, Nat.add_zero]
  exact fun top => other (Operation.canTrapDivides (transition.trapOnTop top.1 top.2))

end Balance

theorem trapsAccounted (program : Program) (stack : Stack) :
    let execution := program.execute stack
    (execution.events.countP Event.isArithmeticTrap : Int) =
        execution.stack.trapCount - stack.trapCount ∧
      (∀ index operation, .arithmeticTrap index operation ∈ execution.events →
        ∃ instruction, program.instructions[index]? = some instruction ∧
          instruction.operation = operation ∧ operation ∈ Operation.dividing) ∧
      ∀ (width : Width) (call : Call) (before : Stack),
        call.instruction.operation ∉ Operation.dividing →
        (call.perform width before).stack.trapCount = before.trapCount := by
  refine ⟨?_, fun index operation found => ?_, fun width call before other =>
    call.otherKeepsTraps width other before⟩
  · have balance := executeFromBalance program.width 0 program.instructions stack
    have counted : (program.execute stack).events.countP Event.isArithmeticTrap =
        (executeFrom program.width 0 program.instructions stack).events.countP
          Event.isArithmeticTrap := List.countP_cons_of_neg Bool.false_ne_true
    rw [counted]
    change _ = ((executeFrom program.width 0 program.instructions stack).stack.trapCount : Int) - _
    omega
  · rcases List.mem_cons.mp found with first | later
    · cases first
    obtain ⟨position, instruction, rfl, placed, rfl, trapping⟩ := executeFromReported later
    rw [Nat.zero_add]
    exact ⟨instruction, placed, rfl, Operation.canTrapDivides trapping⟩

theorem trapsAccountedBesideOlder :
    let program : Program := ⟨.i64, [.constant 0, .constant 44, .bare .divU, .bare .add]⟩
    .arithmeticTrap 2 .divU ∈ (program.execute [.trap]).events ∧
      (∃ instruction, program.instructions[2]? = some instruction ∧
        instruction.operation = .divU ∧ .divU ∈ Operation.dividing) ∧
      .add ∉ Operation.dividing ∧
      ((Call.apply .add).perform .i64 [.trap, .number 44]).stack.trapCount = 1 := by
  intro program
  have reported : .arithmeticTrap 2 .divU ∈ (program.execute [.trap]).events :=
    List.mem_cons_of_mem _ (by decide)
  have accounted := (trapsAccounted program [.trap]).2
  have other : Operation.add ∉ Operation.dividing := by decide
  exact ⟨reported, accounted.1 2 .divU reported, other,
    (accounted.2 .i64 (.apply .add) [.trap, .number 44] other).trans (by rfl)⟩

end StackMachine
