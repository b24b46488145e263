import StackMachine.Execution
import StackMachine.Proofs.Transition

/-! A trap is never taken off a stack, and nothing beneath it is reached. Both follow from
one invariant: what lies from the topmost trap downwards stays at the bottom, whichever
calls are made and whichever of them are refused. -/
namespace StackMachine

namespace Stack

def shielded (stack : Stack) : Stack := stack.dropWhile (fun value => !value.isTrap)

theorem shieldedSuffix (stack : Stack) : stack.shielded <:+ stack := List.dropWhile_suffix _

theorem shieldedOperands (operands : List Int) (rest : Stack) :
    shielded (operands.map .number ++ rest) = rest.shielded := by
  refine List.dropWhile_append_of_pos fun value member => ?_
  obtain ⟨operand, -, rfl⟩ := List.mem_map.mp member
  rfl

theorem shieldedBelow (above below : Stack) : below.shielded <:+ shielded (above ++ below) := by
  simp only [shielded, List.dropWhile_append]
  split
  · exact List.suffix_refl _
  · exact (shieldedSuffix below).trans (List.suffix_append _ _)

theorem shieldedMono {before after : Stack} (suffix : before <:+ after) :
    before.shielded <:+ after.shielded := by
  obtain ⟨above, rfl⟩ := suffix
  exact shieldedBelow above before

theorem shieldedSplit (stack : Stack) :
    ∃ above : Stack, stack = above ++ stack.shielded ∧ .trap ∉ above := by
  refine ⟨stack.takeWhile (fun value => !value.isTrap), List.takeWhile_append_dropWhile.symm, ?_⟩
  intro trap
  have number := List.all_eq_true.mp List.all_takeWhile _ trap
  contradiction

end Stack

structure Shields (earlier later : Stack) : Prop where
  kept : earlier.shielded.bottomFirst <+: later.bottomFirst
  depth : earlier.shielded.depth ≤ later.depth
  traps : ∀ position : Nat, earlier.bottomFirst[position]? = some .trap →
    later.bottomFirst[position]? = some .trap

theorem shieldsOfSuffix {earlier later : Stack} (suffix : earlier.shielded <:+ later) :
    Shields earlier later := by
  refine ⟨List.reverse_prefix.mpr suffix, suffix.length_le, fun position found => ?_⟩
  obtain ⟨above, whole, clean⟩ := earlier.shieldedSplit
  obtain ⟨added, rfl⟩ := suffix
  rw [whole, Stack.bottomFirst, List.reverse_append] at found
  rw [Stack.bottomFirst, List.reverse_append]
  rcases Nat.lt_or_ge position earlier.shielded.reverse.length with inside | outside
  · rwa [List.getElem?_append_left inside] at found ⊢
  · rw [List.getElem?_append_right outside] at found
    exact absurd (List.mem_reverse.mp (List.mem_of_getElem? found)) clean

namespace Action

variable {operands : List Int}

theorem unaryUntrapped {result : Int → Int} :
    (unary result).answer? operands ≠ some (.ok .trap) := by
  intro given
  obtain ⟨value, -, same⟩ := answerUnary given
  cases same

theorem numberUntrapped {result : Int → Int → Int} :
    (number result).answer? operands ≠ some (.ok .trap) := by
  intro given
  obtain ⟨top, second, -, same⟩ := answerBinary given
  cases same

theorem truthUntrapped {result : Int → Int → Bool} :
    (truth result).answer? operands ≠ some (.ok .trap) := by
  intro given
  obtain ⟨top, second, -, same⟩ := answerBinary given
  cases same

theorem shiftUntrapped {result : Int → Int → Except Violation Int} :
    (shift result).answer? operands ≠ some (.ok .trap) := by
  intro given
  obtain ⟨amount, value, -, same⟩ := answerBinary given
  cases moved : result value amount <;> simp [moved, Except.map] at same

end Action

theorem Operation.answerTrap {operation : Operation} {width : Width} {operands : List Int}
    (given : (operation.action width).answer? operands = some (.ok .trap)) :
    operation.canTrap = true := by
  cases operation with
  | divU | divS | remU | remS => rfl
  | const => exact absurd given (by simp [action, entry, Entry.silent, Action.answerImmediate])
  | add | sub | mul | and | or | xor => exact absurd given Action.numberUntrapped
  | shl | shrU | shrS | rotl | rotr => exact absurd given Action.shiftUntrapped
  | clz | ctz | popcnt | eqz => exact absurd given Action.unaryUntrapped
  | eq | ne | ltU | ltS | gtU | gtS | leU | leS | geU | geS =>
    exact absurd given Action.truthUntrapped

def Call.instruction : Call → Instruction
  | run instruction => instruction
  | apply operation => .bare operation

theorem Call.performInstruction (width : Width) (call : Call) (stack : Stack) :
    call.perform width stack = call.instruction.run width stack := by
  cases call with
  | run instruction => rfl
  | apply operation => exact (Instruction.runBare width operation stack).symm

theorem Transition.shielded {width : Width} {instruction : Instruction} {stack : Stack}
    {outcome : Outcome} (transition : Transition width instruction stack outcome) :
    stack.shielded <:+ outcome.stack.shielded := by
  cases transition with
  | pushed value => exact Stack.shieldedMono (List.suffix_cons _ _)
  | unexpected other value => exact List.suffix_refl _
  | missing => exact List.suffix_refl _
  | underflow short => exact List.suffix_refl _
  | trapped enough trap => exact List.suffix_refl _
  | answered given rest =>
    rw [Stack.shieldedOperands]
    exact Stack.shieldedMono (List.suffix_cons _ _)
  | rejected given rest =>
    rw [Stack.shieldedOperands]
    exact List.suffix_refl _

theorem Call.performShielded (width : Width) (call : Call) (stack : Stack) :
    stack.shielded <:+ (call.perform width stack).stack.shielded := by
  cases call with
  | run instruction => exact (Transition.ofRun width instruction stack).shielded
  | apply operation => exact (Transition.ofApply width operation stack).shielded

theorem performEachShielded (width : Width) (calls : List Call) (stack : Stack) :
    ∀ outcome ∈ performEach width calls stack, stack.shielded <:+ outcome.stack.shielded := by
  induction calls generalizing stack with
  | nil => simp [performEach]
  | cons call rest ih =>
    have first := call.performShielded width stack
    intro outcome member
    rcases List.mem_cons.mp member with rfl | later
    · exact first
    · exact first.trans (ih _ outcome later)

theorem performEachPairwise (width : Width) (calls : List Call) (stack : Stack) :
    (stack :: (performEach width calls stack).map Outcome.stack).Pairwise
      (fun earlier later => earlier.shielded <:+ later.shielded) := by
  induction calls generalizing stack with
  | nil => exact List.pairwise_singleton _ _
  | cons call rest ih =>
    refine List.pairwise_cons.mpr ⟨fun later member => ?_, ih _⟩
    obtain ⟨outcome, found, rfl⟩ := List.mem_map.mp member
    exact performEachShielded width (call :: rest) stack outcome found

theorem trapsShield (width : Width) (calls : List Call) (stack : Stack) :
    (stack :: (performEach width calls stack).map Outcome.stack).Pairwise Shields :=
  (performEachPairwise width calls stack).imp fun {_ later} suffix =>
    shieldsOfSuffix (suffix.trans later.shieldedSuffix)

end StackMachine
