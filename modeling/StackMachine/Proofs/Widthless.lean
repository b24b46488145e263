import StackMachine.Proofs.Congruence

/-! Operations that come to the same at both widths. What an operation does is its entry in the
table, so one whose entries at two widths are equal answers the same operands alike; two runs
beside each other, matched by equality, are then the same run, refusals included. Only the
count of leading zeros gets there by way of the modulus, and it looks at no bit above the
narrow width. No operation is left out that could be named here: each of the others is told
apart by one of two stacks. -/
namespace StackMachine

namespace Operation

def widthless : List Operation :=
  [const, and, or, xor, shl, shrS, clz, eqz, eq, ne, ltS, gtS, leS, geS]

theorem actionWidthless {operation : Operation} (listed : operation ∈ widthless) :
    operation.action .i32 = operation.action .i64 := by
  cases operation with
  | clz =>
    have counts : Width.i32.clz = Width.i64.clz :=
      funext fun value => Width.clzCongruent (Int.ModEq.refl value) (by decide)
    exact congrArg Action.unary counts
  | const | and | or | xor | shl | shrS | eqz | eq | ne | ltS | gtS | leS | geS => rfl
  | add | sub | mul | divU | divS | remU | remS | shrU | rotl | rotr | ctz | popcnt | ltU | gtU
  | leU | geU => contradiction

end Operation

theorem Value.Paired.same {left right : Value} (paired : left.Paired Eq right) : left = right := by
  cases paired with
  | number same => rw [same]
  | trap => rfl

theorem Stack.Paired.same {left right : Stack} (paired : left.Paired Eq right) : left = right := by
  induction paired with
  | nil => rfl
  | cons first _ ih => rw [first.same, ih]

theorem Run.Paired.same {left right : Run} (paired : left.Paired Eq right) : left = right := by
  have values := paired.stack.same
  have failures := paired.failure
  cases left
  cases right
  rw [Run.mk.injEq]
  exact ⟨values, failures⟩

theorem Action.alikeItself (action : Action) : Action.Alike Eq action action := by
  intro left right operands
  rw [List.forall₂_eq_eq_eq] at operands
  subst operands
  cases action.answer? left with
  | none => exact .none
  | some answer =>
    cases answer with
    | ok value => exact .some (.ok (Action.equalPaired (fun _ => rfl) rfl))
    | error violation => exact .some (.error violation)

theorem Operation.widthlessRespects {operation : Operation} (listed : operation ∈ widthless) :
    operation.Respects Eq .i32 .i64 := by
  rw [Operation.Respects, actionWidthless listed]
  exact Action.alikeItself _

theorem runToldApart {operation : Operation} (other : operation ∉ Operation.widthless) :
    ∃ stack, run .i32 0 [.bare operation] stack ≠ run .i64 0 [.bare operation] stack := by
  have told : ∀ operation ∈ Operation.all, operation ∉ Operation.widthless →
      ∃ stack ∈ [[Value.number 0x200000000, .number 3], [.number 1, .number 0x200000000]],
        run .i32 0 [.bare operation] stack ≠ run .i64 0 [.bare operation] stack := by decide
  obtain ⟨stack, -, different⟩ := told operation operation.allComplete other
  exact ⟨stack, different⟩

theorem widthUnobservable :
    (∀ instructions : List Instruction,
      (∀ instruction ∈ instructions, instruction.operation ∈ Operation.widthless) →
      ∀ stack, (Program.execute ⟨.i32, instructions⟩ stack).run =
        (Program.execute ⟨.i64, instructions⟩ stack).run) ∧
    ∀ operation ∉ Operation.widthless, ∃ stack,
      (Program.execute ⟨.i32, [.bare operation]⟩ stack).run ≠
        (Program.execute ⟨.i64, [.bare operation]⟩ stack).run := by
  constructor
  · intro instructions operations stack
    have matched : stack.Paired Eq stack :=
      List.forall₂_same.mpr fun _ _ => Action.equalPaired (fun _ => rfl) rfl
    have paired := executePaired (sameProgram (fun _ => rfl) instructions) matched
      fun instruction found => Operation.widthlessRespects (operations instruction found)
    exact paired.same
  · intro operation other
    simp only [executeRun]
    exact runToldApart other

theorem widthUnobservableAtRefusal :
    (Program.execute ⟨.i64, [.constant (-0xFFFFFFFE), .bare .clz, .constant 0x100000000,
      .bare .shl]⟩ [.trap]).run = ⟨[.trap], some ⟨3, .shl, .shiftRange 0x100000000⟩⟩ ∧
    ∃ stack, (Program.execute ⟨.i32, [.bare .ctz]⟩ stack).run ≠
      (Program.execute ⟨.i64, [.bare .ctz]⟩ stack).run := by
  obtain ⟨same, apart⟩ := widthUnobservable
  have narrow : (Program.execute ⟨.i32, [.constant (-0xFFFFFFFE), .bare .clz,
      .constant 0x100000000, .bare .shl]⟩ [.trap]).run =
        ⟨[.trap], some ⟨3, .shl, .shiftRange 0x100000000⟩⟩ := by rfl
  exact ⟨(same _ (by decide) [.trap]).symm.trans narrow, apart .ctz (by decide)⟩

end StackMachine
