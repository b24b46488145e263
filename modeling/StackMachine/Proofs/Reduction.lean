import StackMachine.Proofs.Congruence
import StackMachine.Proofs.Residues

/-! Sums, differences and products reduced at every step, beside the same program over the
exact integers. What the exact program would leave differs from the reduced values by
multiples of the modulus, however deep the operations are nested, and not at all once
it is reduced itself, if nothing but residues went in. -/
namespace StackMachine

inductive Combination where
  | sum
  | difference
  | product
  deriving DecidableEq, Repr

namespace Combination

def operation : Combination → Operation
  | sum => .add
  | difference => .sub
  | product => .mul

def exact : Combination → Int → Int → Int
  | sum, top, second => top + second
  | difference, top, second => top - second
  | product, top, second => top * second

def reduced (width : Width) : Combination → Int → Int → Int
  | sum => width.add
  | difference => width.sub
  | product => width.mul

variable {width : Width} {combination : Combination} {top second exactTop exactSecond : Int}

theorem operationArity (combination : Combination) : combination.operation.arity = 2 := by
  cases combination <;> rfl

theorem reducedBounds (width : Width) (combination : Combination) (top second : Int) :
    -width.modulus < combination.reduced width top second ∧
      combination.reduced width top second < width.modulus := by
  cases combination <;> exact width.truncatedRange _

theorem reducedCongruent (first : top ≡ exactTop [ZMOD width.modulus])
    (next : second ≡ exactSecond [ZMOD width.modulus]) :
    combination.reduced width top second ≡ combination.exact exactTop exactSecond
      [ZMOD width.modulus] := by
  have truncated (value : Int) : value.tmod width.modulus ≡ value [ZMOD width.modulus] :=
    Width.truncatedCongruent (Nat.le_refl _) value
  cases combination with
  | sum => exact (truncated _).trans (first.add next)
  | product => exact (truncated _).trans (first.mul next)
  | difference =>
    have nothing : width.modulus ≡ 0 [ZMOD width.modulus] := Int.modulus_modEq_zero
    have lifted := (first.sub next).add nothing
    rw [add_zero] at lifted
    exact (truncated _).trans lifted

theorem reducedResidue (first : width.IsResidue top) (next : width.IsResidue second) :
    width.IsResidue (combination.reduced width top second) := by
  cases combination with
  | sum => exact Width.addResidue first next
  | difference => exact Width.subResidue first next
  | product => exact Width.mulResidue first next

theorem reducedExact (combination : Combination) (first : top = width.residue exactTop)
    (next : second = width.residue exactSecond) :
    combination.reduced width top second = width.residue (combination.exact exactTop exactSecond) := by
  subst first next
  have kept : width.IsResidue (combination.reduced width _ _) :=
    reducedResidue (width.residueRange exactTop) (width.residueRange exactSecond)
  rw [← width.residueFixed kept.1 kept.2, Width.residueEqual]
  exact reducedCongruent (width.residueCongruent exactTop) (width.residueCongruent exactSecond)

end Combination

inductive Step where
  | push (value : Int)
  | combine (combination : Combination)
  deriving DecidableEq, Repr

def Step.instruction : Step → Instruction
  | push value => .constant value
  | combine combination => .bare combination.operation

/-- The run over the exact integers. It reduces nothing and stops for a lack of operands only. -/
def exactRun (index : Nat) : List Step → List Int → Run
  | [], stack => ⟨stack.map .number, none⟩
  | .push value :: rest, stack => exactRun (index + 1) rest (value :: stack)
  | .combine combination :: rest, top :: second :: below =>
    exactRun (index + 1) rest (combination.exact top second :: below)
  | .combine combination :: _, stack =>
    ⟨stack.map .number, some ⟨index, combination.operation,
      .stackUnderflow combination.operation 2 stack.length⟩⟩

def Value.residue (width : Width) : Value → Value
  | number value => .number (width.residue value)
  | trap => .trap

def Run.residues (width : Width) (run : Run) : Run :=
  { run with stack := run.stack.map (Value.residue width) }

section Steps

variable {width : Width} {index : Nat}

theorem runCombined (combination : Combination) (top second : Int) (below : Stack)
    (rest : List Instruction) :
    run width index (.bare combination.operation :: rest) (.number top :: .number second :: below) =
      run width (index + 1) rest (.number (combination.reduced width top second) :: below) := by
  cases combination <;> rfl

theorem runShort (combination : Combination) {stack : List Int} (short : stack.length < 2)
    (rest : List Instruction) :
    run width index (.bare combination.operation :: rest) (stack.map .number) =
      ⟨stack.map .number, some ⟨index, combination.operation,
        .stackUnderflow combination.operation 2 stack.length⟩⟩ := by
  have depth : Stack.depth (stack.map .number) = stack.length := List.length_map _
  have refused : width.apply combination.operation (stack.map .number) = .refused _ _ :=
    Width.applyUnderflow (by rw [depth, combination.operationArity]; exact short)
  rw [depth, combination.operationArity] at refused
  simp only [run, Instruction.runBare, refused, Outcome.refused]
  rfl

theorem exactRunShort (combination : Combination) {stack : List Int} (short : stack.length < 2)
    (rest : List Step) : exactRun index (.combine combination :: rest) stack =
      ⟨stack.map .number, some ⟨index, combination.operation,
        .stackUnderflow combination.operation 2 stack.length⟩⟩ := by
  match stack, short with
  | [], _ => rfl
  | [_], _ => rfl

end Steps

section Runs

variable {width : Width} {steps : List Step} {related : Int → Int → Prop}

theorem pairedNumbers {stack beside : List Int} (matched : List.Forall₂ related stack beside) :
    Stack.Paired related (stack.map .number) (beside.map .number) :=
  List.rel_map (fun _ _ same => Value.Paired.number same) matched

theorem runBesideExact
    (kept : ∀ (combination : Combination) {top exactTop second exactSecond : Int},
      related top exactTop → related second exactSecond →
      related (combination.reduced width top second) (combination.exact exactTop exactSecond))
    (constants : ∀ value, .push value ∈ steps → related value value) {stack beside : List Int}
    (matched : List.Forall₂ related stack beside) (index : Nat) :
    (run width index (steps.map Step.instruction) (stack.map .number)).Paired related
      (exactRun index steps beside) := by
  induction steps generalizing stack beside index with
  | nil => exact ⟨pairedNumbers matched, rfl⟩
  | cons step rest ih =>
    have later := fun value found => constants value (List.mem_cons_of_mem step found)
    cases step with
    | push value =>
      exact ih later (.cons (constants value List.mem_cons_self) matched) (index + 1)
    | combine combination =>
      rw [List.map_cons, Step.instruction]
      match matched with
      | .nil =>
        rw [runShort combination (by simp), exactRunShort combination (by simp)]
        exact ⟨.nil, rfl⟩
      | .cons single .nil =>
        rw [runShort combination (by simp), exactRunShort combination (by simp)]
        exact ⟨pairedNumbers (.cons single .nil), rfl⟩
      | .cons first (.cons next deeper) =>
        rw [List.map_cons, List.map_cons, runCombined]
        exact ih later (.cons (kept combination first next) deeper) (index + 1)

theorem exactRunUnderflow {index : Nat} {stack : List Int} {failure : Failure}
    (failed : (exactRun index steps stack).failure = some failure) :
    ∃ depth, failure.violation = .stackUnderflow failure.operation 2 depth := by
  induction steps generalizing index stack with
  | nil => contradiction
  | cons step rest ih =>
    cases step with
    | push value => exact ih failed
    | combine combination =>
      match stack with
      | [] | [_] => cases failed; exact ⟨_, rfl⟩
      | top :: second :: below => exact ih failed

theorem pairedResidues {stack beside : Stack}
    (matched : stack.Paired (fun value exact => value = width.residue exact) beside) :
    stack = beside.map (Value.residue width) := by
  induction matched with
  | nil => rfl
  | cons first _ ih =>
    rw [List.map_cons, ← ih]
    cases first with
    | number same => rw [same]; rfl
    | trap => rfl

theorem combinedBounds (combination : Combination) {index : Nat} {stack : Stack}
    (done : (run width index [.bare combination.operation] stack).failure = none) :
    ∃ value, (run width index [.bare combination.operation] stack).stack.top? =
        some (.number value) ∧ -width.modulus < value ∧ value < width.modulus := by
  match stack, done with
  | .number top :: .number second :: below, _ =>
    rw [runCombined]
    exact ⟨_, rfl, combination.reducedBounds width top second⟩
  | [], done | [.number _], done | [.trap], done | .trap :: _ :: _, done
  | .number _ :: .trap :: _, done =>
    cases combination <;> contradiction

theorem frontBounds {front : List Instruction} (combination : Combination) {index : Nat}
    {stack : Stack}
    (done : (run width index (front ++ [.bare combination.operation]) stack).failure = none) :
    ∃ value, (run width index (front ++ [.bare combination.operation]) stack).stack.top? =
        some (.number value) ∧ -width.modulus < value ∧ value < width.modulus := by
  have before := runFrontDone done
  rw [runAppendDone before] at done ⊢
  exact combinedBounds combination done

theorem runCongruentExact (width : Width) (index : Nat) (steps : List Step) (stack : List Int) :
    (run width index (steps.map Step.instruction) (stack.map .number)).Paired
      (Int.ModEq width.modulus) (exactRun index steps stack) :=
  runBesideExact (fun _ => Combination.reducedCongruent) (fun _ _ => .refl _)
    (List.forall₂_same.mpr fun _ _ => .refl _) index

theorem runResiduesExact {stack : List Int} (residues : ∀ value ∈ stack, width.IsResidue value)
    (constants : ∀ value, .push value ∈ steps → width.IsResidue value) (index : Nat) :
    run width index (steps.map Step.instruction) (stack.map .number) =
      (exactRun index steps stack).residues width := by
  have fixed {value : Int} (residue : width.IsResidue value) : value = width.residue value :=
    (width.residueFixed residue.1 residue.2).symm
  have paired : (run width index (steps.map Step.instruction) (stack.map .number)).Paired
      (fun value exact => value = width.residue exact) (exactRun index steps stack) :=
    runBesideExact (fun combination => combination.reducedExact)
      (fun value found => fixed (constants value found))
      (List.forall₂_same.mpr fun value found => fixed (residues value found)) index
  rw [Run.residues, ← pairedResidues paired.stack, ← paired.failure]

end Runs

theorem Width.addThenSub {width : Width} {left right : Int} (first : width.IsResidue left)
    (second : width.IsResidue right) : width.sub (width.add right left) right = left := by
  have fixed := width.residueFixed second.1 second.2
  have sum : width.add right left = width.residue (right + left) :=
    Combination.sum.reducedExact fixed.symm (width.residueFixed first.1 first.2).symm
  have difference : width.sub (width.add right left) right = width.residue (right + left - right) :=
    Combination.difference.reducedExact sum fixed.symm
  rw [difference, add_sub_cancel_left, width.residueFixed first.1 first.2]

theorem runAddThenSub {width : Width} {left right : Int} (first : width.IsResidue left)
    (second : width.IsResidue right) (index : Nat) (rest : Stack) :
    run width index [.constant right, .constant left, .constant right, .bare .add, .bare .sub] rest =
      ⟨.number left :: rest, none⟩ := by
  have restored : run width index [.constant right, .constant left, .constant right, .bare .add,
      .bare .sub] rest = ⟨.number (width.sub (width.add right left) right) :: rest, none⟩ := by rfl
  rw [restored, Width.addThenSub first second]

theorem wrappingExact (width : Width) (steps : List Step) (stack : List Int) :
    let execution (steps : List Step) :=
      Program.execute ⟨width, steps.map Step.instruction⟩ (stack.map .number)
    (execution steps).run.Paired (Int.ModEq width.modulus) (exactRun 0 steps stack) ∧
    (∀ failure, (execution steps).failure = some failure →
      ∃ depth, failure.violation = .stackUnderflow failure.operation 2 depth) ∧
    (∀ front combination, front ++ [.combine combination] <+: steps →
      (execution (front ++ [.combine combination])).failure = none →
      ∃ value, (execution (front ++ [.combine combination])).stack.top? = some (.number value) ∧
        -width.modulus < value ∧ value < width.modulus) ∧
    ((∀ value ∈ stack, width.IsResidue value) →
      (∀ value, .push value ∈ steps → width.IsResidue value) →
      (execution steps).run = (exactRun 0 steps stack).residues width) ∧
    ∀ left right, width.IsResidue left → width.IsResidue right → ∀ rest : Stack,
      (Program.execute ⟨width, [.constant right, .constant left, .constant right, .bare .add,
        .bare .sub]⟩ rest).run = ⟨.number left :: rest, none⟩ := by
  intro execution
  simp only [execution, executeRun, executeFailure, executeStack]
  have congruent := runCongruentExact width 0 steps stack
  refine ⟨congruent, fun failure failed => ?_, fun front combination _ done => ?_,
    fun residues constants => runResiduesExact residues constants 0,
    fun left right first second rest => runAddThenSub first second 0 rest⟩
  · exact exactRunUnderflow (congruent.failure.symm.trans failed)
  · rw [List.map_append] at done ⊢
    exact frontBounds combination done

theorem wrappingExactBelowZero :
    (Program.execute ⟨.i32, [Step.push 1, .combine .difference].map Step.instruction⟩
      [.number 3]).run = ⟨[.number 0xFFFFFFFE], none⟩ ∧
    Run.Paired (Int.ModEq Width.i32.modulus) ⟨[.number 0xFFFFFFFE], none⟩ ⟨[.number (-2)], none⟩ ∧
    (∃ value, Stack.top? [.number 0xFFFFFFFE] = some (.number value) ∧
      -Width.i32.modulus < value ∧ value < Width.i32.modulus) ∧
    (Program.execute ⟨.i32, [.constant 0xFFFFFFFF, .constant 5, .constant 0xFFFFFFFF, .bare .add,
      .bare .sub]⟩ [.trap]).run = ⟨[.number 5, .trap], none⟩ := by
  obtain ⟨congruent, -, bounds, residues, restored⟩ :=
    wrappingExact .i32 [.push 1, .combine .difference] [3]
  have reduced := residues (by simp [Width.IsResidue, Width.modulus])
    (by simp [Width.IsResidue, Width.modulus])
  refine ⟨reduced, ?_, bounds [.push 1] .difference (List.prefix_refl _) (by rfl),
    restored 5 0xFFFFFFFF ⟨by decide, by decide⟩ ⟨by decide, by decide⟩ [.trap]⟩
  rw [reduced] at congruent
  exact congruent

end StackMachine
