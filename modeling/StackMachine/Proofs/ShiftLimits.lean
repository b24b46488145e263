import StackMachine.Proofs.Rotations

/-! How far bits can be moved. An operation asks for one distance, or for two that add up to the
width, and only a distance to the left can be too long; so the amount alone decides
whether the move is refused, whatever the value. The one refused for a distance that is not
its amount is the rotation to the right: its second half goes further to the left than its
first one by the width, and the lowest amounts in reach take that half out of reach. -/
namespace StackMachine

namespace Operation

def moving : List Operation := [shl, shrU, shrS, rotl, rotr]

def refusal? (width : Width) (amount : Int) : Operation → Option Int
  | shl | rotl => if Shift.longest < amount then some amount else none
  | shrU | shrS => if Shift.longest < -amount then some amount else none
  | rotr =>
    if Shift.longest < -amount then some amount
    else if Shift.longest < width.bits - amount then some (width.bits - amount)
    else none
  | _ => none

end Operation

def Width.Oversteps (width : Width) (amount : Int) : Prop :=
  -Shift.longest ≤ amount ∧ amount < width.bits - Shift.longest

namespace Operation

variable {width : Width} {operation : Operation} {value amount reported : Int}

theorem refusalReports {condition : Prop} [Decidable condition] {violation : Violation} :
    (∃ reported ∈ if condition then some amount else none, violation = .shiftRange reported) ↔
      condition ∧ violation = .shiftRange amount := by
  split <;> simp [*]

theorem movesReport (width : Width) (moves : operation ∈ moving) :
    ∃ result, operation.action width = .shift result ∧ ∀ value amount violation,
      result value amount = .error violation ↔
        ∃ reported ∈ operation.refusal? width amount, violation = .shiftRange reported := by
  simp only [moving, List.mem_cons, List.not_mem_nil, or_false] at moves
  rcases moves with rfl | rfl | rfl | rfl | rfl
  · refine ⟨_, rfl, fun value amount violation => ?_⟩
    rw [Shift.leftError, refusal?, refusalReports]
  · refine ⟨_, rfl, fun value amount violation => ?_⟩
    rw [Width.shrU, Shift.rightError, refusal?, refusalReports]
  · refine ⟨_, rfl, fun value amount violation => ?_⟩
    rw [Shift.rightError, refusal?, refusalReports]
  · refine ⟨_, rfl, fun value amount violation => ?_⟩
    rw [Width.rotlError, refusal?, refusalReports]
  · refine ⟨_, rfl, fun value amount violation => ?_⟩
    rw [Width.rotrError, refusal?]
    split
    next far => simp [far, Int.not_le.mpr far]
    next near => rw [refusalReports]; simp [near, Int.not_lt.mp near]

theorem moveRefused (moves : operation ∈ moving)
    (found : operation.refusal? width amount = some reported) (value : Int) (rest : Stack) :
    width.apply operation (.number amount :: .number value :: rest) =
      .refused rest (.shiftRange reported) := by
  obtain ⟨result, shifts, reports⟩ := movesReport width moves
  have refused := (reports value amount _).mpr ⟨reported, found, rfl⟩
  rw [Width.applyShift shifts, refused]
  rfl

theorem moveDone (moves : operation ∈ moving) (within : operation.refusal? width amount = none)
    (value : Int) (rest : Stack) : ∃ result,
    width.apply operation (.number amount :: .number value :: rest) =
      .done (.number result :: rest) := by
  obtain ⟨result, shifts, reports⟩ := movesReport width moves
  rw [Width.applyShift shifts]
  cases answer : result value amount with
  | ok moved => exact ⟨moved, rfl⟩
  | error violation =>
    obtain ⟨reported, found, -⟩ := (reports value amount violation).mp answer
    rw [within] at found
    contradiction

theorem refusalReported (found : operation.refusal? width amount = some reported) :
    operation = .rotr ∧ width.Oversteps amount ∧ reported = width.bits - amount ∨
      Shift.longest < amount.natAbs ∧ reported = amount := by
  unfold refusal? at found
  cases operation with
  | rotr =>
    dsimp only at found
    split at found
    next far => exact .inr ⟨by omega, (Option.some.inj found).symm⟩
    next near =>
      obtain ⟨far, same⟩ := Option.ite_none_right_eq_some.mp found
      have oversteps : width.Oversteps amount := ⟨by omega, by omega⟩
      exact .inl ⟨rfl, oversteps, (Option.some.inj same).symm⟩
  | shl | shrU | shrS | rotl =>
    obtain ⟨far, same⟩ := Option.ite_none_right_eq_some.mp found
    exact .inr ⟨by omega, (Option.some.inj same).symm⟩
  | _ => contradiction

theorem overstepNear (oversteps : width.Oversteps amount) :
    amount < 0 ∧ amount.natAbs ≤ Shift.longest := by
  have short := width.bitsNear
  obtain ⟨near, far⟩ := oversteps
  omega

theorem overstepReported (oversteps : width.Oversteps amount) :
    rotr.refusal? width amount = some (width.bits - amount) := by
  obtain ⟨near, far⟩ := oversteps
  rw [refusal?, if_neg (by omega), if_pos (by omega)]

end Operation

theorem shiftLimitsExact (width : Width) {operation : Operation} (moves : operation ∈ Operation.moving)
    (value amount : Int) (rest : Stack) :
    let outcome := width.apply operation (.number amount :: .number value :: rest)
    let overstepped := operation = .rotr ∧ width.Oversteps amount
    Shift.longest = 2 ^ 32 - 1 ∧
    ((∃ result, outcome = .done (.number result :: rest)) ∨
      ∃ reported, outcome = .refused rest (.shiftRange reported)) ∧
    (amount.natAbs ≤ Shift.longest →
      ((∃ result, outcome = .done (.number result :: rest)) ↔ ¬ overstepped)) ∧
    ∀ reported, outcome.violation = some (.shiftRange reported) →
      (reported = amount ↔ ¬ overstepped) ∧ (overstepped → reported = width.bits - amount) := by
  intro outcome overstepped
  refine ⟨rfl, ?_⟩
  cases found : operation.refusal? width amount with
  | none =>
    obtain ⟨result, done⟩ := Operation.moveDone moves found value rest
    have inside : ¬ overstepped := by
      rintro ⟨rfl, oversteps⟩
      rw [Operation.overstepReported oversteps] at found
      contradiction
    refine ⟨.inl ⟨result, done⟩, fun _ => iff_of_true ⟨result, done⟩ inside, ?_⟩
    intro reported lost
    simp only [outcome, done, Outcome.done] at lost
    contradiction
  | some reported =>
    have refused := Operation.moveRefused moves found value rest
    have undone : ¬ ∃ result, outcome = .done (.number result :: rest) := by
      rintro ⟨result, done⟩
      have both := refused.symm.trans done
      simp [Outcome.refused, Outcome.done] at both
    refine ⟨.inr ⟨reported, refused⟩, fun near => iff_of_false undone (not_not.mpr ?_), ?_⟩
    · rcases Operation.refusalReported found with ⟨turns, oversteps, -⟩ | ⟨far, -⟩
      · exact ⟨turns, oversteps⟩
      · exact absurd near (Nat.not_le.mpr far)
    · intro other lost
      obtain rfl : reported = other := by simpa [outcome, refused, Outcome.refused] using lost
      rcases Operation.refusalReported found with ⟨turns, oversteps, rfl⟩ | ⟨far, rfl⟩
      · have below := (Operation.overstepNear oversteps).1
        exact ⟨iff_of_false (by omega) (not_not.mpr ⟨turns, oversteps⟩), fun _ => rfl⟩
      · have inside : ¬ overstepped := by
          rintro ⟨-, oversteps⟩
          exact absurd (Operation.overstepNear oversteps).2 (Nat.not_le.mpr far)
        exact ⟨iff_of_true rfl inside, fun beyond => absurd beyond inside⟩

theorem shiftLimitsExactAtTheEdge :
    (∃ result, Width.i32.apply .rotr [.number (-0xFFFFFFDF), .number 0] = .done [.number result]) ∧
    (¬ ∃ result,
      Width.i32.apply .rotr [.number (-0xFFFFFFE0), .number 0] = .done [.number result]) ∧
    (∀ reported, (Width.i32.apply .rotr [.number (-0xFFFFFFE0), .number 0]).violation =
      some (.shiftRange reported) → reported = 0x100000000) ∧
    ∃ result, Width.i64.apply .shrS [.number 0xFFFFFFFF, .number (-8)] = .done [.number result] := by
  have turns : Operation.rotr ∈ Operation.moving := by decide
  obtain ⟨-, -, inside, -⟩ := shiftLimitsExact .i32 turns 0 (-0xFFFFFFDF) []
  obtain ⟨-, -, outside, reported⟩ := shiftLimitsExact .i32 turns 0 (-0xFFFFFFE0) []
  obtain ⟨-, -, shifted, -⟩ :=
    shiftLimitsExact .i64 (show Operation.shrS ∈ Operation.moving by decide) (-8) 0xFFFFFFFF []
  have oversteps : Width.i32.Oversteps (-0xFFFFFFE0) := ⟨by decide, by decide⟩
  refine ⟨(inside (by decide)).mpr ?_, ?_, ?_, (shifted (by decide)).mpr ?_⟩
  · rintro ⟨-, -, beyond⟩
    exact absurd beyond (by decide)
  · exact (outside (by decide)).not.mpr (not_not.mpr ⟨rfl, oversteps⟩)
  · intro amount lost
    exact (reported amount lost).2 ⟨rfl, oversteps⟩
  · rintro ⟨other, -⟩
    contradiction

theorem turnBackRefused :
    (-0xFFFFFFFF : Int).natAbs ≤ Shift.longest ∧
    Width.i32.apply .rotr [.number (-0xFFFFFFFF), .number 0] =
      .refused [] (.shiftRange 0x10000001F) ∧
    Width.i32.apply .rotl [.number 0xFFFFFFFF, .number 0] = .done [.number 0] := by
  have residue : Width.i32.IsResidue 0 := by decide
  refine ⟨by decide, Operation.moveRefused (by decide) (by decide) 0 [], ?_⟩
  rw [Width.applyShift rfl, Width.rotlBeyond residue (by decide) (by decide), Int.zero_mul]
  rfl

end StackMachine
