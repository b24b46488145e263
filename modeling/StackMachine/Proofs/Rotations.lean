import StackMachine.Proofs.Shifts

/-! Rotations of residues by any amount. Up to a full turn the two halves lie beside each
other and add up to the rotated word. On either side of that both halves move the same
way: one of them leaves the word, and the other is the whole answer, a quotient or
an unreduced product. A distance is refused for the half it is too long for. -/
namespace StackMachine

namespace Bitwise

theorem orComm (left right : Int) : or left right = or right left := by
  refine bitExtensional fun index => ?_
  rw [bitOr, bitOr, Bool.or_comm]

theorem orZero (value : Int) : or value 0 = value := by
  refine bitExtensional fun index => ?_
  rw [bitOr, bitZero, Bool.or_false]

theorem zeroOr (value : Int) : or 0 value = value := (orComm 0 value).trans (orZero value)

theorem orBeside {high low : Int} {count : Nat} (whole : 0 ≤ high) (natural : 0 ≤ low)
    (below : low < 2 ^ count) : or (2 ^ count * high) low = 2 ^ count * high + low := by
  obtain ⟨upper, rfl⟩ := Int.eq_ofNat_of_zero_le whole
  obtain ⟨lower, rfl⟩ := Int.eq_ofNat_of_zero_le natural
  have small : lower < 2 ^ count := by exact_mod_cast below
  calc or (2 ^ count * upper) lower
      = or (2 ^ count * upper : Nat) lower := by push_cast; rfl
    _ = (2 ^ count * upper ||| lower : Nat) := rfl
    _ = (2 ^ count * upper + lower : Nat) := by rw [Nat.two_pow_add_eq_or_of_lt small]
    _ = 2 ^ count * upper + lower := by push_cast; rfl

end Bitwise

namespace Width

variable {width : Width} {value amount : Int}

theorem modulusParts (width : Width) {count : Nat} (within : count ≤ width.bits) :
    width.modulus = 2 ^ (width.bits - count) * 2 ^ count := by
  rw [modulusPower, ← pow_add, Nat.sub_add_cancel within]

theorem residueProduct (width : Width) {low high : Nat} (whole : low + high = width.bits)
    (value : Int) : width.residue (value * 2 ^ low) = 2 ^ low * (value % 2 ^ high) := by
  have positive : (0 : Int) < 2 ^ low := Int.pow_pos (by decide)
  rw [residueModulo, modulusPower, ← whole, pow_add, Int.mul_comm value,
    Int.mul_emod_mul_of_pos _ _ positive]

section Halves

variable (residue : width.IsResidue value)

include residue

theorem quotientResidue (count : Nat) : width.IsResidue (value / 2 ^ count) := by
  have positive : (0 : Int) < 2 ^ count := Int.pow_pos (by decide)
  exact residueShrinks residue
    ⟨Int.ediv_nonneg residue.1 positive.le, Int.ediv_le_self _ residue.1⟩

theorem quotientGone (far : width.bits ≤ amount) : value / 2 ^ amount.toNat = 0 := by
  have wide : (2 : Int) ^ width.bits ≤ 2 ^ amount.toNat :=
    pow_le_pow_right₀ (by decide) (by omega)
  rw [← modulusPower] at wide
  exact Int.ediv_eq_zero_of_lt residue.1 (residue.2.trans_le wide)

theorem halvesBeside {count : Nat} (within : count ≤ width.bits) :
    Bitwise.or (value / 2 ^ count) (width.residue (value * 2 ^ (width.bits - count))) =
      value / 2 ^ count + value * 2 ^ (width.bits - count) % width.modulus := by
  have positive (count : Nat) : (0 : Int) < 2 ^ count := Int.pow_pos (by decide)
  have low : value / 2 ^ count < 2 ^ (width.bits - count) :=
    Int.ediv_lt_of_lt_mul (positive _) (width.modulusParts within ▸ residue.2)
  rw [← residueModulo, width.residueProduct (Nat.sub_add_cancel within), Bitwise.orComm,
    Int.add_comm]
  exact Bitwise.orBeside (Int.emod_nonneg _ (positive _).ne')
    (Int.ediv_nonneg residue.1 (positive _).le) low

end Halves

theorem productGone (far : width.bits ≤ amount) (value : Int) :
    width.residue (value * 2 ^ amount.toNat) = 0 := by
  have divides : (2 : Int) ^ width.bits ∣ 2 ^ amount.toNat := pow_dvd_pow 2 (by omega)
  rw [residueModulo, modulusPower]
  exact Int.emod_eq_zero_of_dvd (divides.mul_left value)

theorem rotlMirror (within : amount ≤ width.bits) (value : Int) :
    width.rotl value amount = width.rotr value (width.bits - amount) := by
  obtain ⟨high, up⟩ := Shift.leftDefined (value.tmod width.modulus) (within.trans width.bitsNear)
  obtain ⟨low, down⟩ := Shift.rightDefined (value.tmod width.modulus)
    (show -(width.bits - amount) ≤ Shift.longest by omega)
  simp only [rotl, rotr, sub_sub_cancel, up, down, Bitwise.orComm]

theorem rotrHalved {count : Nat} (within : count ≤ width.bits) (value : Int) :
    width.rotr value count = .ok (Bitwise.or (value.tmod width.modulus / 2 ^ count)
      (width.residue (value.tmod width.modulus * 2 ^ (width.bits - count)))) := by
  have range := width.truncatedRange value
  have reach : Shift.InReach (value.tmod width.modulus) := wordInReach range.1.le range.2
  have forward : (0 : Int) ≤ count := Int.natCast_nonneg count
  have down := Shift.rightDown forward reach
  have up := Shift.leftUp (value.tmod width.modulus)
    (Int.sub_nonneg.mpr (Int.ofNat_le.mpr within)) ((Int.sub_le_self _ forward).trans width.bitsNear)
  rw [Int.toNat_natCast] at down
  rw [Int.toNat_sub] at up
  simp only [rotr, down, up, andMask]

section Regimes

variable (residue : width.IsResidue value)

include residue

theorem rotrWithin (forward : 0 ≤ amount) (within : amount ≤ width.bits) :
    width.rotr value amount = .ok (value / 2 ^ amount.toNat +
      value * 2 ^ (width.bits - amount).toNat % width.modulus) := by
  obtain ⟨count, rfl⟩ := Int.eq_ofNat_of_zero_le forward
  have inside : count ≤ width.bits := Int.ofNat_le.mp within
  rw [rotrHalved inside, truncatedFixed residue, Int.toNat_natCast, Int.toNat_sub,
    halvesBeside residue inside]

theorem rotlWithin (forward : 0 ≤ amount) (within : amount ≤ width.bits) :
    width.rotl value amount = .ok (value * 2 ^ amount.toNat % width.modulus +
      value / 2 ^ (width.bits - amount).toNat) := by
  rw [rotlMirror within,
    rotrWithin residue (Int.sub_nonneg.mpr within) (Int.sub_le_self _ forward), sub_sub_cancel,
    Int.add_comm]

theorem rotlBeyond (beyond : width.bits < amount) (near : amount ≤ Shift.longest) :
    width.rotl value amount = .ok (value * 2 ^ (amount - width.bits).toNat) := by
  have forward : 0 ≤ amount := (Int.natCast_nonneg _).trans beyond.le
  have reversed : width.bits - amount ≤ 0 := Int.sub_nonpos_of_le beyond.le
  have up := Shift.leftUp value forward near
  have down := Shift.rightUp value reversed (by omega)
  rw [rotlHalves residue up down, productGone beyond.le, Bitwise.zeroOr, neg_sub]

theorem rotlBackward (backward : amount < 0) :
    width.rotl value amount = .ok (value / 2 ^ (-amount).toNat) := by
  have reach := residueInReach residue
  have further : width.bits ≤ width.bits - amount := by omega
  have up := Shift.leftDown backward.le reach
  have down := Shift.rightDown ((Int.natCast_nonneg _).trans further) reach
  have kept := quotientResidue residue (-amount).toNat
  rw [rotlHalves residue up down, residueFixed width kept.1 kept.2, quotientGone residue further,
    Bitwise.orZero]

theorem rotrBeyond (beyond : width.bits < amount) :
    width.rotr value amount = .ok (value / 2 ^ (amount - width.bits).toNat) := by
  have reach := residueInReach residue
  have forward : 0 ≤ amount := (Int.natCast_nonneg _).trans beyond.le
  have reversed : width.bits - amount ≤ 0 := Int.sub_nonpos_of_le beyond.le
  have down := Shift.rightDown forward reach
  have up := Shift.leftDown reversed reach
  rw [neg_sub] at up
  have kept := quotientResidue residue (amount - width.bits).toNat
  rw [rotrHalves residue down up, residueFixed width kept.1 kept.2,
    quotientGone residue beyond.le, Bitwise.zeroOr]

theorem rotrBackward (backward : amount < 0) (near : width.bits - amount ≤ Shift.longest) :
    width.rotr value amount = .ok (value * 2 ^ (-amount).toNat) := by
  have further : width.bits ≤ width.bits - amount := by omega
  have down := Shift.rightUp value backward.le (by omega)
  have up := Shift.leftUp value ((Int.natCast_nonneg _).trans further) near
  rw [rotrHalves residue down up, productGone further, Bitwise.orZero]

end Regimes
end Width

structure Outcome.TurnsLeft (width : Width) (value amount : Int) (rest : Stack)
    (outcome : Outcome) : Prop where
  refused : outcome.violation = some (.shiftRange amount) ↔ Shift.longest < amount
  within : 0 ≤ amount → amount ≤ width.bits →
    outcome = .done (.number (value * 2 ^ amount.toNat % width.modulus +
      value / 2 ^ (width.bits - amount).toNat) :: rest)
  beyond : width.bits < amount → amount ≤ Shift.longest →
    outcome = .done (.number (value * 2 ^ (amount - width.bits).toNat) :: rest)
  backward : amount < 0 → outcome = .done (.number (value / 2 ^ (-amount).toNat) :: rest)

structure Outcome.TurnsRight (width : Width) (value amount : Int) (rest : Stack)
    (outcome : Outcome) : Prop where
  refused : outcome.violation = some (.shiftRange amount) ↔ amount < -Shift.longest
  refusedBack : outcome.violation = some (.shiftRange (width.bits - amount)) ↔
    -Shift.longest ≤ amount ∧ amount < width.bits - Shift.longest
  backward : width.bits - Shift.longest ≤ amount → amount < 0 →
    outcome = .done (.number (value * 2 ^ (-amount).toNat) :: rest)
  within : 0 ≤ amount → amount ≤ width.bits →
    outcome = .done (.number (value / 2 ^ amount.toNat +
      value * 2 ^ (width.bits - amount).toNat % width.modulus) :: rest)
  beyond : width.bits < amount →
    outcome = .done (.number (value / 2 ^ (amount - width.bits).toNat) :: rest)

theorem Outcome.refusedAnswer {answer : Except Violation Int} {violation : Violation}
    (rest : Stack) : (ofAnswer rest (answer.map .number)).violation = some violation ↔
      answer = .error violation := by
  cases answer with
  | ok result => simp [ofAnswer, done, Except.map]
  | error cause => exact ⟨fun same => congrArg _ (Option.some.inj same),
      fun same => congrArg some (Except.error.inj same)⟩

section Stacks

variable {width : Width} {value : Int} (residue : width.IsResidue value)

include residue

theorem Width.rotlTurns (amount : Int) (rest : Stack) :
    (Outcome.ofAnswer rest ((width.rotl value amount).map .number)).TurnsLeft
      width value amount rest where
  refused := by rw [Outcome.refusedAnswer, rotlError, and_iff_left rfl]
  within forward within := by rw [rotlWithin residue forward within]; rfl
  beyond beyond near := by rw [rotlBeyond residue beyond near]; rfl
  backward backward := by rw [rotlBackward residue backward]; rfl

theorem Width.rotrTurns (amount : Int) (rest : Stack) :
    (Outcome.ofAnswer rest ((width.rotr value amount).map .number)).TurnsRight
      width value amount rest where
  refused := by
    have near := width.bitsNear
    rw [Outcome.refusedAnswer, rotrError]
    simp only [Violation.shiftRange.injEq, and_true]
    omega
  refusedBack := by
    have near := width.bitsNear
    rw [Outcome.refusedAnswer, rotrError]
    simp only [Violation.shiftRange.injEq, and_true]
    omega
  backward near backward := by rw [rotrBackward residue backward (by omega)]; rfl
  within forward within := by rw [rotrWithin residue forward within]; rfl
  beyond beyond := by rw [rotrBeyond residue beyond]; rfl

end Stacks

theorem rotationsExact {width : Width} {value : Int} (residue : width.IsResidue value)
    (amount : Int) (rest : Stack) :
    width.modulus = 2 ^ width.bits ∧ Shift.longest = 2 ^ 32 - 1 ∧
    (width.apply .rotl (.number amount :: .number value :: rest)).TurnsLeft
      width value amount rest ∧
    (width.apply .rotr (.number amount :: .number value :: rest)).TurnsRight
      width value amount rest := by
  refine ⟨width.modulusPower, rfl, ?_, ?_⟩
  · rw [Width.applyShift rfl]
    exact Width.rotlTurns residue amount rest
  · rw [Width.applyShift rfl]
    exact Width.rotrTurns residue amount rest

theorem rotationsExactPastTheWidth :
    Width.i32.apply .rotl [.number 4, .number 0x80000001] = .done [.number 0x18] ∧
    Width.i32.apply .rotl [.number 33, .number 0x80000001] = .done [.number 0x100000002] ∧
    Width.i32.apply .rotr [.number (-1), .number 0x80000001] = .done [.number 0x100000002] ∧
    Width.i32.apply .rotr [.number 36, .number 0x80000001] = .done [.number 0x8000000] ∧
    (Width.i32.apply .rotr [.number (-0xFFFFFFFF), .number 0x80000001]).violation =
      some (.shiftRange (32 - -0xFFFFFFFF)) := by
  have residue : Width.i32.IsResidue 0x80000001 := ⟨by decide, by decide⟩
  obtain ⟨-, -, fore, -⟩ := rotationsExact residue 4 []
  obtain ⟨-, -, whole, -⟩ := rotationsExact residue 33 []
  obtain ⟨-, -, -, back⟩ := rotationsExact residue (-1) []
  obtain ⟨-, -, -, past⟩ := rotationsExact residue 36 []
  obtain ⟨-, -, -, far⟩ := rotationsExact residue (-0xFFFFFFFF) []
  exact ⟨fore.within (by decide) (by decide), whole.beyond (by decide) (by decide),
    back.backward (by decide) (by decide), past.beyond (by decide),
    far.refusedBack.mpr (by decide)⟩

end StackMachine
