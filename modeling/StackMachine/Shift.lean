import StackMachine.Bitwise
import StackMachine.Violation

/-! Shifts and rotations. Every shift is a scaling by a power of two over the exact
integers, reduced neither before nor after; a negative amount turns its direction
round. A result of a left shift is written out in full, so left distances are
bounded; right distances are not. The two halves of a rotation are shifts whose
distances add up to the width. -/
namespace StackMachine.Shift

def longest : Nat := 0xFFFFFFFF

/-- Scales by two to the `distance`, rounding down. Past the longest distance a right
shift leaves the sign alone. -/
def scale? (value distance : Int) : Option Int :=
  match distance with
  | .ofNat left => if left ≤ longest then some (value <<< left) else none
  | .negSucc short =>
    if short < longest then some (value >>> (short + 1))
    else some (if value < 0 then -1 else 0)

def left (value amount : Int) : Except Violation Int :=
  match scale? value amount with
  | some result => .ok result
  | none => .error (.shiftRange amount)

def right (value amount : Int) : Except Violation Int :=
  match scale? value (-amount) with
  | some result => .ok result
  | none => .error (.shiftRange amount)

theorem scaleDefined (value distance : Int) :
    (scale? value distance).isSome ↔ distance ≤ longest := by
  cases distance with
  | ofNat left => simp only [scale?]; split <;> simp <;> omega
  | negSucc short => simp only [scale?]; split <;> simp <;> omega

theorem scaleLeft (value : Int) {distance : Nat} (bound : distance ≤ longest) :
    scale? value distance = some (value <<< distance) := by
  change scale? value (.ofNat distance) = _
  simp [scale?, bound]

theorem scaleRight (value : Int) {distance : Nat} (bound : distance ≤ longest) :
    scale? value (-distance) = some (value >>> distance) := by
  cases distance with
  | zero => simpa using scaleLeft value (Nat.zero_le longest)
  | succ short =>
    change scale? value (.negSucc short) = _
    simp [scale?, Nat.lt_of_succ_le bound]

theorem scaleBeyond (value : Int) {distance : Nat} (beyond : longest < distance) :
    scale? value (-distance) = some (if value < 0 then -1 else 0) := by
  cases distance with
  | zero => contradiction
  | succ short =>
    change scale? value (.negSucc short) = _
    simp [scale?, Nat.not_lt.mpr (Nat.le_of_lt_succ beyond)]

theorem leftDefined (value : Int) {amount : Int} (near : amount ≤ longest) :
    ∃ result, left value amount = .ok result := by
  obtain ⟨result, found⟩ := Option.isSome_iff_exists.mp ((scaleDefined value amount).mpr near)
  exact ⟨result, by rw [left, found]⟩

theorem rightDefined (value : Int) {amount : Int} (near : -amount ≤ longest) :
    ∃ result, right value amount = .ok result := by
  obtain ⟨result, found⟩ := Option.isSome_iff_exists.mp ((scaleDefined value (-amount)).mpr near)
  exact ⟨result, by rw [right, found]⟩

theorem scaleError (value distance amount : Int) (violation : Violation) :
    (match scale? value distance with
      | some result => .ok result
      | none => .error (.shiftRange amount) : Except Violation Int) = .error violation ↔
      longest < distance ∧ violation = .shiftRange amount := by
  have defined := scaleDefined value distance
  cases found : scale? value distance with
  | some result => simp only [found, Option.isSome_some, true_iff] at defined; simp; omega
  | none =>
    simp only [found, Option.isSome_none, Bool.false_eq_true, false_iff] at defined
    simp only [Except.error.injEq]
    exact ⟨fun same => ⟨by omega, same.symm⟩, fun both => both.2.symm⟩

theorem leftError (value amount : Int) (violation : Violation) :
    left value amount = .error violation ↔ longest < amount ∧ violation = .shiftRange amount :=
  scaleError value amount amount violation

theorem rightError (value amount : Int) (violation : Violation) :
    right value amount = .error violation ↔ longest < -amount ∧ violation = .shiftRange amount :=
  scaleError value (-amount) amount violation

end StackMachine.Shift

namespace StackMachine.Width

def shrU (width : Width) (value amount : Int) : Except Violation Int :=
  Shift.right (width.residue value) amount

/-- The remainder of the value keeps its sign, and only the half that moves left is
cut to the width. That half is shifted first. -/
def rotl (width : Width) (value amount : Int) : Except Violation Int :=
  let reduced := value.tmod width.modulus
  match Shift.left reduced amount with
  | .error violation => .error violation
  | .ok high =>
    match Shift.right reduced (width.bits - amount) with
    | .error violation => .error violation
    | .ok low => .ok (Bitwise.or (Bitwise.and high width.mask) low)

def rotr (width : Width) (value amount : Int) : Except Violation Int :=
  let reduced := value.tmod width.modulus
  match Shift.right reduced amount with
  | .error violation => .error violation
  | .ok low =>
    match Shift.left reduced (width.bits - amount) with
    | .error violation => .error violation
    | .ok high => .ok (Bitwise.or low (Bitwise.and high width.mask))

theorem bitsNear (width : Width) : (width.bits : Int) ≤ Shift.longest := by
  cases width <;> decide

section Refusals

variable {width : Width} {value amount : Int} {violation : Violation}

theorem rotlError : width.rotl value amount = .error violation ↔
    Shift.longest < amount ∧ violation = .shiftRange amount := by
  have near := width.bitsNear
  rcases Int.lt_or_le Shift.longest amount with far | within
  · have up := (Shift.leftError (value.tmod width.modulus) amount _).mpr ⟨far, rfl⟩
    simp only [rotl, up, Except.error.injEq]
    exact ⟨fun same => ⟨far, same.symm⟩, fun both => both.2.symm⟩
  · obtain ⟨high, up⟩ := Shift.leftDefined (value.tmod width.modulus) within
    obtain ⟨low, down⟩ := Shift.rightDefined (value.tmod width.modulus)
      (show -(width.bits - amount) ≤ Shift.longest by omega)
    simp only [rotl, up, down]
    exact ⟨fun same => absurd same (by simp), fun both => absurd both.1 (Int.not_lt.mpr within)⟩

theorem rotrError : width.rotr value amount = .error violation ↔
    Shift.longest < -amount ∧ violation = .shiftRange amount ∨
      -amount ≤ Shift.longest ∧ Shift.longest < width.bits - amount ∧
        violation = .shiftRange (width.bits - amount) := by
  rcases Int.lt_or_le Shift.longest (-amount) with far | within
  · have down := (Shift.rightError (value.tmod width.modulus) amount _).mpr ⟨far, rfl⟩
    simp only [rotr, down, Except.error.injEq]
    constructor
    · exact fun same => .inl ⟨far, same.symm⟩
    · rintro (⟨-, rfl⟩ | ⟨near, -⟩)
      · rfl
      · exact absurd far (Int.not_lt.mpr near)
  obtain ⟨low, down⟩ := Shift.rightDefined (value.tmod width.modulus) within
  rcases Int.lt_or_le Shift.longest (width.bits - amount) with far | near
  · have up := (Shift.leftError (value.tmod width.modulus) (width.bits - amount) _).mpr ⟨far, rfl⟩
    simp only [rotr, down, up, Except.error.injEq]
    constructor
    · exact fun same => .inr ⟨within, far, same.symm⟩
    · rintro (⟨beyond, -⟩ | ⟨-, -, rfl⟩)
      · exact absurd beyond (Int.not_lt.mpr within)
      · rfl
  · obtain ⟨high, up⟩ := Shift.leftDefined (value.tmod width.modulus) near
    simp only [rotr, down, up]
    constructor
    · intro same
      contradiction
    · rintro (⟨beyond, -⟩ | ⟨-, beyond, -⟩)
      · exact absurd beyond (Int.not_lt.mpr within)
      · exact absurd beyond (Int.not_lt.mpr near)

end Refusals

end StackMachine.Width
