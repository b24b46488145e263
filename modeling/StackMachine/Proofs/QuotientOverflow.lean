import StackMachine.Proofs.SignedDivision

/-! The trap for a signed quotient that is too large. It is pushed for the largest signed
number itself and for no other quotient. A reading may be larger by one, and where it
is divided by one, that number is the quotient and is pushed. -/
namespace StackMachine

namespace Width

def Overshoots (width : Width) (top second : Int) : Prop :=
  top = width.modulus - 1 ∧ (second = 1 ∨ second = width.signedMax + 1)

variable {width : Width} {top second : Int}

theorem foldedLast : width.folded top = width.signedMax + 1 ↔ top = width.modulus - 1 := by
  have split := width.modulusSplit
  rw [foldedOnce (by omega)]
  omega

theorem quotientOvershoots (first : width.IsResidue top) (next : width.IsResidue second) :
    width.signedMax < width.folded top / width.folded second ↔ width.Overshoots top second := by
  have range := foldedRange first
  rw [Overshoots, ← foldedLast, ← foldedUnit next]
  constructor
  · intro beyond
    have reaches := quotientReaches range.2 (foldedRange next).1
    obtain ⟨-, unit⟩ := reaches.mp (Int.le_of_lt beyond)
    rw [unit, Int.ediv_one] at beyond
    exact ⟨Int.le_antisymm range.2 beyond, unit⟩
  · rintro ⟨last, unit⟩
    rw [last, unit, Int.ediv_one]
    exact Int.lt_succ _

end Width

structure OverflowAnswer (width : Width) (top second quotient : Int) (answer : Value) : Prop where
  below : quotient < width.signedMax → answer = .number quotient
  reached : width.signedMax ≤ quotient → ¬ width.Overshoots top second → answer = .trap
  past : width.signedMax < quotient ↔ width.Overshoots top second
  overshot : width.Overshoots top second → answer = .number (width.signedMax + 1)

namespace Width

variable {width : Width} {top second dividend divisor : Int}

theorem quotientUntrapped (nonzero : divisor ≠ 0) (other : dividend / divisor ≠ width.signedMax) :
    width.quotient dividend divisor = .number (dividend / divisor) := by
  rw [quotient, if_neg nonzero, if_neg other]

theorem overflowAnswer (first : width.IsResidue top) (next : width.IsResidue second)
    (nonzero : width.folded second ≠ 0) :
    OverflowAnswer width top second (width.folded top / width.folded second)
      (width.quotient (width.folded top) (width.folded second)) where
  below small := quotientUntrapped nonzero (Int.ne_of_lt small)
  reached reached other := by
    have short := Int.not_lt.mp ((quotientOvershoots first next).not.mpr other)
    exact quotientTrapped.mpr (.inr (Int.le_antisymm short reached))
  past := quotientOvershoots first next
  overshot overshoots := by
    have last : width.folded top = width.signedMax + 1 := foldedLast.mpr overshoots.1
    have unit : width.folded second = 1 := (foldedUnit next).mpr overshoots.2
    have beyond := (quotientOvershoots first next).mpr overshoots
    rw [quotientUntrapped nonzero (Int.ne_of_gt beyond), last, unit, Int.ediv_one]

end Width

theorem overflowTrapExact {width : Width} {top second : Int} (first : width.IsResidue top)
    (next : width.IsResidue second) (rest : Stack) : ∃ dividend divisor,
    width.signed? top = some dividend ∧ width.signed? second = some divisor ∧
    (divisor ≠ 0 → ∃ answer,
      width.apply .divS (.number top :: .number second :: rest) = .done (answer :: rest) ∧
      OverflowAnswer width top second (dividend / divisor) answer) := by
  refine ⟨_, _, Width.signedFolded first, Width.signedFolded next, fun nonzero => ?_⟩
  refine ⟨_, ?_, Width.overflowAnswer first next nonzero⟩
  rw [applyDivS, Width.signedOperandsFolded first next]
  rfl

theorem overflowTrapExactOnBothSides :
    Width.i32.apply .divS [.number 0xFFFFFFFE, .number 0x80000000] = .done [.trap] ∧
    Width.i32.apply .divS [.number 0xFFFFFFFF, .number 0x80000000] =
      .done [.number 0x80000000] := by
  have trapped : Width.i32.IsResidue 0xFFFFFFFE := by decide
  have pushed : Width.i32.IsResidue 0xFFFFFFFF := by decide
  have divides : Width.i32.IsResidue 0x80000000 := by decide
  have reading : Width.i32.signed? 0x80000000 = some 1 := by decide
  constructor
  · obtain ⟨dividend, divisor, first, next, divided⟩ := overflowTrapExact trapped divides []
    obtain rfl : dividend = 0x7FFFFFFF := Option.some.inj (first.symm.trans (by decide))
    obtain rfl : divisor = 1 := Option.some.inj (next.symm.trans reading)
    obtain ⟨answer, done, answers⟩ := divided (by decide)
    have short : ¬ Width.i32.Overshoots 0xFFFFFFFE 0x80000000 := fun both => by
      exact absurd both.1 (by decide)
    rw [done, answers.reached (by decide) short]
  · obtain ⟨dividend, divisor, -, next, divided⟩ := overflowTrapExact pushed divides []
    obtain rfl : divisor = 1 := Option.some.inj (next.symm.trans reading)
    obtain ⟨answer, done, answers⟩ := divided (by decide)
    rw [done, answers.overshot ⟨by decide, .inr (by decide)⟩]
    rfl

theorem quotientPastTheLargest :
    Width.i32.signed? 0xFFFFFFFF = some 0x80000000 ∧ Width.i32.signed? 1 = some 1 ∧
    Width.i32.signedMax < 0x80000000 / 1 ∧
    Width.i32.apply .divS [.number 0xFFFFFFFF, .number 1] = .done [.number 0x80000000] := by
  decide

end StackMachine
