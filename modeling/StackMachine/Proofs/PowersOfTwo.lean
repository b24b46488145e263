import StackMachine.Proofs.Rotations
import StackMachine.Proofs.Splitting
import StackMachine.Proofs.UnsignedDivision

/-! Powers of two, with which a shift does what a product, a quotient or a remainder does. The
shifts take the amount on top and the divisions the divisor below, the one scale the exact
integer or its residue and the other two round a fraction; on every integer, below zero and
beyond the width too, they come to the same number. -/
namespace StackMachine

def Program.Pushes (program : Program) (value : Int) : Prop :=
  ∀ stack, (program.execute stack).run = ⟨.number value :: stack, none⟩

namespace Program

variable {width : Width} {front : List Instruction} {operation : Operation} {top second value : Int}

theorem pushesConstant (width : Width) (value : Int) : Pushes ⟨width, [.constant value]⟩ value :=
  fun _ => rfl

theorem Pushes.continued (pushes : Pushes ⟨width, front⟩ second)
    (done : ∀ rest, width.apply operation (.number top :: .number second :: rest) =
      .done (.number value :: rest)) :
    Pushes ⟨width, front ++ [.constant top, .bare operation]⟩ value := by
  intro stack
  have before := pushes stack
  rw [executeRun] at before ⊢
  rw [runAppendDone (congrArg Run.failure before), before]
  simp only [run, Instruction.runConstant, Instruction.runBare, Outcome.done, done]

end Program

namespace Width

variable {width : Width} {value : Int} {count : Nat}

theorem residuePower (inside : count < width.bits) : width.residue (2 ^ count) = 2 ^ count := by
  have below : (2 : Int) ^ count < 2 ^ width.bits := pow_lt_pow_right₀ (by decide) inside
  rw [← modulusPower] at below
  exact width.residueFixed (Int.pow_pos (by decide)).le below

theorem residueShifted (within : count ≤ width.bits) (value : Int) :
    width.residue (value * 2 ^ count) / 2 ^ count = value % 2 ^ (width.bits - count) := by
  have positive : (0 : Int) < 2 ^ count := Int.pow_pos (by decide)
  rw [width.residueProduct (Nat.add_sub_of_le within),
    Int.mul_ediv_cancel_left _ positive.ne']

theorem residueDivided (within : count ≤ width.bits) (value : Int) :
    width.residue value % 2 ^ count = value % 2 ^ count := by
  rw [residueModulo, modulusPower]
  exact Int.emod_emod_of_dvd value (pow_dvd_pow 2 within)

section Stacks

variable (rest : Stack)

theorem applyShl (near : count ≤ Shift.longest) (value : Int) :
    width.apply .shl (.number count :: .number value :: rest) =
      .done (.number (value * 2 ^ count) :: rest) := by
  rw [applyShift rfl, Shift.leftUp value (Int.natCast_nonneg count) (Int.ofNat_le.mpr near)]
  rfl

theorem applyShrU (count : Nat) (value : Int) :
    width.apply .shrU (.number count :: .number value :: rest) =
      .done (.number (width.residue value / 2 ^ count) :: rest) := by
  have reach := residueInReach (width.residueRange value)
  rw [applyShift rfl, shrU, Shift.rightDown (Int.natCast_nonneg count) reach]
  rfl

theorem applyShrS (near : count ≤ Shift.longest) (value : Int) :
    width.apply .shrS (.number count :: .number value :: rest) =
      .done (.number (value / 2 ^ count) :: rest) := by
  rw [applyShift rfl, Shift.right, Shift.scaleRight value near, Int.shiftRight_eq_div_pow,
    Nat.cast_pow, Nat.cast_ofNat]
  rfl

theorem applyDivided (inside : count < width.bits) (value : Int) :
    width.apply .divU (.number value :: .number (2 ^ count) :: rest) =
        .done (.number (width.residue value / 2 ^ count) :: rest) ∧
      width.apply .remU (.number value :: .number (2 ^ count) :: rest) =
        .done (.number (value % 2 ^ count) :: rest) := by
  have nonzero : width.residue (2 ^ count) ≠ 0 := by
    rw [residuePower inside]
    exact (Int.pow_pos (by decide)).ne'
  obtain ⟨quotient, remainder⟩ := dividedNumbers nonzero value
  rw [residuePower inside] at quotient remainder
  rw [residueDivided inside.le] at remainder
  constructor
  · rw [← quotient]
    rfl
  · rw [← remainder]
    rfl

end Stacks
end Width

theorem powersOfTwoAgree (width : Width) (value : Int) (count : Nat) :
    let power : Int := 2 ^ count
    let shifted : List Instruction := [.constant value, .constant count, .bare .shl]
    Shift.longest = 2 ^ 32 - 1 ∧
    (count < width.bits →
      Program.Pushes ⟨width, [.constant value, .constant count, .bare .shrU]⟩
        (value % 2 ^ width.bits / power) ∧
      Program.Pushes ⟨width, [.constant power, .constant value, .bare .divU]⟩
        (value % 2 ^ width.bits / power)) ∧
    (1 ≤ count → count ≤ width.bits →
      Program.Pushes ⟨width, shifted ++ [.constant count, .bare .shrU]⟩
        (value % 2 ^ (width.bits - count)) ∧
      Program.Pushes ⟨width, [.constant (2 ^ (width.bits - count)), .constant value, .bare .remU]⟩
        (value % 2 ^ (width.bits - count))) ∧
    (count ≤ Shift.longest →
      Program.Pushes ⟨width, shifted ++ [.constant count, .bare .shrS]⟩ value) ∧
    (count < width.bits →
      Program.Pushes ⟨width, shifted ++ [.constant 0, .bare .add]⟩
        ((value * power).tmod (2 ^ width.bits)) ∧
      Program.Pushes ⟨width, [.constant power, .constant value, .bare .mul]⟩
        ((value * power).tmod (2 ^ width.bits)) ∧
      Program.Pushes ⟨width, [.constant value, .constant power, .bare .mul]⟩
        ((value * power).tmod (2 ^ width.bits))) := by
  intro power shifted
  have near : width.bits ≤ Shift.longest := Int.ofNat_le.mp width.bitsNear
  have start (value : Int) := Program.pushesConstant width value
  have moved (near : count ≤ Shift.longest) : Program.Pushes ⟨width, shifted⟩ (value * power) :=
    (start value).continued fun rest => width.applyShl rest near value
  refine ⟨rfl, fun inside => ⟨?_, ?_⟩, fun positive within => ⟨?_, ?_⟩, fun near => ?_,
    fun inside => ⟨?_, ?_, ?_⟩⟩
  · rw [← width.modulusPower, ← width.residueModulo]
    exact (start value).continued fun rest => width.applyShrU rest count value
  · rw [← width.modulusPower, ← width.residueModulo]
    exact (start power).continued fun rest => (width.applyDivided rest inside value).1
  · rw [← Width.residueShifted within]
    exact (moved (within.trans near)).continued fun rest => width.applyShrU rest count _
  · have inside : width.bits - count < width.bits := by omega
    exact (start _).continued fun rest => (width.applyDivided rest inside value).2
  · have restored : value * power / 2 ^ count = value :=
      Int.mul_ediv_cancel _ (Int.pow_pos (by decide)).ne'
    have returned := (moved near).continued fun rest => width.applyShrS rest near (value * power)
    rwa [restored] at returned
  · have wrapped : width.add 0 (value * power) = (value * power).tmod (2 ^ width.bits) := by
      rw [Width.add, Int.zero_add, Width.modulusPower]
    rw [← wrapped]
    exact (moved (inside.le.trans near)).continued fun _ => rfl
  · have wrapped : width.mul value power = (value * power).tmod (2 ^ width.bits) := by
      rw [Width.mul, Width.modulusPower]
    rw [← wrapped]
    exact (start power).continued fun _ => rfl
  · have wrapped : width.mul power value = (value * power).tmod (2 ^ width.bits) := by
      rw [Width.mul, Int.mul_comm, Width.modulusPower]
    rw [← wrapped]
    exact (start value).continued fun _ => rfl

theorem powersOfTwoAgreeBelowZero :
    Program.Pushes ⟨.i32, [.constant (-16), .constant 4, .bare .shrU]⟩ 0xFFFFFFF ∧
    Program.Pushes ⟨.i32, [.constant 16, .constant (-16), .bare .divU]⟩ 0xFFFFFFF ∧
    Program.Pushes ⟨.i32, [.constant 0x180000001, .constant 32, .bare .shl, .constant 32,
      .bare .shrU]⟩ 0 ∧
    Program.Pushes ⟨.i64, [.constant (-3), .constant 0xFFFFFFFF, .bare .shl, .constant 0xFFFFFFFF,
      .bare .shrS]⟩ (-3) ∧
    Program.Pushes ⟨.i32, [.constant (-3), .constant 31, .bare .shl, .constant 0, .bare .add]⟩
      (-0x80000000) := by
  obtain ⟨-, divided, -⟩ := powersOfTwoAgree .i32 (-16) 4
  obtain ⟨-, -, cut, -⟩ := powersOfTwoAgree .i32 0x180000001 32
  obtain ⟨-, -, -, returned, -⟩ := powersOfTwoAgree .i64 (-3) 0xFFFFFFFF
  obtain ⟨-, -, -, -, wrapped⟩ := powersOfTwoAgree .i32 (-3) 31
  exact ⟨(divided (by decide)).1, (divided (by decide)).2, (cut (by decide) (by decide)).1,
    returned (by decide), (wrapped (by decide)).1⟩

end StackMachine
