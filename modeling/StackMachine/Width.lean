/-! The two operand widths and the integers they fix. Values on the stack are
unbounded, so a width only says how an operation reads them: no value carries one.
`signed?` halves the residues at the largest signed number and is not two's
complement; both halves begin at zero. -/
namespace StackMachine

inductive Width where
  | i32
  | i64
  deriving DecidableEq, Repr

namespace Width

def all : List Width := [i32, i64]

def bits : Width → Nat
  | i32 => 32
  | i64 => 64

def name : Width → String
  | i32 => "i32"
  | i64 => "i64"

def ofName? (name : String) : Option Width := all.find? (fun width => width.name == name)

def modulus : Width → Int
  | i32 => 0x100000000
  | i64 => 0x10000000000000000

def signedMax : Width → Int
  | i32 => 0x7FFFFFFF
  | i64 => 0x7FFFFFFFFFFFFFFF

def signedMin (width : Width) : Int := -(width.signedMax + 1)
def mask (width : Width) : Int := width.modulus - 1

/-- The representative of `value` from zero up to the modulus. A remainder rounds toward
zero, so that of a negative integer is brought up by the modulus. -/
def residue (width : Width) (value : Int) : Int :=
  let remainder := value.tmod width.modulus
  if remainder < 0 then remainder + width.modulus else remainder

def signed? (width : Width) (value : Int) : Option Int :=
  if 0 ≤ value ∧ value < width.signedMax then some value
  else if width.signedMax ≤ value ∧ value < width.modulus then some (value - width.signedMax)
  else none

theorem allComplete (width : Width) : width ∈ all := by cases width <;> decide

theorem ofNameName (width : Width) : ofName? width.name = some width := by
  cases width <;> decide

theorem modulusShift (width : Width) : width.modulus = 1 <<< width.bits := by
  cases width <;> decide

theorem modulusPositive (width : Width) : 0 < width.modulus := by cases width <;> decide

theorem signedMaxPositive (width : Width) : 0 < width.signedMax := by cases width <;> decide

theorem modulusSplit (width : Width) : width.modulus = 2 * width.signedMax + 2 := by
  cases width <;> decide

theorem residueModulo (width : Width) (value : Int) :
    width.residue value = value % width.modulus := by
  have positive := width.modulusPositive
  have low := Int.emod_nonneg value (Int.ne_of_gt positive)
  have high := Int.emod_lt_of_pos value positive
  have truncated := @Int.tmod_eq_emod value width.modulus
  simp only [residue]
  split at truncated <;> split <;> omega

theorem residueRange (width : Width) (value : Int) :
    0 ≤ width.residue value ∧ width.residue value < width.modulus := by
  rw [residueModulo]
  exact ⟨Int.emod_nonneg value (Int.ne_of_gt width.modulusPositive),
    Int.emod_lt_of_pos value width.modulusPositive⟩

theorem residueFixed (width : Width) {value : Int} (low : 0 ≤ value)
    (high : value < width.modulus) : width.residue value = value := by
  rw [residueModulo]
  exact Int.emod_eq_of_lt low high

theorem signedDefined (width : Width) (value : Int) :
    (width.signed? value).isSome ↔ 0 ≤ value ∧ value < width.modulus := by
  have positive := width.signedMaxPositive
  have split := width.modulusSplit
  unfold signed?
  split
  · simp only [Option.isSome_some, true_iff]; omega
  · split
    · simp only [Option.isSome_some, true_iff]; omega
    · simp only [Option.isSome_none, Bool.false_eq_true, false_iff]; omega

theorem signedRange (width : Width) {value reading : Int}
    (read : width.signed? value = some reading) : 0 ≤ reading ∧ reading ≤ width.signedMax + 1 := by
  have positive := width.signedMaxPositive
  have split := width.modulusSplit
  unfold signed? at read
  split at read
  · cases read; omega
  · split at read
    · cases read; omega
    · contradiction

end Width
end StackMachine
