/-! Bits of unbounded integers. An integer is read as two's complement without end:
above its highest written bit a negative one has only ones. What is here runs on core
alone; that the three operations are `Int.land`, `Int.lor` and `Int.xor` is shown in
`Proofs.LowBits`. The counts read a natural number through a window of a fixed number of
bits. -/
namespace StackMachine.Bitwise

def without (left right : Nat) : Nat := left ^^^ (left &&& right)

def and : Int → Int → Int
  | .ofNat left, .ofNat right => .ofNat (left &&& right)
  | .ofNat left, .negSucc right => .ofNat (without left right)
  | .negSucc left, .ofNat right => .ofNat (without right left)
  | .negSucc left, .negSucc right => .negSucc (left ||| right)

def or : Int → Int → Int
  | .ofNat left, .ofNat right => .ofNat (left ||| right)
  | .ofNat left, .negSucc right => .negSucc (without right left)
  | .negSucc left, .ofNat right => .negSucc (without left right)
  | .negSucc left, .negSucc right => .negSucc (left &&& right)

def xor : Int → Int → Int
  | .ofNat left, .ofNat right => .ofNat (left ^^^ right)
  | .ofNat left, .negSucc right => .negSucc (left ^^^ right)
  | .negSucc left, .ofNat right => .negSucc (left ^^^ right)
  | .negSucc left, .negSucc right => .ofNat (left ^^^ right)

def leadingZeros : Nat → Nat → Nat
  | 0, _ => 0
  | window + 1, value => if value.testBit window then 0 else 1 + leadingZeros window value

def trailingZeros : Nat → Nat → Nat
  | 0, _ => 0
  | window + 1, value => if value % 2 = 1 then 0 else 1 + trailingZeros window (value / 2)

def setBits : Nat → Nat → Nat
  | 0, _ => 0
  | window + 1, value => value % 2 + setBits window (value / 2)

theorem leadingZerosBound (window value : Nat) : leadingZeros window value ≤ window := by
  induction window with
  | zero => exact Nat.le_refl _
  | succ window ih => simp only [leadingZeros]; split <;> omega

theorem trailingZerosBound (window value : Nat) : trailingZeros window value ≤ window := by
  induction window generalizing value with
  | zero => exact Nat.le_refl _
  | succ window ih =>
    have tail := ih (value / 2)
    simp only [trailingZeros]; split <;> omega

theorem setBitsBound (window value : Nat) : setBits window value ≤ window := by
  induction window generalizing value with
  | zero => exact Nat.le_refl _
  | succ window ih =>
    have tail := ih (value / 2)
    simp only [setBits]; omega

end StackMachine.Bitwise
