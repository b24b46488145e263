import StackMachine.Demo

/-! The demonstration as a program. -/

def main : IO UInt32 := do
  IO.print StackMachine.Demo.session.output
  return UInt32.ofNat StackMachine.Demo.session.status
