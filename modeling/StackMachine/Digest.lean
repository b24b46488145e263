import StackMachine.Blake3
import StackMachine.Program
import StackMachine.TwosComplement

/-! The written form of a program and its digest. The form starts with the number of
bits of the width; each instruction is a tag, a byte that tells whether an immediate
follows, and then the immediate behind its own length. -/
namespace StackMachine

/-- The length field has four bytes and keeps the length modulo their range. -/
def Instruction.encode (instruction : Instruction) : List UInt8 :=
  match instruction.immediate with
  | none => [instruction.operation.tag, 0]
  | some value =>
    let bytes := TwosComplement.bigEndian value
    instruction.operation.tag :: 1 :: (Bytes.bigEndian 4 bytes.length ++ bytes)

namespace Program

def encode (program : Program) : List UInt8 :=
  Bytes.bigEndian 4 program.width.bits ++ program.instructions.flatMap Instruction.encode

def digest (program : Program) : Blake3.Digest := Blake3.hash program.encode

def digestText (program : Program) : String := Bytes.hex program.digest.toList

end Program
end StackMachine
