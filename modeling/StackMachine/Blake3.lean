import StackMachine.Bytes

/-! BLAKE3 without a key, with an output of thirty-two bytes. The input is cut into
chunks of 1024 bytes and a chunk into blocks of 64; the chunks are the leaves of a
tree whose left subtrees are complete. No statement about collisions is made here. -/
namespace StackMachine.Blake3

abbrev Words (count : Nat) := Vector UInt32 count
abbrev Digest := Vector UInt8 32

def initial : Words 8 :=
  #v[0x6A09E667, 0xBB67AE85, 0x3C6EF372, 0xA54FF53A, 0x510E527F, 0x9B05688C, 0x1F83D9AB, 0x5BE0CD19]

def permutation : Vector (Fin 16) 16 := #v[2, 6, 3, 10, 7, 0, 4, 13, 1, 11, 12, 5, 9, 14, 15, 8]

def chunkStart : UInt32 := 1
def chunkEnd : UInt32 := 2
def parentNode : UInt32 := 4
def rootNode : UInt32 := 8

def rotateRight (word count : UInt32) : UInt32 := word >>> count ||| word <<< (32 - count)

def mix (state : Words 16) (a b c d : Fin 16) (first second : UInt32) : Words 16 :=
  let wordA := state[a] + state[b] + first
  let wordD := rotateRight (state[d] ^^^ wordA) 16
  let wordC := state[c] + wordD
  let wordB := rotateRight (state[b] ^^^ wordC) 12
  let wordA := wordA + wordB + second
  let wordD := rotateRight (wordD ^^^ wordA) 8
  let wordC := wordC + wordD
  let wordB := rotateRight (wordB ^^^ wordC) 7
  (((state.set a wordA).set b wordB).set c wordC).set d wordD

def round (state block : Words 16) : Words 16 :=
  let state := mix state 0 4 8 12 block[0] block[1]
  let state := mix state 1 5 9 13 block[2] block[3]
  let state := mix state 2 6 10 14 block[4] block[5]
  let state := mix state 3 7 11 15 block[6] block[7]
  let state := mix state 0 5 10 15 block[8] block[9]
  let state := mix state 1 6 11 12 block[10] block[11]
  let state := mix state 2 7 8 13 block[12] block[13]
  mix state 3 4 9 14 block[14] block[15]

def rounds : Nat → Words 16 → Words 16 → Words 16
  | 0, state, _ => state
  | count + 1, state, block =>
    rounds count (round state block) (Vector.ofFn fun index => block[permutation[index]])

structure Node where
  chaining : Words 8
  block : Words 16
  counter : Nat
  length : Nat
  flags : UInt32
  deriving DecidableEq, Repr

namespace Node

def compress (node : Node) : Words 8 :=
  let state := rounds 7 (node.chaining ++ #v[initial[0], initial[1], initial[2], initial[3],
    UInt32.ofNat node.counter, UInt32.ofNat (node.counter >>> 32), UInt32.ofNat node.length,
    node.flags]) node.block
  Vector.ofFn fun index : Fin 8 => state[index.val] ^^^ state[index.val + 8]

def asRoot (node : Node) : Node := { node with flags := node.flags ||| rootNode, counter := 0 }

end Node

def blockWords (bytes : List UInt8) : Words 16 :=
  Vector.ofFn fun index =>
    UInt32.ofNat (Bytes.readLittleEndian ((bytes.drop (4 * index.val)).take 4))

def chunk (counter : Nat) (chaining : Words 8) (start : UInt32) (input : List UInt8) : Node :=
  if input.length ≤ 64 then ⟨chaining, blockWords input, counter, input.length, start ||| chunkEnd⟩
  else chunk counter (Node.compress ⟨chaining, blockWords (input.take 64), counter, 64, start⟩) 0
    (input.drop 64)
termination_by input.length
decreasing_by simp only [List.length_drop]; omega

def parent (left right : Node) : Node :=
  ⟨initial, left.compress ++ right.compress, 0, 64, parentNode⟩

def leftLength (length : Nat) : Nat := 1 <<< (length - 1).log2

theorem leftLengthBounds {length : Nat} (long : 1024 < length) :
    0 < leftLength length ∧ leftLength length < length := by
  have below : 2 ^ (length - 1).log2 ≤ length - 1 := Nat.log2_self_le (by omega)
  rw [leftLength, Nat.one_shiftLeft]
  exact ⟨Nat.two_pow_pos _, by omega⟩

def tree (counter : Nat) (input : List UInt8) : Node :=
  if input.length ≤ 1024 then chunk counter initial chunkStart input
  else
    parent (tree counter (input.take (leftLength input.length)))
      (tree (counter + leftLength input.length / 1024) (input.drop (leftLength input.length)))
termination_by input.length
decreasing_by
  · have bounds := leftLengthBounds (show 1024 < input.length by omega)
    simp only [List.length_take]; omega
  · have bounds := leftLengthBounds (show 1024 < input.length by omega)
    simp only [List.length_drop]; omega

def hash (input : List UInt8) : Digest :=
  let words := (tree 0 input).asRoot.compress
  Vector.ofFn fun index : Fin 32 =>
    UInt8.ofNat (words[index.val / 4].toNat >>> (8 * (index.val % 4)))

end StackMachine.Blake3
