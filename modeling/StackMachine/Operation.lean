/-! The operation table: thirty names, each with a tag byte, a number of operands
and whether it may push a trap. The order of `all` is the order of the table. -/
namespace StackMachine

inductive Operation where
  | const
  | add
  | sub
  | mul
  | divU
  | divS
  | remU
  | remS
  | and
  | or
  | xor
  | shl
  | shrU
  | shrS
  | rotl
  | rotr
  | clz
  | ctz
  | popcnt
  | eqz
  | eq
  | ne
  | ltU
  | ltS
  | gtU
  | gtS
  | leU
  | leS
  | geU
  | geS
  deriving DecidableEq, Repr

namespace Operation

def all : List Operation :=
  [const, add, sub, mul, divU, divS, remU, remS, and, or, xor, shl, shrU, shrS, rotl, rotr,
    clz, ctz, popcnt, eqz, eq, ne, ltU, ltS, gtU, gtS, leU, leS, geU, geS]

def name : Operation → String
  | const => "const"
  | add => "add"
  | sub => "sub"
  | mul => "mul"
  | divU => "div_u"
  | divS => "div_s"
  | remU => "rem_u"
  | remS => "rem_s"
  | and => "and"
  | or => "or"
  | xor => "xor"
  | shl => "shl"
  | shrU => "shr_u"
  | shrS => "shr_s"
  | rotl => "rotl"
  | rotr => "rotr"
  | clz => "clz"
  | ctz => "ctz"
  | popcnt => "popcnt"
  | eqz => "eqz"
  | eq => "eq"
  | ne => "ne"
  | ltU => "lt_u"
  | ltS => "lt_s"
  | gtU => "gt_u"
  | gtS => "gt_s"
  | leU => "le_u"
  | leS => "le_s"
  | geU => "ge_u"
  | geS => "ge_s"

def tag : Operation → UInt8
  | const => 0x00
  | add => 0x10
  | sub => 0x11
  | mul => 0x12
  | divU => 0x13
  | divS => 0x14
  | remU => 0x15
  | remS => 0x16
  | and => 0x20
  | or => 0x21
  | xor => 0x22
  | shl => 0x23
  | shrU => 0x24
  | shrS => 0x25
  | rotl => 0x26
  | rotr => 0x27
  | clz => 0x30
  | ctz => 0x31
  | popcnt => 0x32
  | eqz => 0x40
  | eq => 0x41
  | ne => 0x42
  | ltU => 0x43
  | ltS => 0x44
  | gtU => 0x45
  | gtS => 0x46
  | leU => 0x47
  | leS => 0x48
  | geU => 0x49
  | geS => 0x4A

def arity : Operation → Nat
  | const => 0
  | clz | ctz | popcnt | eqz => 1
  | _ => 2

def canTrap : Operation → Bool
  | divU | divS | remU | remS => true
  | _ => false

def ofName? (name : String) : Option Operation :=
  all.find? (fun operation => operation.name == name)

theorem allComplete (operation : Operation) : operation ∈ all := by
  cases operation <;> decide

theorem tagInjective {left right : Operation} (same : left.tag = right.tag) : left = right := by
  have distinct : ∀ first ∈ all, ∀ second ∈ all, first.tag = second.tag → first = second := by
    decide
  exact distinct left left.allComplete right right.allComplete same

theorem ofNameName (operation : Operation) : ofName? operation.name = some operation := by
  cases operation <;> decide

theorem nameInjective {left right : Operation} (same : left.name = right.name) : left = right := by
  have found := left.ofNameName
  rw [same, right.ofNameName] at found
  exact (Option.some.inj found).symm

theorem ofNameSound {text : String} {operation : Operation}
    (found : ofName? text = some operation) : text = operation.name := by
  have same := List.find?_some found
  exact (beq_iff_eq.mp same).symm

end Operation
end StackMachine
