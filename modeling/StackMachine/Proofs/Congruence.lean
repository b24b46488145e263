import StackMachine.Proofs.LowBits
import StackMachine.Proofs.Pairing
import StackMachine.Proofs.Splitting

/-! Values are pushed as they come and not brought into range, so it is up to each operation
to read of its operands no more than their residues. Sums, products, bit operations and the
count of leading zeros read even less: the narrow width finds all it needs in the low
bits of a value at the wide one, and the wide answer has its answer in the low bits. -/
namespace StackMachine

namespace Operation

def lowBits : List Operation := [const, add, sub, mul, and, or, xor, clz]

def byResidue : List Operation :=
  lowBits ++ [divU, remU, ctz, popcnt, ltU, gtU, leU, geU]

end Operation

namespace Width

section Widths

variable {narrow wide : Width} {top otherTop second otherSecond value other : Int}

theorem truncatedCongruent (fits : narrow.bits ≤ wide.bits) (value : Int) :
    value.tmod wide.modulus ≡ value [ZMOD narrow.modulus] := by
  refine (Int.modEq_iff_dvd.mpr ?_).symm
  rw [Int.tmod_def, sub_sub_cancel_left, Int.dvd_neg]
  exact (modulusDivides fits).mul_right _

theorem reducedCongruent (fits : narrow.bits ≤ wide.bits)
    (same : value ≡ other [ZMOD narrow.modulus]) :
    value.tmod narrow.modulus ≡ other.tmod wide.modulus [ZMOD narrow.modulus] :=
  (truncatedCongruent (Nat.le_refl _) value).trans (same.trans (truncatedCongruent fits other).symm)

section Arithmetic

variable (fits : narrow.bits ≤ wide.bits) (first : top ≡ otherTop [ZMOD narrow.modulus])
  (next : second ≡ otherSecond [ZMOD narrow.modulus])

include fits first next

theorem addCongruent :
    narrow.add top second ≡ wide.add otherTop otherSecond [ZMOD narrow.modulus] :=
  reducedCongruent fits (first.add next)

theorem subCongruent :
    narrow.sub top second ≡ wide.sub otherTop otherSecond [ZMOD narrow.modulus] := by
  have moduli : narrow.modulus ≡ wide.modulus [ZMOD narrow.modulus] :=
    Int.modulus_modEq_zero.trans (modulusDivides fits).zero_modEq_int
  exact reducedCongruent fits ((first.sub next).add moduli)

theorem mulCongruent :
    narrow.mul top second ≡ wide.mul otherTop otherSecond [ZMOD narrow.modulus] :=
  reducedCongruent fits (first.mul next)

end Arithmetic

theorem clzCongruent (same : value ≡ other [ZMOD narrow.modulus]) (fits : narrow.bits ≤ wide.bits) :
    narrow.clz value = wide.clz other := by
  rw [modulusPower, Bitwise.congruentBits] at same
  refine congrArg Int.ofNat (Bitwise.leadingZerosLow fun index inside => ?_)
  have below : index < narrow.bits := inside.trans_le (by cases narrow <;> decide)
  rw [testBitResidue, testBitResidue, same index below]
  simp [below, below.trans_le fits]

end Widths

end Width

namespace Operation

theorem lowBitsRespect {narrow wide : Width} (fits : narrow.bits ≤ wide.bits)
    {operation : Operation} (low : operation ∈ lowBits) :
    operation.Respects (Int.ModEq narrow.modulus) narrow wide := by
  simp only [lowBits, List.mem_cons, List.not_mem_nil, or_false] at low
  rcases low with rfl | rfl | rfl | rfl | rfl | rfl | rfl | rfl
  · exact Action.immediateAlike
  · exact Action.numberAlike (Width.addCongruent fits)
  · exact Action.numberAlike (Width.subCongruent fits)
  · exact Action.numberAlike (Width.mulCongruent fits)
  · exact Action.numberAlike (Width.actsCongruent Bitwise.bitAnd)
  · exact Action.numberAlike (Width.actsCongruent Bitwise.bitOr)
  · exact Action.numberAlike (Width.actsCongruent Bitwise.bitXor)
  · exact Action.unaryAlike fun same => by rw [Width.clzCongruent same fits]

theorem byResidueRespects {width : Width} {operation : Operation} (reads : operation ∈ byResidue) :
    operation.Respects (Int.ModEq width.modulus) width width := by
  rcases List.mem_append.mp reads with low | reads
  · exact lowBitsRespect (Nat.le_refl _) low
  have reflexive : ∀ value, value ≡ value [ZMOD width.modulus] := Int.ModEq.refl
  simp only [List.mem_cons, List.not_mem_nil, or_false] at reads
  rcases reads with rfl | rfl | rfl | rfl | rfl | rfl | rfl | rfl
  · exact Action.valueAlike reflexive fun top second => by
      rw [Width.divU, Width.divU, Width.residueEqual.mpr top, Width.residueEqual.mpr second]
  · exact Action.valueAlike reflexive fun top second => by
      rw [Width.remU, Width.remU, Width.residueEqual.mpr top, Width.residueEqual.mpr second]
  · exact Action.unaryAlike fun value => by rw [Width.ctz, Width.ctz, Width.residueEqual.mpr value]
  · exact Action.unaryAlike fun value => by rw [Width.popcnt, Width.popcnt, Width.residueEqual.mpr value]
  all_goals
    exact Action.truthAlike reflexive fun top second => by
      rw [Width.residueEqual.mpr top, Width.residueEqual.mpr second]

end Operation

theorem congruentRunsAgree (width : Width) {instructions others : List Instruction}
    {stack beside : Stack}
    (operations : ∀ instruction ∈ instructions, instruction.operation ∈ Operation.byResidue)
    (programs : List.Forall₂ (Instruction.Paired (Int.ModEq width.modulus)) instructions others)
    (matched : stack.Paired (Int.ModEq width.modulus) beside) :
    (Program.execute ⟨width, instructions⟩ stack).run.Paired (Int.ModEq width.modulus)
      (Program.execute ⟨width, others⟩ beside).run :=
  executePaired programs matched fun instruction found =>
    Operation.byResidueRespects (operations instruction found)

theorem congruentRunsAgreeBelowZero :
    (Program.execute ⟨.i32, [.constant (-1), .bare .mul]⟩ [.number 3]).run =
      ⟨[.number (-3)], none⟩ ∧
    (Program.execute ⟨.i32, [.constant 0xFFFFFFFF, .bare .mul]⟩ [.number 3]).run =
      ⟨[.number 0xFFFFFFFD], none⟩ ∧
    Run.Paired (Int.ModEq Width.i32.modulus) ⟨[.number (-3)], none⟩
      ⟨[.number 0xFFFFFFFD], none⟩ := by
  have programs : List.Forall₂ (Instruction.Paired (Int.ModEq Width.i32.modulus))
      [.constant (-1), .bare .mul] [.constant 0xFFFFFFFF, .bare .mul] :=
    .cons ⟨rfl, .some (by decide)⟩ (.cons ⟨rfl, .none⟩ .nil)
  have matched : Stack.Paired (Int.ModEq Width.i32.modulus) [.number 3] [.number 3] :=
    .cons (.number (by decide)) .nil
  exact ⟨by rfl, by rfl, congruentRunsAgree .i32 (by decide) programs matched⟩

section Truncation

variable {stack beside : Stack}

theorem countsEqual {index : Nat} (matched : stack.Paired (Int.ModEq Width.i32.modulus) beside)
    (done : (run .i32 index [.bare .clz] stack).failure = none) :
    ∃ count, (run .i32 index [.bare .clz] stack).stack.top? = some (.number count) ∧
      (run .i64 index [.bare .clz] beside).stack.top? = some (.number count) := by
  match matched with
  | .nil => contradiction
  | .cons .trap _ => contradiction
  | .cons (.number same) _ =>
    have counts : Width.i64.clz _ = Width.i32.clz _ := (Width.clzCongruent same (by decide)).symm
    exact ⟨_, rfl, congrArg (fun count => some (Value.number count)) counts⟩

theorem narrowWithinWide {instructions : List Instruction}
    (operations : ∀ instruction ∈ instructions, instruction.operation ∈ Operation.lowBits)
    (matched : stack.Paired (Int.ModEq Width.i32.modulus) beside) :
    (Program.execute ⟨.i32, instructions⟩ stack).run.Paired (Int.ModEq Width.i32.modulus)
      (Program.execute ⟨.i64, instructions⟩ beside).run ∧
    ∀ front : List Instruction,
      let counting := front ++ [Instruction.bare .clz]
      counting <+: instructions → (Program.execute ⟨.i32, counting⟩ stack).failure = none →
      ∃ count, (Program.execute ⟨.i32, counting⟩ stack).stack.top? = some (.number count) ∧
        (Program.execute ⟨.i64, counting⟩ beside).stack.top? = some (.number count) := by
  have respects : ∀ instruction ∈ instructions,
      instruction.operation.Respects (Int.ModEq Width.i32.modulus) .i32 .i64 :=
    fun instruction found => Operation.lowBitsRespect (by decide) (operations instruction found)
  refine ⟨executePaired (sameProgram Int.ModEq.refl instructions) matched respects, ?_⟩
  intro front counting opening done
  simp only [executeFailure, executeStack, counting] at done ⊢
  -- What comes before the count succeeds at both widths and leaves matching stacks.
  have within : front <+: instructions := (List.prefix_append front _).trans opening
  have before : (run .i32 0 front stack).Paired (Int.ModEq Width.i32.modulus)
      (run .i64 0 front beside) :=
    runPaired (sameProgram Int.ModEq.refl front) matched
      fun instruction found => respects instruction (within.subset found)
  have narrow := runFrontDone done
  have wide := before.failure.symm.trans narrow
  rw [runAppendDone narrow] at done ⊢
  rw [runAppendDone wide]
  exact countsEqual before.stack done

theorem narrowWithinWideAcrossBorrow :
    Run.Paired (Int.ModEq Width.i32.modulus) ⟨[.number 0xFFFFFFFF], none⟩
      ⟨[.number 0xFFFFFFFEFFFFFFFF], none⟩ ∧
    ∃ count,
      (Program.execute ⟨.i32, [.constant 1, .bare .sub, .bare .clz]⟩ [.number 2]).stack.top? =
        some (.number count) ∧
      (Program.execute ⟨.i64, [.constant 1, .bare .sub, .bare .clz]⟩
        [.number 0x100000002]).stack.top? = some (.number count) := by
  have narrow : (Program.execute ⟨.i32, [.constant 1, .bare .sub]⟩ [.number 2]).run =
      ⟨[.number 0xFFFFFFFF], none⟩ := by rfl
  have wide : (Program.execute ⟨.i64, [.constant 1, .bare .sub]⟩ [.number 0x100000002]).run =
      ⟨[.number 0xFFFFFFFEFFFFFFFF], none⟩ := by rfl
  have matched : Stack.Paired (Int.ModEq Width.i32.modulus) [.number 2] [.number 0x100000002] :=
    .cons (.number (by decide)) .nil
  constructor
  · rw [← narrow, ← wide]
    exact (narrowWithinWide (by decide) matched).1
  · have operations : ∀ instruction ∈ [Instruction.constant 1, .bare .sub, .bare .clz],
        instruction.operation ∈ Operation.lowBits := by decide
    exact (narrowWithinWide operations matched).2 [.constant 1, .bare .sub] (List.prefix_refl _)
      (by rfl)

end Truncation
end StackMachine
