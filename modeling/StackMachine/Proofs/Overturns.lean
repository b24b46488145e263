import StackMachine.Proofs.Turns

/-! Rotations of residues by more than the width. A full turn changes nothing, so an amount
would count modulo the width. What is pushed instead is a shift by the positions past
the full turn: to the left it keeps the bits that leave the word, to the right it drops
them. It is the rotation where no bit leaves, and nowhere else. -/
namespace StackMachine

namespace Width

variable {width : Width} {value : Int} {past : Nat}

theorem bitsPositive (width : Width) : 0 < width.bits := by cases width <;> decide

theorem turnedBack (width : Width) (amount : Nat) :
    width.bits - amount % width.bits + amount ≡ 0 [MOD width.bits] := by
  have below := Nat.mod_lt amount width.bitsPositive
  have split := Nat.div_add_mod amount width.bits
  have whole : width.bits - amount % width.bits + amount =
      width.bits * (amount / width.bits) + width.bits := by omega
  rw [whole, Nat.modEq_zero_iff_dvd]
  exact Nat.dvd_add (Nat.dvd_mul_right _ _) (Nat.dvd_refl _)

theorem turnedSource (width : Width) {index : Nat} (inside : index < width.bits) (amount : Nat) :
    ∃ target < width.bits, (target + amount) % width.bits = index := by
  refine ⟨_, Nat.mod_lt (index + (width.bits - amount % width.bits)) width.bitsPositive, ?_⟩
  have round : (index + (width.bits - amount % width.bits)) % width.bits + amount ≡ index + 0
      [MOD width.bits] :=
    calc (index + (width.bits - amount % width.bits)) % width.bits + amount
        ≡ index + (width.bits - amount % width.bits) + amount [MOD width.bits] :=
          (Nat.mod_modEq _ _).add_right amount
      _ = index + (width.bits - amount % width.bits + amount) := Nat.add_assoc _ _ _
      _ ≡ index + 0 [MOD width.bits] := (width.turnedBack amount).add_left index
  exact Eq.trans round (Nat.mod_eq_of_lt inside)

theorem quotientRotated (residue : width.IsResidue value) :
    width.word (value / 2 ^ past) = (width.word value).rotate past ↔ 2 ^ past ∣ value := by
  have clear {index : Nat} (beyond : width.bits ≤ index) : value.testBit index = false :=
    residueBits.mp residue index beyond
  rw [wordRotated, Bitwise.multipleBits]
  simp only [Bitwise.bitQuotient]
  constructor
  · intro same index below
    rcases Nat.lt_or_ge index width.bits with inside | beyond
    · -- This bit would come round to `target`, where nothing comes in from above the word.
      obtain ⟨target, within, source⟩ := width.turnedSource inside past
      have outside : width.bits ≤ target + past := by
        by_contra short
        rw [Nat.mod_eq_of_lt (Nat.not_le.mp short)] at source
        omega
      rw [← source, ← same target within]
      exact clear outside
    · exact clear beyond
  · intro low index inside
    rcases Nat.lt_or_ge (index + past) width.bits with within | around
    · rw [Nat.mod_eq_of_lt within]
    · have wrapped : (index + past) % width.bits < past := by
        rw [Nat.mod_eq_sub_mod around]
        exact (Nat.mod_le _ _).trans_lt (by omega)
      rw [clear around, low _ wrapped]

theorem productRotated (kept : width.IsResidue (value * 2 ^ past)) :
    width.word (value * 2 ^ past) =
      (width.word value).rotate (width.bits - past % width.bits) := by
  have positive : (0 : Int) < 2 ^ past := Int.pow_pos (by decide)
  have back := (quotientRotated kept).mpr (dvd_mul_left _ _)
  rw [Int.mul_ediv_cancel _ (Int.ne_of_gt positive)] at back
  have round := width.turnedBack past
  rw [Nat.add_comm] at round
  rw [back, List.rotate_rotate, wordSame round, List.rotate_zero]

end Width

namespace Turn

variable {width : Width} {value result : Int} {amount : Nat}

theorem Rotates.same {turn other : Turn} (rotates : turn.Rotates width value result)
    (same : turn.offset width ≡ other.offset width [MOD width.bits]) :
    other.Rotates width value result :=
  ⟨rotates.residue, rotates.word.trans (Width.wordSame same)⟩

theorem leftModulo (within : amount ≤ width.bits) :
    (left amount).offset width ≡ (left (amount % width.bits)).offset width [MOD width.bits] := by
  have full : width.bits - amount + amount ≡ 0 [MOD width.bits] := by
    rw [Nat.sub_add_cancel within]
    exact Nat.modEq_zero_iff_dvd.mpr (Nat.dvd_refl _)
  exact (full.trans (width.turnedBack amount).symm).add_right_cancel'

theorem rightModulo (width : Width) (amount : Nat) :
    (right amount).offset width ≡ (right (amount % width.bits)).offset width [MOD width.bits] :=
  (Nat.mod_modEq amount width.bits).symm

theorem leftPast (residue : width.IsResidue value) (past : width.bits ≤ amount) :
    (left (amount % width.bits)).Rotates width value (value * 2 ^ (amount - width.bits)) ↔
      value * 2 ^ (amount - width.bits) < width.modulus := by
  constructor
  · exact fun rotates => rotates.residue.2
  · intro below
    have natural : 0 ≤ value * 2 ^ (amount - width.bits) :=
      Int.mul_nonneg residue.1 (Int.pow_pos (by decide)).le
    have turned := Width.productRotated ⟨natural, below⟩
    rw [← Nat.mod_eq_sub_mod past] at turned
    exact ⟨⟨natural, below⟩, turned⟩

theorem rightPast (residue : width.IsResidue value) (past : width.bits ≤ amount) :
    (right (amount % width.bits)).Rotates width value (value / 2 ^ (amount - width.bits)) ↔
      2 ^ (amount - width.bits) ∣ value := by
  have same : amount % width.bits ≡ amount - width.bits [MOD width.bits] := by
    rw [Nat.mod_eq_sub_mod past]
    exact Nat.mod_modEq _ _
  rw [← Width.quotientRotated residue, ← Width.wordSame same]
  exact ⟨fun rotates => rotates.word, fun turned => ⟨Width.quotientResidue residue _, turned⟩⟩

end Turn

theorem rotationsPastTheWidth {width : Width} {value : Int} (residue : width.IsResidue value)
    {amount : Nat} (near : amount ≤ Shift.longest) (rest : Stack) : ∃ left right,
    width.apply .rotl (.number amount :: .number value :: rest) = .done (.number left :: rest) ∧
    width.apply .rotr (.number amount :: .number value :: rest) = .done (.number right :: rest) ∧
    (width.bits < amount → left = value * 2 ^ (amount - width.bits) ∧
      right = value / 2 ^ (amount - width.bits)) ∧
    ((Turn.left (amount % width.bits)).Rotates width value left ↔
      value * 2 ^ (amount - width.bits) < width.modulus) ∧
    ((Turn.right (amount % width.bits)).Rotates width value right ↔
      2 ^ (amount - width.bits) ∣ value) ∧
    (width.IsResidue left ↔ value * 2 ^ (amount - width.bits) < width.modulus) ∧
    width.IsResidue right := by
  rcases Nat.lt_or_ge width.bits amount with past | within
  · have beyond : (width.bits : Int) < amount := Int.ofNat_lt.mpr past
    have shifted := Width.rotlBeyond residue beyond (Int.ofNat_le.mpr near)
    have dropped := Width.rotrBeyond residue beyond
    rw [Int.toNat_sub] at shifted dropped
    have turned := Turn.leftPast residue past.le
    refine ⟨_, _, ?_, ?_, fun _ => ⟨rfl, rfl⟩, turned, Turn.rightPast residue past.le, ?_,
      Width.quotientResidue residue _⟩
    · rw [Width.applyShift rfl, shifted]
      rfl
    · rw [Width.applyShift rfl, dropped]
      rfl
    · exact ⟨fun kept => kept.2, fun below => (turned.mpr below).residue⟩
  · obtain ⟨left, leftRotates, leftDone⟩ := (Turn.left amount).applied within residue
    obtain ⟨right, rightRotates, rightDone⟩ := (Turn.right amount).applied within residue
    have inside : value * 2 ^ (amount - width.bits) < width.modulus := by
      rw [Nat.sub_eq_zero_of_le within, pow_zero, Int.mul_one]
      exact residue.2
    have whole : 2 ^ (amount - width.bits) ∣ value := by
      rw [Nat.sub_eq_zero_of_le within, pow_zero]
      exact Int.one_dvd value
    exact ⟨left, right, leftDone rest, rightDone rest,
      fun past => absurd past (Nat.not_lt.mpr within),
      iff_of_true (leftRotates.same (Turn.leftModulo within)) inside,
      iff_of_true (rightRotates.same (Turn.rightModulo width amount)) whole,
      iff_of_true leftRotates.residue inside, rightRotates.residue⟩

theorem rotationsPastTheWidthByFive : ∃ left right,
    Width.i32.apply .rotl [.number 37, .number 0x80000020] = .done [.number left] ∧
    Width.i32.apply .rotr [.number 37, .number 0x80000020] = .done [.number right] ∧
    left = 0x1000000400 ∧ right = 0x4000001 ∧ ¬ Width.i32.IsResidue left ∧
    (Turn.right 5).Rotates .i32 0x80000020 right := by
  have residue : Width.i32.IsResidue 0x80000020 := by decide
  have near : 37 ≤ Shift.longest := by decide
  obtain ⟨left, right, leftDone, rightDone, past, -, turned, kept, -⟩ :=
    rotationsPastTheWidth residue near []
  obtain ⟨product, quotient⟩ := past (by decide)
  exact ⟨left, right, leftDone, rightDone, product, quotient, fun inside => by
    exact absurd (kept.mp inside) (by decide), turned.mpr (by decide)⟩

theorem fullTurnCounts :
    Width.i32.apply .rotl [.number 33, .number 0x80000001] = .done [.number 0x100000002] ∧
    Width.i32.apply .rotl [.number 1, .number 0x80000001] = .done [.number 3] ∧
    Width.i32.apply .rotr [.number 33, .number 0x80000001] = .done [.number 0x40000000] ∧
    Width.i32.apply .rotr [.number 1, .number 0x80000001] = .done [.number 0xC0000000] := by
  decide

end StackMachine
