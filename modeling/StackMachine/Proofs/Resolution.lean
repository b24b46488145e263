import StackMachine.Names

/-! What becomes of a text that is looked up as a name. A qualified name is the name of a width, a
dot and the name of an operation, and none of these names has a dot, so the first dot of a
text is the only place where it can be taken apart. A text is accepted in one way, refused as
the other width's, or unknown; the three exclude each other and leave nothing out. -/
namespace StackMachine

namespace Names

def OwnedBy (owner text : String) : Prop :=
  ∃ bare, text.toList = owner.toList ++ '.' :: bare ∧ '.' ∉ owner.toList

end Names

theorem Operation.nameDotless (operation : Operation) : '.' ∉ operation.name.toList := by
  cases operation <;> decide

namespace Operation

variable {text : String} {operation : Operation}

theorem parseAccepts : parse text = .ok operation ↔ text = operation.name := by
  constructor
  · intro parsed
    unfold parse at parsed
    split at parsed
    · rename_i found
      cases parsed
      exact ofNameSound found
    · contradiction
  · rintro rfl
    rw [parse, ofNameName]

theorem parseUnknown :
    parse text = .error (.unknownOperation text) ↔ ∀ operation, text ≠ Operation.name operation := by
  constructor
  · intro unknown operation named
    rw [parseAccepts.mpr named] at unknown
    contradiction
  · intro unnamed
    unfold parse
    split
    · rename_i found
      exact absurd (ofNameSound found) (unnamed _)
    · rfl

end Operation

namespace Width

variable {width other : Width} {text : String} {operation : Operation}

theorem nameDotless (width : Width) : '.' ∉ width.name.toList := by cases width <;> decide

theorem ofNameSound (found : ofName? text = some width) : text = width.name := by
  have same := List.find?_some found
  exact (beq_iff_eq.mp same).symm

theorem qualifiedWritten : text = width.qualifiedName operation ↔
    text.toList = width.name.toList ++ '.' :: operation.name.toList := by
  rw [← String.toList_inj, qualifiedName]
  simp

theorem lookupOwned {bare : List Char}
    (written : text.toList = other.name.toList ++ '.' :: bare) :
    width.lookup text =
      if other = width then
        (Operation.ofName? (String.ofList bare)).elim (.error (.unknownOperation text)) .ok
      else .error (.widthMismatch width text) := by
  rw [lookup, written, Names.splitAtDotComplete other.nameDotless]
  simp only [String.ofList_toList, ofNameName]
  cases Operation.ofName? (String.ofList bare) <;> rfl

theorem lookupNamed (named : text = width.qualifiedName operation) :
    width.lookup text = .ok operation := by
  rw [lookupOwned (qualifiedWritten.mp named), if_pos rfl, String.ofList_toList,
    Operation.ofNameName, Option.elim_some]

theorem lookupForeign (different : other ≠ width) (owned : Names.OwnedBy other.name text) :
    width.lookup text = .error (.widthMismatch width text) := by
  obtain ⟨bare, written, -⟩ := owned
  rw [lookupOwned written, if_neg different]

end Width

inductive Resolution (width : Width) (text : String) : Except Violation Operation → Prop where
  | named {operation : Operation} (written : text = width.qualifiedName operation) :
      Resolution width text (.ok operation)
  | foreign {other : Width} (different : other ≠ width) (owned : Names.OwnedBy other.name text) :
      Resolution width text (.error (.widthMismatch width text))
  | unknown (unnamed : ∀ operation, text ≠ width.qualifiedName operation)
      (own : ¬ ∃ other, other ≠ width ∧ Names.OwnedBy other.name text) :
      Resolution width text (.error (.unknownOperation text))

namespace Resolution

variable {width : Width} {text : String}

theorem ofUnknown (same : width.lookup text = .error (.unknownOperation text)) :
    Resolution width text (width.lookup text) := by
  have unnamed (operation : Operation) : text ≠ width.qualifiedName operation := fun named => by
    rw [Width.lookupNamed named] at same
    contradiction
  have own : ¬ ∃ other, other ≠ width ∧ Names.OwnedBy other.name text := by
    rintro ⟨other, different, owned⟩
    rw [Width.lookupForeign different owned] at same
    cases same
  rw [same]
  exact unknown unnamed own

theorem ofLookup (width : Width) (text : String) : Resolution width text (width.lookup text) := by
  cases split : Names.splitAtDot? text.toList with
  | none => exact ofUnknown (by rw [Width.lookup, split])
  | some parts =>
    obtain ⟨owner, bare⟩ := parts
    obtain ⟨written, -⟩ := Names.splitAtDotSound split
    cases found : Width.ofName? (String.ofList owner) with
    | none => exact ofUnknown (by simp only [Width.lookup, split, found])
    | some other =>
      have written : text.toList = other.name.toList ++ '.' :: bare := by
        rw [written, ← Width.ofNameSound found, String.toList_ofList]
      have answer : width.lookup text = _ := Width.lookupOwned written
      by_cases same : other = width
      · subst same
        rw [if_pos rfl] at answer
        cases listed : Operation.ofName? (String.ofList bare) with
        | none => exact ofUnknown (by rw [answer, listed, Option.elim_none])
        | some operation =>
          rw [answer, listed, Option.elim_some]
          refine named (Width.qualifiedWritten.mpr ?_)
          rw [written, ← Operation.ofNameSound listed, String.toList_ofList]
      · rw [answer, if_neg same]
        exact foreign same ⟨bare, written, other.nameDotless⟩

theorem toLookup {answer : Except Violation Operation} (resolution : Resolution width text answer) :
    width.lookup text = answer := by
  cases resolution with
  | named written => exact Width.lookupNamed written
  | foreign different owned => exact Width.lookupForeign different owned
  | unknown unnamed own =>
    generalize answered : width.lookup text = answer
    cases answered ▸ ofLookup width text with
    | named written => exact absurd written (unnamed _)
    | foreign different owned => exact absurd ⟨_, different, owned⟩ own
    | unknown => rfl

theorem exactLookup {answer : Except Violation Operation} :
    width.lookup text = answer ↔ Resolution width text answer :=
  ⟨fun answered => answered ▸ ofLookup width text, toLookup⟩

theorem accepts {operation : Operation} :
    width.lookup text = .ok operation ↔ text = width.qualifiedName operation := by
  rw [exactLookup]
  constructor
  · rintro ⟨written⟩
    exact written
  · exact named

theorem mismatches : width.lookup text = .error (.widthMismatch width text) ↔
    ∃ other, other ≠ width ∧ Names.OwnedBy other.name text := by
  rw [exactLookup]
  constructor
  · intro resolution
    cases resolution with
    | foreign different owned => exact ⟨_, different, owned⟩
  · rintro ⟨other, different, owned⟩
    exact foreign different owned

theorem unknowns : width.lookup text = .error (.unknownOperation text) ↔
    (∀ operation, text ≠ width.qualifiedName operation) ∧
      ¬ ∃ other, other ≠ width ∧ Names.OwnedBy other.name text := by
  rw [exactLookup]
  constructor
  · intro resolution
    cases resolution with
    | unknown unnamed own => exact ⟨unnamed, own⟩
  · rintro ⟨unnamed, own⟩
    exact unknown unnamed own

end Resolution

theorem Width.qualifiedNameInjective {width : Width} {left right : Operation}
    (same : width.qualifiedName left = width.qualifiedName right) : left = right :=
  Except.ok.inj ((lookupNamed same).symm.trans (lookupNamed rfl)).symm

theorem Width.qualifiedNotBare (width : Width) (operation other : Operation) :
    width.qualifiedName operation ≠ other.name := by
  intro same
  have dotted := qualifiedWritten.mp same.symm
  have dotless := other.nameDotless
  rw [dotted] at dotless
  exact dotless (List.mem_append_right _ List.mem_cons_self)

structure Names.Resolved (width : Width) (text : String) : Prop where
  accepted : ∀ operation, width.lookup text = .ok operation ↔ text = width.qualifiedName operation
  unique : ∀ left right, text = width.qualifiedName left → text = width.qualifiedName right →
    left = right
  mismatched : width.lookup text = .error (.widthMismatch width text) ↔
    ∃ other, other ≠ width ∧ Names.OwnedBy other.name text
  unknown : width.lookup text = .error (.unknownOperation text) ↔
    (∀ operation, text ≠ width.qualifiedName operation) ∧
      ¬ ∃ other, other ≠ width ∧ Names.OwnedBy other.name text
  parsed : ∀ operation, Operation.parse text = .ok operation ↔ text = operation.name
  unparsed : Operation.parse text = .error (.unknownOperation text) ↔
    ∀ operation, text ≠ Operation.name operation
  apart : ¬ ((∃ operation, width.lookup text = .ok operation) ∧
    ∃ operation, Operation.parse text = .ok operation)

theorem namesResolved (width : Width) (text : String) : Names.Resolved width text where
  accepted _ := Resolution.accepts
  unique _ _ first second := Width.qualifiedNameInjective (first.symm.trans second)
  mismatched := Resolution.mismatches
  unknown := Resolution.unknowns
  parsed _ := Operation.parseAccepts
  unparsed := Operation.parseUnknown
  apart := by
    rintro ⟨⟨operation, found⟩, other, parsed⟩
    have qualified := Resolution.accepts.mp found
    have bare := Operation.parseAccepts.mp parsed
    exact width.qualifiedNotBare operation other (qualified.symm.trans bare)

example : Width.i32.lookup "i64.i32.add" = .error (.widthMismatch .i32 "i64.i32.add") := by rfl

end StackMachine
