import StackMachine.Violation

/-! Names of operations as text: bare, or qualified by a width and a dot. A name is
refused with the whole text it was given, never with a part of it. -/
namespace StackMachine

namespace Operation

def parse (text : String) : Except Violation Operation :=
  match ofName? text with
  | some operation => .ok operation
  | none => .error (.unknownOperation text)

end Operation

namespace Names

def splitAtDot? : List Char → Option (List Char × List Char)
  | [] => none
  | first :: rest =>
    if first = '.' then some ([], rest)
    else (splitAtDot? rest).map (fun parts => (first :: parts.1, parts.2))

theorem splitAtDotSound {text before after : List Char}
    (found : splitAtDot? text = some (before, after)) :
    text = before ++ '.' :: after ∧ '.' ∉ before := by
  induction text generalizing before with
  | nil => contradiction
  | cons first rest ih =>
    by_cases dot : first = '.'
    · simp only [splitAtDot?, dot, if_true, Option.some.injEq, Prod.mk.injEq] at found
      obtain ⟨rfl, rfl⟩ := found
      simp [dot]
    · simp only [splitAtDot?, dot, if_false, Option.map_eq_some_iff, Prod.mk.injEq] at found
      obtain ⟨⟨front, back⟩, inner, rfl, rfl⟩ := found
      obtain ⟨joined, absent⟩ := ih inner
      refine ⟨by simp [joined], ?_⟩
      simp only [List.mem_cons, not_or]
      exact ⟨fun same => dot same.symm, absent⟩

theorem splitAtDotComplete {before : List Char} (absent : '.' ∉ before) (after : List Char) :
    splitAtDot? (before ++ '.' :: after) = some (before, after) := by
  induction before with
  | nil => simp [splitAtDot?]
  | cons first rest ih =>
    simp only [List.mem_cons, not_or] at absent
    have dot : first ≠ '.' := fun same => absent.1 same.symm
    simp [splitAtDot?, dot, ih absent.2]

end Names

namespace Width

def qualifiedName (width : Width) (operation : Operation) : String :=
  width.name ++ "." ++ operation.name

/-- The owner of a qualified name is all that stands before the first dot, so a
further dot belongs to the bare name and makes it unknown. The other width's names
are refused as such, whether or not what follows names an operation. -/
def lookup (width : Width) (text : String) : Except Violation Operation :=
  match Names.splitAtDot? text.toList with
  | none => .error (.unknownOperation text)
  | some (owner, bare) =>
    match Width.ofName? (String.ofList owner) with
    | none => .error (.unknownOperation text)
    | some found =>
      if found = width then
        match Operation.ofName? (String.ofList bare) with
        | none => .error (.unknownOperation text)
        | some operation => .ok operation
      else .error (.widthMismatch width text)

end Width
end StackMachine
