/-!
# Qualified names

A qualified name is split at its last dot into a package and a simple name. A name without a
dot belongs to the empty package and is its own simple name.
-/

namespace SchemaTyping

/-- The characters before and after the last dot, if there is one. -/
def splitAtLastDot : List Char → Option (List Char × List Char)
  | [] => none
  | c :: rest =>
    match splitAtLastDot rest with
    | some (before, after) => some (c :: before, after)
    | none => if c = '.' then some ([], rest) else none

/-- A text that cannot be split has no dot. -/
theorem not_dot_of_splitAtLastDot_eq_none {name : List Char} (h : splitAtLastDot name = none) :
    '.' ∉ name := by
  induction name with
  | nil => simp
  | cons c rest ih =>
    rw [splitAtLastDot] at h
    split at h
    · simp at h
    · next hnone =>
      split at h
      · simp at h
      · next hc => simp [ih hnone, Ne.symm hc]

/-- The package of a qualified name: all before its last dot. -/
def packageOf (name : String) : String :=
  match splitAtLastDot name.toList with
  | some (before, _) => String.ofList before
  | none => ""

/-- The simple name: all after the last dot. -/
def simpleNameOf (name : String) : String :=
  match splitAtLastDot name.toList with
  | some (_, after) => String.ofList after
  | none => name

/-- A split loses nothing but the dot, and no dot follows it. -/
theorem splitAtLastDot_eq_some {name before after : List Char}
    (h : splitAtLastDot name = some (before, after)) :
    name = before ++ '.' :: after ∧ '.' ∉ after := by
  induction name generalizing before with
  | nil => simp [splitAtLastDot] at h
  | cons c rest ih =>
    rw [splitAtLastDot] at h
    split at h
    · next b a hsplit =>
      obtain ⟨rfl, rfl⟩ : c :: b = before ∧ a = after := by simpa using h
      obtain ⟨happend, hdot⟩ := ih hsplit
      exact ⟨by rw [happend]; rfl, hdot⟩
    · next hnone =>
      split at h
      · next hc =>
        obtain ⟨rfl, rfl⟩ : [] = before ∧ rest = after := by simpa using h
        exact ⟨by rw [hc]; rfl, not_dot_of_splitAtLastDot_eq_none hnone⟩
      · simp at h

theorem splitAtLastDot_eq_none {name : List Char} (h : '.' ∉ name) :
    splitAtLastDot name = none := by
  cases hsplit : splitAtLastDot name with
  | none => rfl
  | some parts =>
    obtain ⟨before, after⟩ := parts
    obtain ⟨rfl, -⟩ := splitAtLastDot_eq_some hsplit
    exact absurd (List.mem_append_right before List.mem_cons_self) h

theorem splitAtLastDot_append {after : List Char} (h : '.' ∉ after) (before : List Char) :
    splitAtLastDot (before ++ '.' :: after) = some (before, after) := by
  induction before with
  | nil => simp [splitAtLastDot, splitAtLastDot_eq_none h]
  | cons c before ih => rw [List.cons_append, splitAtLastDot, ih]

/-! ### Packages and simple names -/

/-- A name has a package and a simple name: before and after its last dot, or no package if there is
no dot. -/
inductive Qualified : String → String → String → Prop where
  | dotted {package simple : String} (h : '.' ∉ simple.toList) :
    Qualified (package ++ "." ++ simple) package simple
  | undotted {simple : String} (h : '.' ∉ simple.toList) : Qualified simple "" simple

/-- Every name has one package and one simple name. -/
theorem qualified_iff {name package simple : String} :
    Qualified name package simple ↔ packageOf name = package ∧ simpleNameOf name = simple := by
  constructor
  · rintro (⟨h⟩ | ⟨h⟩)
    · have hsplit : splitAtLastDot (package ++ "." ++ simple).toList =
          some (package.toList, simple.toList) := by
        simpa using splitAtLastDot_append h package.toList
      rw [packageOf, simpleNameOf, hsplit]
      exact ⟨String.ofList_toList, String.ofList_toList⟩
    · rw [packageOf, simpleNameOf, splitAtLastDot_eq_none h]
      exact ⟨rfl, rfl⟩
  · rintro ⟨rfl, rfl⟩
    rw [packageOf, simpleNameOf]
    cases hsplit : splitAtLastDot name.toList with
    | none => exact .undotted (not_dot_of_splitAtLastDot_eq_none hsplit)
    | some parts =>
      obtain ⟨before, after⟩ := parts
      obtain ⟨happend, hdot⟩ := splitAtLastDot_eq_some hsplit
      have hname : name = String.ofList before ++ "." ++ String.ofList after := by
        rw [← String.toList_inj, happend]
        simp
      have hqualified : Qualified (String.ofList before ++ "." ++ String.ofList after)
          (String.ofList before) (String.ofList after) := .dotted (by simpa using hdot)
      rwa [← hname] at hqualified

end SchemaTyping
