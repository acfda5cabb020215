import Mathlib.Tactic.Common
import SchemaTyping.TypeUse.Basic

/-!
# Parts of type uses

The arguments of a declared use, the component of an array and the bound of a wildcard stand in a
use. What stands in a use without variables has a shorter text than the use, and no more uses of a
name inside each other.
-/

namespace SchemaTyping

namespace TypeUse

mutual
/-- How many uses of a name stand inside each other, at most. -/
def nesting (name : String) : TypeUse → Nat
  | .primitive _ => 0
  | .declared other args => (if other = name then 1 else 0) + nestingOfArgs name args
  | .array component => component.nesting name
  | .var _ none | .wildcard none => 0
  | .var _ (some bound) | .wildcard (some bound) => bound.nesting name

/-- The greatest nesting among arguments. -/
def nestingOfArgs (name : String) : List TypeUse → Nat
  | [] => 0
  | arg :: rest => max (arg.nesting name) (nestingOfArgs name rest)
end

mutual
/-- The type variables that occur in a type use. -/
def typeVariables : TypeUse → List String
  | .primitive _ => []
  | .declared _ args => typeVariablesOfArgs args
  | .array component => component.typeVariables
  | .var name none => [name]
  | .var name (some bound) => name :: bound.typeVariables
  | .wildcard none => []
  | .wildcard (some bound) => bound.typeVariables

/-- The type variables that occur in a list of type uses. -/
def typeVariablesOfArgs : List TypeUse → List String
  | [] => []
  | arg :: rest => arg.typeVariables ++ typeVariablesOfArgs rest
end

/-- An array without all its dimensions. -/
def innermost : TypeUse → TypeUse
  | .array component => component.innermost
  | type => type

/-- How many dimensions an array has; any other use has none. -/
def dimensions : TypeUse → Nat
  | .array component => component.dimensions + 1
  | _ => 0

/-- A use stands directly in another one. -/
inductive IsPart : TypeUse → TypeUse → Prop where
  | argument {arg : TypeUse} {args : List TypeUse} (name : String) (h : arg ∈ args) :
    IsPart arg (.declared name args)
  | component (component : TypeUse) : IsPart component (.array component)
  | bound (bound : TypeUse) : IsPart bound (.wildcard (some bound))

/-! ### Nesting -/

lemma nesting_le_nestingOfArgs {arg : TypeUse} {args : List TypeUse} (h : arg ∈ args)
    (name : String) : arg.nesting name ≤ nestingOfArgs name args := by
  induction args with
  | nil => cases h
  | cons first rest ih =>
    rw [nestingOfArgs]
    rcases List.mem_cons.1 h with rfl | hrest
    · exact Nat.le_max_left _ _
    · exact Nat.le_trans (ih hrest) (Nat.le_max_right _ _)

lemma IsPart.nesting_le {part type : TypeUse} (h : part.IsPart type) (name : String) :
    part.nesting name ≤ type.nesting name := by
  cases h with
  | argument other h =>
    rw [nesting]
    exact Nat.le_trans (nesting_le_nestingOfArgs h name) (Nat.le_add_left _ _)
  | component => simp [nesting]
  | bound => simp [nesting]

/-- No name is nested deeper than there are declared names in a use. -/
lemma nesting_le_length_names (name : String) (type : TypeUse) :
    type.nesting name ≤ type.names.length := by
  induction type with
  | primitive kind => simp [nesting]
  | declared other args ih =>
    have hargs : nestingOfArgs name args ≤ (namesOfArgs args).length := by
      induction args with
      | nil => exact Nat.zero_le _
      | cons first rest ihrest =>
        rw [nestingOfArgs, namesOfArgs, List.length_append]
        have hfirst := ih first List.mem_cons_self
        have hrest := ihrest fun arg harg => ih arg (List.mem_cons_of_mem _ harg)
        omega
    rw [nesting, names, List.length_cons]
    split <;> omega
  | array component ih => simpa [nesting, names] using ih
  | var other bound ih =>
    cases bound with
    | none => simp [nesting]
    | some bound => simpa [nesting, names] using ih bound rfl
  | wildcard bound ih =>
    cases bound with
    | none => simp [nesting]
    | some bound => simpa [nesting, names] using ih bound rfl

/-! ### Variables -/

lemma typeVariables_eq_nil_of_mem {arg : TypeUse} {args : List TypeUse}
    (hargs : typeVariablesOfArgs args = []) (h : arg ∈ args) : arg.typeVariables = [] := by
  induction args with
  | nil => cases h
  | cons first rest ih =>
    rw [typeVariablesOfArgs, List.append_eq_nil_iff] at hargs
    rcases List.mem_cons.1 h with rfl | hrest
    · exact hargs.1
    · exact ih hargs.2 hrest

lemma IsPart.typeVariables_eq_nil {part type : TypeUse} (h : part.IsPart type)
    (htype : type.typeVariables = []) : part.typeVariables = [] := by
  cases h with
  | argument name h => exact typeVariables_eq_nil_of_mem htype h
  | component => exact htype
  | bound => exact htype

lemma IsPart.within {P : String → Prop} {part type : TypeUse} (h : part.IsPart type)
    (htype : type.Within P) : part.Within P := by
  cases h with
  | argument name h => exact htype.of_mem_args h
  | component => exact htype
  | bound => exact htype

/-! ### Lengths of texts -/

lemma length_text_le_textOfArgs {arg : TypeUse} {args : List TypeUse} (h : arg ∈ args) :
    arg.text.length ≤ (textOfArgs args).length := by
  induction args with
  | nil => cases h
  | cons first rest ih =>
    rw [textOfArgs, String.length_append, String.length_append]
    rcases List.mem_cons.1 h with rfl | hrest
    · omega
    · have := ih hrest
      omega

/-- A part is written inside the text of what it stands in. -/
lemma IsPart.length_text_lt {part type : TypeUse} (h : part.IsPart type) :
    part.text.length < type.text.length := by
  cases h with
  | @argument args name h =>
    cases args with
    | nil => cases h
    | cons first rest =>
      have hmark : "<".length = 1 := rfl
      simp only [text, String.length_append]
      rcases List.mem_cons.1 h with rfl | hrest
      · omega
      · have := length_text_le_textOfArgs hrest
        omega
  | component =>
    have hmark : "[]".length = 2 := rfl
    rw [text, String.length_append]
    omega
  | bound =>
    have hmark : "? extends ".length = 10 := rfl
    rw [text, String.length_append]
    omega

/-! ### Innermost components -/

lemma sizeOf_innermost_le (type : TypeUse) : sizeOf type.innermost ≤ sizeOf type := by
  induction type with
  | array component ih =>
    rw [innermost, array.sizeOf_spec]
    omega
  | _ => exact Nat.le_refl _

/-- What goes from arrays over to their components goes over to the innermost one. -/
lemma innermost_of_component {P : TypeUse → Prop}
    (hcomponent : ∀ component, P (.array component) → P component) {type : TypeUse}
    (htype : P type) : P type.innermost := by
  induction type with
  | array component ih => exact ih (hcomponent component htype)
  | primitive | declared | var | wildcard => exact htype

end TypeUse

end SchemaTyping
