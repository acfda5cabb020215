import SchemaTyping.TypeUse.Basic

/-!
# Substitution of type variables

A generic declaration names its parameters; a use of it gives arguments for them. Substitution
puts the arguments in the place of the variables that have the parameters' names. Variables
without an argument stay as they are, and the bound of a variable is left alone.
-/

namespace SchemaTyping

namespace TypeUse

/-- The argument in the position where a name first stands among the parameters. -/
def argumentFor? (name : String) : List String → List TypeUse → Option TypeUse
  | param :: params, arg :: args =>
    if param = name then some arg else argumentFor? name params args
  | _, _ => none

mutual
/-- Put arguments in the place of the variables named by parameters. -/
def substitute (params : List String) (args : List TypeUse) : TypeUse → TypeUse
  | .primitive kind => .primitive kind
  | .declared name inner => .declared name (substituteArgs params args inner)
  | .array component => .array (component.substitute params args)
  | .var name bound => (argumentFor? name params args).getD (.var name bound)
  | .wildcard none => .wildcard none
  | .wildcard (some bound) => .wildcard (some (bound.substitute params args))

/-- Substitution in a list of arguments. -/
def substituteArgs (params : List String) (args : List TypeUse) :
    List TypeUse → List TypeUse
  | [] => []
  | arg :: rest => arg.substitute params args :: substituteArgs params args rest
end

theorem substituteArgs_eq_map (params : List String) (args inner : List TypeUse) :
    substituteArgs params args inner = inner.map (substitute params args) := by
  induction inner with
  | nil => rfl
  | cons arg rest ih => rw [substituteArgs, ih, List.map_cons]

theorem mem_of_argumentFor? {name : String} {params : List String} {args : List TypeUse}
    {arg : TypeUse} (h : argumentFor? name params args = some arg) : arg ∈ args := by
  fun_induction argumentFor? name params args with
  | case1 => simp_all
  | case2 _ _ _ _ _ ih => exact List.mem_cons_of_mem _ (ih h)
  | case3 => simp at h

/-- Without parameters or without arguments nothing is replaced. -/
theorem argumentFor?_eq_none {params : List String} {args : List TypeUse} (name : String)
    (h : params = [] ∨ args = []) : argumentFor? name params args = none := by
  rcases h with rfl | rfl
  · rfl
  · cases params <;> rfl

/-- Substitution brings in no names but those of the arguments. -/
theorem names_substitute_subset (params : List String) (args : List TypeUse) (type : TypeUse) :
    (type.substitute params args).names ⊆ type.names ++ namesOfArgs args := by
  induction type with
  | primitive kind => simp [substitute, names]
  | declared name inner ih =>
    intro n hn
    rw [substitute, names, substituteArgs_eq_map, List.mem_cons, mem_namesOfArgs] at hn
    rw [names, List.cons_append, List.mem_cons]
    refine hn.imp_right fun hinner => ?_
    obtain ⟨arg, harg, hname⟩ := hinner
    obtain ⟨arg, hmem, rfl⟩ := List.mem_map.1 harg
    rcases List.mem_append.1 (ih arg hmem hname) with h | h
    · exact List.mem_append_left _ (names_subset_namesOfArgs hmem h)
    · exact List.mem_append_right _ h
  | array component ih => simpa [substitute, names] using ih
  | var name bound ih =>
    rw [substitute]
    cases harg : argumentFor? name params args with
    | none => simp
    | some arg =>
      exact fun n hn => List.mem_append_right _
        (names_subset_namesOfArgs (mem_of_argumentFor? harg) hn)
  | wildcard bound ih =>
    cases bound with
    | none => simp [substitute, names]
    | some bound => simpa [substitute, names] using ih bound rfl

theorem Within.substitute {P : String → Prop} {params : List String} {args : List TypeUse}
    {type : TypeUse} (htype : type.Within P) (hargs : ∀ arg ∈ args, arg.Within P) :
    (type.substitute params args).Within P := by
  intro n hn
  rcases List.mem_append.1 (names_substitute_subset params args type hn) with hown | harg
  · exact htype n hown
  · obtain ⟨arg, hmem, hname⟩ := mem_namesOfArgs.1 harg
    exact hargs arg hmem n hname

end TypeUse

end SchemaTyping
