/-!
# Type uses

A type use is a type as it is written at some place of a program: `List<Foo>`, `int[]`,
`? extends Bar`. Declared types are named by their qualified names; what stands behind a name is
told by declarations, not here.
-/

namespace SchemaTyping

/-- The primitive types. -/
inductive PrimitiveKind where
  | boolean
  | byte
  | short
  | int
  | long
  | char
  | float
  | double
deriving DecidableEq, Inhabited, Repr

/-- The word for a primitive type. -/
def PrimitiveKind.name : PrimitiveKind → String
  | boolean => "boolean"
  | byte => "byte"
  | short => "short"
  | int => "int"
  | long => "long"
  | char => "char"
  | float => "float"
  | double => "double"

/-- A use of a type. -/
inductive TypeUse where
  | primitive (kind : PrimitiveKind)
  | declared (name : String) (args : List TypeUse)
  | array (component : TypeUse)
  | var (name : String) (bound : Option TypeUse)
  | wildcard (bound : Option TypeUse)
deriving Inhabited, Repr

namespace TypeUse

/-- Prove a property of all type uses from the property of their parts. -/
@[elab_as_elim, induction_eliminator]
theorem induction {motive : TypeUse → Prop}
    (primitive : ∀ kind, motive (.primitive kind))
    (declared : ∀ name args, (∀ arg ∈ args, motive arg) → motive (.declared name args))
    (array : ∀ component, motive component → motive (.array component))
    (var : ∀ name bound, (∀ b ∈ bound, motive b) → motive (.var name bound))
    (wildcard : ∀ bound, (∀ b ∈ bound, motive b) → motive (.wildcard bound))
    (type : TypeUse) : motive type :=
  match type with
  | .primitive kind => primitive kind
  | .declared name args =>
    declared name args fun arg harg =>
      have := List.sizeOf_lt_of_mem harg
      induction primitive declared array var wildcard arg
  | .array component =>
    array component (induction primitive declared array var wildcard component)
  | .var name none => var name none (by simp)
  | .var name (some b) =>
    var name (some b) fun _ hb => Option.mem_some.1 hb ▸
      induction primitive declared array var wildcard b
  | .wildcard none => wildcard none (by simp)
  | .wildcard (some b) =>
    wildcard (some b) fun _ hb => Option.mem_some.1 hb ▸
      induction primitive declared array var wildcard b
termination_by sizeOf type

/-! ### Equality -/

mutual
/-- Equality of type uses is decided part by part. -/
def decideEq : (a b : TypeUse) → Decidable (a = b)
  | .primitive k, .primitive l =>
    if h : k = l then isTrue (by rw [h]) else isFalse (by simp [h])
  | .declared n as, .declared m bs =>
    if h : n = m then
      match decideEqArgs as bs with
      | isTrue hargs => isTrue (by rw [h, hargs])
      | isFalse hargs => isFalse (by simp [hargs])
    else isFalse (by simp [h])
  | .array c, .array d =>
    match c.decideEq d with
    | isTrue h => isTrue (by rw [h])
    | isFalse h => isFalse (by simp [h])
  | .var n none, .var m none =>
    if h : n = m then isTrue (by rw [h]) else isFalse (by simp [h])
  | .var n (some a), .var m (some b) =>
    if h : n = m then
      match a.decideEq b with
      | isTrue hbound => isTrue (by rw [h, hbound])
      | isFalse hbound => isFalse (by simp [hbound])
    else isFalse (by simp [h])
  | .wildcard none, .wildcard none => isTrue rfl
  | .wildcard (some a), .wildcard (some b) =>
    match a.decideEq b with
    | isTrue h => isTrue (by rw [h])
    | isFalse h => isFalse (by simp [h])
  | .var _ none, .var _ (some _) | .var _ (some _), .var _ none
  | .wildcard none, .wildcard (some _) | .wildcard (some _), .wildcard none
  | .primitive _, .declared .. | .primitive _, .array _ | .primitive _, .var ..
  | .primitive _, .wildcard _ | .declared .., .primitive _ | .declared .., .array _
  | .declared .., .var .. | .declared .., .wildcard _ | .array _, .primitive _
  | .array _, .declared .. | .array _, .var .. | .array _, .wildcard _ | .var .., .primitive _
  | .var .., .declared .. | .var .., .array _ | .var .., .wildcard _ | .wildcard _, .primitive _
  | .wildcard _, .declared .. | .wildcard _, .array _ | .wildcard _, .var .. =>
    isFalse (by simp)

/-- Equality of argument lists. -/
def decideEqArgs : (as bs : List TypeUse) → Decidable (as = bs)
  | [], [] => isTrue rfl
  | a :: as, b :: bs =>
    match a.decideEq b, decideEqArgs as bs with
    | isTrue h, isTrue hrest => isTrue (by rw [h, hrest])
    | isFalse h, _ => isFalse (by simp [h])
    | _, isFalse hrest => isFalse (by simp [hrest])
  | [], _ :: _ | _ :: _, [] => isFalse (by simp)
end

instance : DecidableEq TypeUse := decideEq

/-! ### Parts -/

/-- The qualified name of a declared use. -/
def declaredName? : TypeUse → Option String
  | .declared name _ => some name
  | _ => none

theorem eq_declared_of_declaredName? {type : TypeUse} {name : String}
    (h : type.declaredName? = some name) : ∃ args, type = .declared name args := by
  cases type with
  | declared other args =>
    cases h
    exact ⟨args, rfl⟩
  | primitive | array | var | wildcard => cases h

/-- The arguments of a declared use; any other use has none. -/
def args : TypeUse → List TypeUse
  | .declared _ args => args
  | _ => []

mutual
/-- The declared names that occur in a type use. -/
def names : TypeUse → List String
  | .primitive _ => []
  | .declared name args => name :: namesOfArgs args
  | .array component => component.names
  | .var _ none => []
  | .var _ (some bound) => bound.names
  | .wildcard none => []
  | .wildcard (some bound) => bound.names

/-- The declared names that occur in a list of type uses. -/
def namesOfArgs : List TypeUse → List String
  | [] => []
  | arg :: rest => arg.names ++ namesOfArgs rest
end

theorem mem_namesOfArgs {name : String} {args : List TypeUse} :
    name ∈ namesOfArgs args ↔ ∃ arg ∈ args, name ∈ arg.names := by
  induction args with
  | nil => simp [namesOfArgs]
  | cons arg rest ih => simp [namesOfArgs, ih]

theorem names_subset_namesOfArgs {arg : TypeUse} {args : List TypeUse} (h : arg ∈ args) :
    arg.names ⊆ namesOfArgs args :=
  fun _ hname => mem_namesOfArgs.2 ⟨arg, h, hname⟩

/-- All names that occur in a type use have a property. -/
def Within (P : String → Prop) (use : TypeUse) : Prop :=
  ∀ name ∈ use.names, P name

theorem within_declared {P : String → Prop} {name : String} {args : List TypeUse} :
    (declared name args).Within P ↔ P name ∧ ∀ arg ∈ args, arg.Within P := by
  simp only [Within, names, List.forall_mem_cons, mem_namesOfArgs]
  exact and_congr_right fun _ =>
    ⟨fun h arg harg n hn => h n ⟨arg, harg, hn⟩, fun h n ⟨arg, harg, hn⟩ => h arg harg n hn⟩

theorem Within.of_mem_args {P : String → Prop} {use arg : TypeUse} (h : use.Within P)
    (harg : arg ∈ use.args) : arg.Within P := by
  cases use with
  | declared name args => exact (within_declared.1 h).2 arg harg
  | _ => cases harg

/-! ### Text -/

mutual
/-- A type use as it reads in a program. -/
def text : TypeUse → String
  | .primitive kind => kind.name
  | .declared name [] => name
  | .declared name (arg :: rest) => name ++ "<" ++ arg.text ++ textOfArgs rest ++ ">"
  | .array component => component.text ++ "[]"
  | .var name _ => name
  | .wildcard none => "?"
  | .wildcard (some bound) => "? extends " ++ bound.text

/-- Further arguments, each after its comma. -/
def textOfArgs : List TypeUse → String
  | [] => ""
  | arg :: rest => ", " ++ arg.text ++ textOfArgs rest
end

end TypeUse

end SchemaTyping
