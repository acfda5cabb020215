import Mathlib.Data.List.Basic
import SchemaTyping.Proofs.Graph.Chains

/-!
# Arguments on their way along chains

On a chain of supertypes the arguments of each use are put in the place of the parameters of its
declaration, and what results is put in the place of the next parameters. All variables are
replaced at the same time, and nothing is replaced in the arguments themselves. So two
substitutions are one, as long as the first one leaves no variable of the type, and what arrives at
the end of a chain is what would arrive if the arguments were put in there at once.
-/

namespace SchemaTyping

namespace TypeUse

mutual
/-- The type variables that a substitution meets: those in the bound of a variable are not among
them. -/
def replaceable : TypeUse → List String
  | .primitive _ => []
  | .declared _ args => replaceableInArgs args
  | .array component => component.replaceable
  | .var name _ => [name]
  | .wildcard none => []
  | .wildcard (some bound) => bound.replaceable

/-- The type variables that a substitution meets in a list of arguments. -/
def replaceableInArgs : List TypeUse → List String
  | [] => []
  | arg :: rest => arg.replaceable ++ replaceableInArgs rest
end

/-- Every variable of a type is one of the parameters, and there is an argument for the position
where it first stands among them. -/
def AllReplaced (params : List String) (args : List TypeUse) (type : TypeUse) : Prop :=
  ∀ name ∈ type.replaceable, ∃ position ∈ params.idxOf? name, position < args.length

instance (params : List String) (args : List TypeUse) (type : TypeUse) :
    Decidable (type.AllReplaced params args) :=
  inferInstanceAs (Decidable (∀ name ∈ type.replaceable, _))

variable {params : List String} {args : List TypeUse} {type : TypeUse}

/-! ### Variables and their arguments -/

lemma mem_replaceableInArgs {name : String} :
    name ∈ replaceableInArgs args ↔ ∃ arg ∈ args, name ∈ arg.replaceable := by
  induction args with
  | nil => simp [replaceableInArgs]
  | cons arg rest ih => simp [replaceableInArgs, ih]

lemma argumentFor?_eq (name : String) (params : List String) (args : List TypeUse) :
    argumentFor? name params args = (params.idxOf? name).bind fun position => args[position]? := by
  fun_induction argumentFor? name params args with
  | case1 => simp [List.idxOf?_cons]
  | case2 param params arg args hne ih =>
    rw [List.idxOf?_cons, if_neg (by simpa using hne), ih]
    cases params.idxOf? name <;> simp
  | case3 params args hempty =>
    cases params with
    | nil => rfl
    | cons param params =>
      cases args with
      | nil => cases (param :: params).idxOf? name <;> rfl
      | cons arg args => exact absurd rfl (hempty _ _ _ _ rfl)

lemma argumentFor?_map (f : TypeUse → TypeUse) (name : String) (params : List String)
    (args : List TypeUse) :
    argumentFor? name params (args.map f) = (argumentFor? name params args).map f := by
  rw [argumentFor?_eq, argumentFor?_eq, Option.map_bind]
  simp only [List.getElem?_map, Function.comp_def]

lemma AllReplaced.argument {name : String} {bound : Option TypeUse}
    (h : (var name bound).AllReplaced params args) :
    ∃ arg, argumentFor? name params args = some arg := by
  obtain ⟨position, hposition, hlength⟩ := h name (by simp [replaceable])
  refine ⟨args[position], ?_⟩
  rw [argumentFor?_eq, hposition, Option.bind_some, List.getElem?_eq_getElem hlength]

lemma AllReplaced.of_mem {name : String} {inner : List TypeUse} {arg : TypeUse}
    (h : (declared name inner).AllReplaced params args) (harg : arg ∈ inner) :
    arg.AllReplaced params args := fun param hparam =>
  h param (mem_replaceableInArgs.2 ⟨arg, harg, hparam⟩)

/-! ### Two substitutions -/

/-- A substitution after one that leaves no variable of the type is made in the arguments. -/
lemma substitute_substitute_of_allReplaced (h : type.AllReplaced params args)
    (params' : List String) (args' : List TypeUse) :
    (type.substitute params args).substitute params' args' =
      type.substitute params (args.map (substitute params' args')) := by
  induction type with
  | primitive kind => rfl
  | declared name inner ih =>
    simp only [substitute, substituteArgs_eq_map, List.map_map]
    congr 1
    apply List.map_congr_left
    intro arg harg
    exact ih arg harg (h.of_mem harg)
  | array component ih =>
    simp only [substitute]
    rw [ih h]
  | var name bound =>
    obtain ⟨arg, harg⟩ := h.argument
    simp [substitute, argumentFor?_map, harg]
  | wildcard bound ih =>
    cases bound with
    | none => rfl
    | some bound =>
      simp only [substitute]
      rw [ih bound rfl h]

/-- A variable that the first substitution leaves is met by the second one. -/
example :
    ((var "U" none).substitute ["T"] [.declared "X" []]).substitute ["U"] [.declared "Y" []] ≠
      (var "U" none).substitute ["T"]
        ([.declared "X" []].map (substitute ["U"] [.declared "Y" []])) := by
  decide

end TypeUse

namespace TypeGraph

/-! ### Chains -/

/-- A chain on which every supertype that is chosen has an argument for each of its variables. -/
inductive FilledChain (graph : TypeGraph) (isRoot : String → Bool) :
    TypeUse → List Nat → List String → TypeUse → Prop where
  | root {name : String} (args : List TypeUse) (hroot : isRoot name) :
    FilledChain graph isRoot (.declared name args) [] [name] (.declared name args)
  | supertype {name : String} {args : List TypeUse} {declaration : Declaration} {choice : Nat}
    {supertype root : TypeUse} {choices : List Nat} {names : List String}
    (hdecl : graph.declaration? name = some declaration)
    (hsupertype : declaration.supertypes[choice]? = some supertype)
    (hfilled : supertype.AllReplaced declaration.typeParams args)
    (hrest : FilledChain graph isRoot (supertype.substitute declaration.typeParams args) choices
      names root) :
    FilledChain graph isRoot (.declared name args) (choice :: choices) (name :: names) root

/-- All chains from a type to a root that repeat no name are filled. -/
def FillsChains (graph : TypeGraph) (isRoot : String → Bool) (type : TypeUse) : Prop :=
  ∀ choices names root, graph.Chain isRoot type choices names root → names.Nodup →
    graph.FilledChain isRoot type choices names root

variable {graph : TypeGraph} {isRoot : String → Bool} {type root : TypeUse} {name : String}
  {choices : List Nat} {names : List String} {declaration : Declaration}

lemma getElem?_supertypesOf {choice : Nat} {supertype : TypeUse}
    (h : declaration.supertypes[choice]? = some supertype) (args : List TypeUse) :
    (supertypesOf declaration args)[choice]? =
      some (supertype.substitute declaration.typeParams args) := by
  rw [supertypesOf, List.getElem?_map, h]
  rfl

lemma FilledChain.chain (h : graph.FilledChain isRoot type choices names root) :
    graph.Chain isRoot type choices names root := by
  induction h with
  | root args hroot => exact .root args hroot
  | supertype hdecl hsupertype _ _ ih =>
    exact .supertype hdecl (getElem?_supertypesOf hsupertype _) ih

/-- What is put into the first use of a filled chain arrives in its root. -/
lemma FilledChain.substitute (h : graph.FilledChain isRoot type choices names root)
    (params : List String) (args : List TypeUse) :
    graph.FilledChain isRoot (type.substitute params args) choices names
      (root.substitute params args) := by
  induction h with
  | root inner hroot => exact .root _ hroot
  | @supertype name inner declaration choice supertype root choices names hdecl hsupertype hfilled
      _ ih =>
    rw [TypeUse.substitute, TypeUse.substituteArgs_eq_map]
    refine .supertype hdecl hsupertype ?_ ?_
    · intro param hparam
      simpa using hfilled param hparam
    · rwa [← TypeUse.substitute_substitute_of_allReplaced hfilled]

/-- The fresh chains from a type with the arguments put in are those from the type, and lead to
their roots with the arguments put in. -/
lemma freshChain_substitute_iff (hnamed : graph.NamesSupertypes)
    (htype : ∀ param bound, type ≠ .var param bound) (hfilled : graph.FillsChains isRoot type)
    {visited params : List String} {args : List TypeUse} {last : TypeUse} :
    graph.FreshChain isRoot visited (type.substitute params args) choices last ↔
      ∃ root, graph.FreshChain isRoot visited type choices root ∧
        root.substitute params args = last := by
  constructor
  · rintro ⟨names, hchain, hnodup, hfresh⟩
    have hname := TypeUse.declaredName?_substitute htype params args
    obtain ⟨root, hroot⟩ := hchain.of_declaredName? hnamed type hname.symm
    have hsubstituted := ((hfilled _ _ _ hroot hnodup).substitute params args).chain
    exact ⟨root, ⟨names, hroot, hnodup, hfresh⟩, hchain.unique hsubstituted⟩
  · rintro ⟨root, ⟨names, hchain, hnodup, hfresh⟩, rfl⟩
    exact ⟨names, ((hfilled _ _ _ hchain hnodup).substitute params args).chain, hnodup, hfresh⟩

/-- The root that is found from a type with the arguments put in is the root that is found from the
type, with the arguments put in. -/
lemma root?_substitute (hnamed : graph.NamesSupertypes)
    (htype : ∀ param bound, type ≠ .var param bound) (hfilled : graph.FillsChains isRoot type)
    (params : List String) (args : List TypeUse) :
    graph.root? isRoot (type.substitute params args) =
      (graph.root? isRoot type).map (TypeUse.substitute params args) := by
  have hfirst (choices : List Nat) (last : TypeUse) :
      IsFirst (graph.FreshChain isRoot [] (type.substitute params args)) choices last ↔
        ∃ root, IsFirst (graph.FreshChain isRoot [] type) choices root ∧
          root.substitute params args = last := by
    simp only [IsFirst, freshChain_substitute_iff hnamed htype hfilled]
    constructor
    · rintro ⟨⟨root, hroot, rfl⟩, hleast⟩
      exact ⟨root, ⟨hroot, fun choices' root' hroot' =>
        hleast choices' _ ⟨root', hroot', rfl⟩⟩, rfl⟩
    · rintro ⟨root, ⟨hroot, hleast⟩, rfl⟩
      refine ⟨⟨root, hroot, rfl⟩, ?_⟩
      rintro choices' _ ⟨root', hroot', rfl⟩
      exact hleast choices' root' hroot'
  apply Option.ext
  intro last
  simp only [Option.map_eq_some_iff, root?_eq_some_iff_isFirst hnamed, hfirst]
  constructor
  · rintro ⟨choices, root, hroot, hlast⟩
    exact ⟨root, ⟨choices, hroot⟩, hlast⟩
  · rintro ⟨root, ⟨choices, hroot⟩, hlast⟩
    exact ⟨choices, root, hroot, hlast⟩

/-- Two substitutions are one, if the first one leaves no variable of the type: the second one is
made in the arguments of the first one. So what arrives in a root at the end of a chain of any
length is what the root is as seen from the first supertype, with the arguments put in at once; and
the search for a root comes to the same root if the arguments are put into the use from which it
begins. Names of parameters may be used again and again, and there may be more or fewer parameters
than arguments. -/
theorem arguments_arrive_as_substituted_at_once :
    (∀ (type : TypeUse) (params : List String) (args : List TypeUse),
      type.AllReplaced params args → ∀ (params' : List String) (args' : List TypeUse),
        (type.substitute params args).substitute params' args' =
          type.substitute params (args.map (TypeUse.substitute params' args'))) ∧
      ∀ (graph : TypeGraph) (isRoot : String → Bool),
        (∀ name declaration choice supertype choices names root,
          graph.declaration? name = some declaration →
          declaration.supertypes[choice]? = some supertype →
          graph.FilledChain isRoot supertype choices names root → ∀ args,
            graph.Chain isRoot (.declared name args) (choice :: choices) (name :: names)
              (root.substitute declaration.typeParams args)) ∧
        (graph.NamesSupertypes → ∀ name inner, graph.FillsChains isRoot (.declared name inner) →
          ∀ params args, graph.root? isRoot
              (.declared name (inner.map (TypeUse.substitute params args))) =
            (graph.root? isRoot (.declared name inner)).map (TypeUse.substitute params args)) := by
  refine ⟨?_, fun graph isRoot => ⟨?_, ?_⟩⟩
  · intro type params args h params' args'
    exact TypeUse.substitute_substitute_of_allReplaced h params' args'
  · intro name declaration choice supertype choices names root hdecl hsupertype hchain args
    refine .supertype hdecl (getElem?_supertypesOf hsupertype args) ?_
    exact (hchain.substitute declaration.typeParams args).chain
  · intro hnamed name inner hfilled params args
    rw [← TypeUse.substituteArgs_eq_map, ← TypeUse.substitute]
    exact root?_substitute hnamed (fun _ _ h => by cases h) hfilled params args

/-- `P<A, B>` is a `T<B, A[]>`, where `T` calls its first parameter `B` and its second one `A`; and
`T<B, A>` is a list of `E<A, ? extends B>`. -/
def crossedNames : TypeGraph where
  declarations := (OrderedMap.empty.insert "P"
      { Declaration.bare "P" with
        typeParams := ["A", "B"]
        supertypes := [.declared "T" [.var "B" none, .array (.var "A" none)]] }).insert "T"
      { Declaration.bare "T" with
        typeParams := ["B", "A"]
        supertypes :=
          [.declared "L" [.declared "E" [.var "A" none, .wildcard (some (.var "B" none))]]] }
  packages := ∅
  settings := ⟨"O", .ofList ["L"], ∅, ∅⟩

/-- `P<X, Y>` is a list of `E<X[], ? extends Y>`: no argument is taken for one that has the same
name. -/
theorem crossedNames_arguments_arrive :
    let isRoot := crossedNames.settings.isCollectionRoot
    let element := TypeUse.declared "E" [.var "A" none, .wildcard (some (.var "B" none))]
    let carried := TypeUse.declared "T" [.var "B" none, .array (.var "A" none)]
    let found := TypeUse.declared "L"
      [.declared "E" [.array (.var "A" none), .wildcard (some (.var "B" none))]]
    let x := TypeUse.declared "X" []
    let y := TypeUse.declared "Y" []
    (element.AllReplaced ["B", "A", "B"] carried.args ∧
        (element.substitute ["B", "A", "B"] carried.args).substitute ["A", "B"] [x, y] =
          element.substitute ["B", "A", "B"] [y, .array x]) ∧
      (crossedNames.FilledChain isRoot carried [0] ["T", "L"] found ∧
        crossedNames.Chain isRoot (.declared "P" [x, y]) [0, 0] ["P", "T", "L"]
          (.declared "L" [.declared "E" [.array x, .wildcard (some y)]])) ∧
      crossedNames.NamesSupertypes ∧ crossedNames.FillsChains isRoot carried ∧
        crossedNames.root? isRoot (.declared "T" [y, .array x]) =
          some (.declared "L" [.declared "E" [.array x, .wildcard (some y)]]) := by
  intro isRoot element carried found x y
  obtain ⟨hcompose, hgraph⟩ := arguments_arrive_as_substituted_at_once
  obtain ⟨hchain, hroot⟩ := hgraph crossedNames isRoot
  have hreplaced : element.AllReplaced ["B", "A", "B"] carried.args := by decide
  have hfilled : crossedNames.FilledChain isRoot carried [0] ["T", "L"] found :=
    .supertype rfl rfl (by decide) (.root _ rfl)
  have hnamed : crossedNames.NamesSupertypes := namesSupertypes_of_values (by decide)
  have hfills : crossedNames.FillsChains isRoot
      (.declared "T" [.var "B" none, .array (.var "A" none)]) := by
    intro choices names root h _
    cases h with
    | root _ hroot => cases hroot
    | @supertype _ _ declaration choice next _ rest _ hdecl hnext hrest =>
      cases hdecl
      obtain _ | choice := choice
      · cases hnext
        cases hrest with
        | root args hroot => exact .supertype rfl rfl (by decide) (.root _ hroot)
        | supertype hdecl _ _ => cases hdecl
      · cases hnext
  refine ⟨⟨hreplaced, ?_⟩, ⟨hfilled, ?_⟩, hnamed, hfills, ?_⟩
  · exact hcompose element _ _ hreplaced ["A", "B"] [x, y]
  · exact hchain "P" _ 0 carried [0] ["T", "L"] found rfl rfl hfilled [x, y]
  · have hfound : crossedNames.root? isRoot carried = some found := by cbv
    have hcarried := hroot hnamed "T" carried.args hfills ["A", "B"] [x, y]
    rw [show TypeUse.declared "T" carried.args = carried from rfl, hfound] at hcarried
    exact hcarried

end TypeGraph

end SchemaTyping
