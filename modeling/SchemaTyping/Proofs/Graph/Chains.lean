import Mathlib.Data.List.Lex
import Mathlib.Data.List.Nodup
import SchemaTyping.Proofs.Graph.Search

/-!
# Chains of supertypes

A chain leads from a declared use to a root, from each use to a supertype of its declaration with
the arguments carried over. The search for a root passes over every name that it has seen before,
though it may come to it with other arguments now. As long as no supertype is a variable, the
arguments have no part in where a chain leads by its names. So a name that was left without a root
leads to none now either, unless by way of uses that are looked at anyway; and what the search finds
is the root of the first chain that repeats no name, in the order of the supertypes.
-/

namespace SchemaTyping

/-- Only a variable can become a use of another name. -/
lemma TypeUse.declaredName?_substitute {type : TypeUse}
    (h : ∀ param bound, type ≠ .var param bound) (params : List String)
    (args : List TypeUse) : (type.substitute params args).declaredName? = type.declaredName? := by
  cases type with
  | var name bound => exact absurd rfl (h name bound)
  | wildcard bound => cases bound <;> rfl
  | primitive | declared | array => rfl

namespace TypeGraph

/-- No supertype is a variable by itself. -/
def NamesSupertypes (graph : TypeGraph) : Prop :=
  ∀ name declaration, graph.declaration? name = some declaration →
    ∀ supertype ∈ declaration.supertypes, ∀ param bound, supertype ≠ .var param bound

/-- A chain of declared uses from a type to a root. Each use after the first one is the supertype
that was chosen of the one before it, with the arguments of that one carried over; the names are
those of all uses of the chain. -/
inductive Chain (graph : TypeGraph) (isRoot : String → Bool) :
    TypeUse → List Nat → List String → TypeUse → Prop where
  | root {name : String} (args : List TypeUse) (hroot : isRoot name) :
    Chain graph isRoot (.declared name args) [] [name] (.declared name args)
  | supertype {name : String} {args : List TypeUse} {declaration : Declaration} {choice : Nat}
    {next root : TypeUse} {choices : List Nat} {names : List String}
    (hdecl : graph.declaration? name = some declaration)
    (hnext : (supertypesOf declaration args)[choice]? = some next)
    (hrest : Chain graph isRoot next choices names root) :
    Chain graph isRoot (.declared name args) (choice :: choices) (name :: names) root

variable {graph : TypeGraph} {isRoot : String → Bool} {type root : TypeUse} {name : String}
  {args : List TypeUse} {choices : List Nat} {names visited : List String}
  {declaration : Declaration}

lemma namesSupertypes_of_values (h : ∀ declaration ∈ graph.declarations.values,
    ∀ supertype ∈ declaration.supertypes, supertype.declaredName?.isSome) :
    graph.NamesSupertypes := by
  rintro name declaration hdecl supertype hsuper param bound rfl
  have hvalue : declaration ∈ graph.declarations.values :=
    List.mem_map_of_mem (OrderedMap.mem_entries_of_get? hdecl)
  cases h declaration hvalue _ hsuper

/-! ### Names of chains -/

/-- Another use of the same name starts a chain with the same choices and names. -/
lemma Chain.of_declaredName? (hnamed : graph.NamesSupertypes)
    (h : graph.Chain isRoot type choices names root) (other : TypeUse)
    (hother : other.declaredName? = type.declaredName?) :
    ∃ last, graph.Chain isRoot other choices names last := by
  induction h generalizing other with
  | root args hroot =>
    obtain ⟨args', rfl⟩ := TypeUse.eq_declared_of_declaredName? hother
    exact ⟨_, .root args' hroot⟩
  | @supertype name args declaration choice next _ _ _ hdecl hnext _ ih =>
    obtain ⟨args', rfl⟩ := TypeUse.eq_declared_of_declaredName? hother
    rw [supertypesOf, List.getElem?_map] at hnext
    obtain ⟨supertype, hsupertype, rfl⟩ := Option.map_eq_some_iff.1 hnext
    have hparam := hnamed name declaration hdecl supertype (List.mem_of_getElem? hsupertype)
    obtain ⟨last, hlast⟩ := ih (supertype.substitute declaration.typeParams args') (by
      rw [TypeUse.declaredName?_substitute hparam, TypeUse.declaredName?_substitute hparam])
    refine ⟨last, .supertype hdecl ?_ hlast⟩
    rw [supertypesOf, List.getElem?_map, hsupertype]
    rfl

/-- A chain goes on as a chain from each of its uses. -/
lemma Chain.exists_suffix (h : graph.Chain isRoot type choices names root) (hname : name ∈ names) :
    ∃ args rest suffix, graph.Chain isRoot (.declared name args) rest suffix root ∧
      suffix <:+ names := by
  induction h with
  | root args hroot =>
    obtain rfl := List.mem_singleton.1 hname
    exact ⟨args, [], _, .root args hroot, List.suffix_refl _⟩
  | @supertype other args _ _ _ _ _ _ hdecl hnext hrest ih =>
    rcases List.mem_cons.1 hname with rfl | hlater
    · exact ⟨args, _, _, .supertype hdecl hnext hrest, List.suffix_refl _⟩
    · obtain ⟨args', rest, suffix, hchain, hsuffix⟩ := ih hlater
      exact ⟨args', rest, suffix, hchain, hsuffix.trans (List.suffix_cons _ _)⟩

/-- What a chain leads to is told by its choices. -/
lemma Chain.unique (h : graph.Chain isRoot type choices names root) {names' : List String}
    {root' : TypeUse} (h' : graph.Chain isRoot type choices names' root') : root' = root := by
  induction h generalizing names' with
  | root =>
    cases h'
    rfl
  | supertype hdecl hnext _ ih =>
    cases h' with
    | supertype hdecl' hnext' hrest' =>
      obtain rfl := Option.some.inj (hdecl.symm.trans hdecl')
      obtain rfl := Option.some.inj (hnext.symm.trans hnext')
      exact ih hrest'

/-- Where there is a chain, there is one that repeats no name. -/
lemma Chain.exists_nodup (hnamed : graph.NamesSupertypes)
    (h : graph.Chain isRoot type choices names root) :
    ∃ choices names root, graph.Chain isRoot type choices names root ∧ names.Nodup := by
  induction h with
  | root args hroot => exact ⟨_, _, _, .root args hroot, List.nodup_singleton _⟩
  | @supertype name args _ _ _ _ _ _ hdecl hnext _ ih =>
    obtain ⟨choices, names, root, hrest, hnodup⟩ := ih
    by_cases hname : name ∈ names
    · -- The chain comes back to its first name: it can begin there at once.
      obtain ⟨args', rest, suffix, hchain, hsuffix⟩ := hrest.exists_suffix hname
      obtain ⟨last, hlast⟩ := hchain.of_declaredName? hnamed (.declared name args) rfl
      exact ⟨rest, suffix, last, hlast, hnodup.sublist hsuffix.sublist⟩
    · exact ⟨_, _, root, .supertype hdecl hnext hrest, List.nodup_cons.2 ⟨hname, hnodup⟩⟩

/-! ### Fresh chains -/

/-- A chain that repeats no name and has none of those that have been visited. -/
def FreshChain (graph : TypeGraph) (isRoot : String → Bool) (visited : List String)
    (type : TypeUse) (choices : List Nat) (root : TypeUse) : Prop :=
  ∃ names, graph.Chain isRoot type choices names root ∧ names.Nodup ∧ ∀ n ∈ names, n ∉ visited

lemma not_freshChain_of_visited (hvisited : name ∈ visited) :
    ¬ graph.FreshChain isRoot visited (.declared name args) choices root := by
  rintro ⟨names, hchain, -, hfresh⟩
  cases hchain with
  | root _ _ => exact hfresh name List.mem_cons_self hvisited
  | supertype _ _ _ => exact hfresh name List.mem_cons_self hvisited

lemma not_freshChain_of_undeclared (hroot : ¬ isRoot name)
    (hdecl : graph.declaration? name = none) :
    ¬ graph.FreshChain isRoot visited (.declared name args) choices root := by
  rintro ⟨names, hchain, -⟩
  cases hchain with
  | root _ h => exact hroot h
  | supertype h _ _ => cases hdecl.symm.trans h

lemma not_freshChain_of_ne_declared (htype : ∀ name args, type ≠ .declared name args) :
    ¬ graph.FreshChain isRoot visited type choices root := by
  rintro ⟨names, hchain, -⟩
  cases hchain with
  | root args _ => exact htype _ args rfl
  | supertype _ _ _ => exact htype _ _ rfl

/-- A fresh chain from a use that is no root goes on from one of its supertypes, without coming to
the name again. -/
lemma freshChain_declared_iff (hroot : ¬ isRoot name)
    (hdecl : graph.declaration? name = some declaration) (hvisited : name ∉ visited) :
    graph.FreshChain isRoot visited (.declared name args) choices root ↔
      ∃ choice rest next, choices = choice :: rest ∧
        (supertypesOf declaration args)[choice]? = some next ∧
        graph.FreshChain isRoot (name :: visited) next rest root := by
  constructor
  · rintro ⟨names, hchain, hnodup, hfresh⟩
    cases hchain with
    | root _ h => exact absurd h hroot
    | supertype hdecl' hnext hrest =>
      obtain rfl := Option.some.inj (hdecl.symm.trans hdecl')
      obtain ⟨hname, hnodup⟩ := List.nodup_cons.1 hnodup
      refine ⟨_, _, _, rfl, hnext, _, hrest, hnodup, fun n hn hseen => ?_⟩
      rcases List.mem_cons.1 hseen with rfl | hseen
      · exact hname hn
      · exact hfresh n (List.mem_cons_of_mem _ hn) hseen
  · rintro ⟨choice, rest, next, rfl, hnext, names, hrest, hnodup, hfresh⟩
    refine ⟨name :: names, .supertype hdecl hnext hrest, List.nodup_cons.2 ⟨?_, hnodup⟩, ?_⟩
    · exact fun hname => hfresh name hname List.mem_cons_self
    · exact List.forall_mem_cons.2
        ⟨hvisited, fun n hn hseen => hfresh n hn (List.mem_cons_of_mem _ hseen)⟩

/-- Chains may as well avoid a name from which no fresh chain leads to a root: one that came to it
would go on from there, with whatever arguments. -/
lemma freshChain_cons_of_none (hnamed : graph.NamesSupertypes)
    (hnone : ∀ choices root, ¬ graph.FreshChain isRoot visited (.declared name args) choices root) :
    graph.FreshChain isRoot (name :: visited) = graph.FreshChain isRoot visited := by
  funext type choices root
  apply propext
  constructor
  · rintro ⟨names, hchain, hnodup, hfresh⟩
    exact ⟨names, hchain, hnodup, fun n hn hseen => hfresh n hn (List.mem_cons_of_mem _ hseen)⟩
  · rintro ⟨names, hchain, hnodup, hfresh⟩
    refine ⟨names, hchain, hnodup, fun n hn hseen => ?_⟩
    rcases List.mem_cons.1 hseen with rfl | hseen
    · obtain ⟨args', rest, suffix, hrest, hsuffix⟩ := hchain.exists_suffix hn
      obtain ⟨last, hlast⟩ := hrest.of_declaredName? hnamed (.declared n args) rfl
      exact hnone rest last ⟨suffix, hlast, hnodup.sublist hsuffix.sublist,
        fun m hm => hfresh m (hsuffix.subset hm)⟩
    · exact hfresh n hn hseen

/-! ### The first chain -/

/-- The first one of several ways to roots, in the lexicographic order of their choices. -/
def IsFirst (ways : List Nat → TypeUse → Prop) (choices : List Nat) (root : TypeUse) : Prop :=
  ways choices root ∧
    ∀ choices' root', ways choices' root' → choices' = choices ∨ List.Lex (· < ·) choices choices'

/-- What is found among uses that are tried one after the other: the root of the first way from the
first use that has one. -/
inductive Finds (ways : TypeUse → List Nat → TypeUse → Prop) :
    List TypeUse → Option TypeUse → Prop where
  | nothing : Finds ways [] none
  | here {use root : TypeUse} (choices : List Nat) (rest : List TypeUse)
    (hfirst : IsFirst (ways use) choices root) : Finds ways (use :: rest) (some root)
  | later {use : TypeUse} {rest : List TypeUse} {found : Option TypeUse}
    (hnone : ∀ choices root, ¬ ways use choices root) (hrest : Finds ways rest found) :
    Finds ways (use :: rest) found

section Finds

variable {ways : TypeUse → List Nat → TypeUse → Prop} {uses : List TypeUse}
  {found : Option TypeUse}

lemma Finds.not_way (h : Finds ways uses none) :
    ∀ use ∈ uses, ∀ choices root, ¬ ways use choices root := by
  generalize hfound : none = found at h
  induction h with
  | nothing => exact nofun
  | here => cases hfound
  | later hnone _ ih => exact List.forall_mem_cons.2 ⟨hnone, ih hfound⟩

/-- What is found in two lists is found in the first one, or the first one has nothing. -/
lemma Finds.of_append {rest : List TypeUse} (h : Finds ways (uses ++ rest) found) :
    (∃ root, found = some root ∧ Finds ways uses (some root)) ∨
      (∀ use ∈ uses, ∀ choices root, ¬ ways use choices root) ∧ Finds ways rest found := by
  induction uses with
  | nil => exact .inr ⟨nofun, h⟩
  | cons use uses ih =>
    cases h with
    | here choices _ hfirst => exact .inl ⟨_, rfl, .here choices uses hfirst⟩
    | later hnone h =>
      rcases ih h with ⟨root, rfl, hfound⟩ | ⟨hnone', hrest⟩
      · exact .inl ⟨root, rfl, .later hnone hfound⟩
      · exact .inr ⟨List.forall_mem_cons.2 ⟨hnone, hnone'⟩, hrest⟩

/-- The choice of the use comes before those of the way from it. -/
lemma Finds.isFirst (h : Finds ways uses (some root)) :
    ∃ choices, IsFirst (fun choices root => ∃ choice rest use, choices = choice :: rest ∧
      uses[choice]? = some use ∧ ways use rest root) choices root := by
  generalize hfound : some root = found at h
  induction h with
  | nothing => cases hfound
  | @here use _ choices rest hfirst =>
    obtain rfl := Option.some.inj hfound
    refine ⟨0 :: choices, ⟨0, choices, use, rfl, rfl, hfirst.1⟩, ?_⟩
    rintro _ root' ⟨_ | choice, choices', use', rfl, huse, hway⟩
    · obtain rfl := Option.some.inj huse
      rcases hfirst.2 choices' root' hway with rfl | hlex
      · exact .inl rfl
      · exact .inr (.cons hlex)
    · exact .inr (.rel choice.succ_pos)
  | @later use rest _ hnone _ ih =>
    obtain ⟨_, ⟨choice, choices, first, rfl, hfirst, hway⟩, hleast⟩ := ih hfound
    refine ⟨(choice + 1) :: choices, ⟨choice + 1, choices, first, rfl, hfirst, hway⟩, ?_⟩
    rintro _ root' ⟨_ | choice', choices', use', rfl, huse, hway'⟩
    · obtain rfl := Option.some.inj huse
      exact absurd hway' (hnone choices' root')
    · rcases hleast _ root' ⟨choice', choices', use', rfl, huse, hway'⟩ with heq | hlex
      · obtain ⟨rfl, rfl⟩ := List.cons_eq_cons.1 heq
        exact .inl rfl
      · cases hlex with
        | rel hlt => exact .inr (.rel (Nat.succ_lt_succ hlt))
        | cons hlex => exact .inr (.cons hlex)

end Finds

/-! ### The search -/

/-- The search finds the root of the first fresh chain from the first pending use that has one. -/
lemma finds_searchRoot (hnamed : graph.NamesSupertypes) (isRoot : String → Bool)
    (pending : List TypeUse) (visited : List String) (hvisited : ∀ n ∈ visited, ¬ isRoot n) :
    Finds (graph.FreshChain isRoot visited) pending (graph.searchRoot isRoot pending visited) := by
  fun_induction searchRoot graph isRoot pending visited with
  | case1 => exact .nothing
  | case2 name args pending visited hroot =>
    refine .here [] pending ⟨⟨[name], .root args hroot, List.nodup_singleton _, ?_⟩, ?_⟩
    · intro n hn hseen
      obtain rfl := List.mem_singleton.1 hn
      exact hvisited n hseen hroot
    · rintro (_ | ⟨choice, choices⟩) _ _
      · exact .inl rfl
      · exact .inr .nil
  | case3 name args pending visited hroot hseen ih =>
    exact .later (fun _ _ => not_freshChain_of_visited hseen) (ih hvisited)
  | case4 name args pending visited hroot hseen hnone ih =>
    exact .later (fun _ _ => not_freshChain_of_undeclared hroot hnone) (ih hvisited)
  | case5 name args pending visited hroot hseen declaration hsome ih =>
    -- What is found among the supertypes and the rest comes from the supertypes, and so from the use
    -- itself; or the use leads to no root, and the rest has the same chains with its name visited.
    rcases (ih (List.forall_mem_cons.2 ⟨hroot, hvisited⟩)).of_append with
      ⟨root, hfound, hsuper⟩ | ⟨hnone, hpending⟩
    · obtain ⟨choices, hfirst⟩ := hsuper.isFirst
      rw [hfound]
      refine .here choices pending ⟨?_, fun choices' root' hchain => ?_⟩
      · exact (freshChain_declared_iff hroot hsome hseen).2 hfirst.1
      · exact hfirst.2 _ _ ((freshChain_declared_iff hroot hsome hseen).1 hchain)
    · have hname (choices : List Nat) (root : TypeUse) :
          ¬ graph.FreshChain isRoot visited (.declared name args) choices root := by
        rw [freshChain_declared_iff hroot hsome hseen]
        rintro ⟨choice, rest, next, -, hnext, hchain⟩
        exact hnone next (List.mem_of_getElem? hnext) rest root hchain
      rw [freshChain_cons_of_none hnamed hname] at hpending
      exact .later hname hpending
  | case6 type pending visited htype ih =>
    exact .later (fun _ _ => not_freshChain_of_ne_declared htype) (ih hvisited)

lemma freshChain_nil_iff :
    graph.FreshChain isRoot [] type choices root ↔
      ∃ names, graph.Chain isRoot type choices names root ∧ names.Nodup := by
  simp [FreshChain]

/-- What is found is the root of a first chain. -/
lemma exists_isFirst_of_root? (hnamed : graph.NamesSupertypes)
    (hroot : graph.root? isRoot type = some root) :
    ∃ choices, IsFirst (graph.FreshChain isRoot [] type) choices root := by
  have hfinds := finds_searchRoot hnamed isRoot [type] [] nofun
  rw [root?] at hroot
  rw [hroot] at hfinds
  cases hfinds with
  | here _ _ hfirst => exact ⟨_, hfirst⟩
  | later _ hrest => cases hrest

/-- A root is found exactly where there is a chain to one. -/
lemma isSome_root?_iff_chain (hnamed : graph.NamesSupertypes) :
    (graph.root? isRoot type).isSome ↔
      ∃ choices names root, graph.Chain isRoot type choices names root := by
  constructor
  · intro hsome
    obtain ⟨root, hroot⟩ := Option.isSome_iff_exists.1 hsome
    obtain ⟨choices, ⟨names, hchain, -⟩, -⟩ := exists_isFirst_of_root? hnamed hroot
    exact ⟨choices, names, root, hchain⟩
  · rintro ⟨choices, names, root, hchain⟩
    obtain ⟨choices, names, root, hchain, hnodup⟩ := hchain.exists_nodup hnamed
    rw [Option.isSome_iff_ne_none]
    intro hnone
    have hfinds := finds_searchRoot hnamed isRoot [type] [] nofun
    rw [root?] at hnone
    rw [hnone] at hfinds
    exact hfinds.not_way type List.mem_cons_self choices root
      (freshChain_nil_iff.2 ⟨names, hchain, hnodup⟩)

/-- What is found is the root of the first chain that repeats no name. -/
lemma root?_eq_some_iff_isFirst (hnamed : graph.NamesSupertypes) :
    graph.root? isRoot type = some root ↔
      ∃ choices, IsFirst (graph.FreshChain isRoot [] type) choices root := by
  refine ⟨exists_isFirst_of_root? hnamed, ?_⟩
  rintro ⟨choices, ⟨names, hchain, hnodup, hfresh⟩, hleast⟩
  obtain ⟨found, hfound⟩ := Option.isSome_iff_exists.1
    ((isSome_root?_iff_chain hnamed).2 ⟨choices, names, root, hchain⟩)
  obtain ⟨choices', ⟨names', hchain', hfresh'⟩, hleast'⟩ := exists_isFirst_of_root? hnamed hfound
  -- Both chains are the first one, so they have the same choices.
  obtain rfl : choices' = choices := by
    rcases hleast _ _ ⟨names', hchain', hfresh'⟩ with heq | hlex
    · exact heq
    · rcases hleast' _ _ ⟨names, hchain, hnodup, hfresh⟩ with heq | hlex'
      · exact heq.symm
      · exact absurd hlex' (Std.Asymm.asymm _ _ hlex)
  rw [hfound, hchain.unique hchain']

/-- Whether a root is found depends on the name of a use, not on its arguments. -/
lemma isSome_root?_declared (hnamed : graph.NamesSupertypes) (isRoot : String → Bool)
    (name : String) (args args' : List TypeUse) :
    (graph.root? isRoot (.declared name args)).isSome =
      (graph.root? isRoot (.declared name args')).isSome := by
  have himp (args args' : List TypeUse)
      (h : (graph.root? isRoot (.declared name args)).isSome) :
      (graph.root? isRoot (.declared name args')).isSome := by
    obtain ⟨choices, names, root, hchain⟩ := (isSome_root?_iff_chain hnamed).1 h
    obtain ⟨last, hlast⟩ := hchain.of_declaredName? hnamed (.declared name args') rfl
    exact (isSome_root?_iff_chain hnamed).2 ⟨choices, names, last, hlast⟩
  exact Bool.eq_iff_iff.2 ⟨himp args args', himp args' args⟩

/-- The search ends on every graph, since it looks at the supertypes of a name once. If no supertype
is a variable by itself, it finds a root for a type exactly if some chain leads to one, and then
that of the lexicographically first chain among those that repeat no name, where a chain comes
before the longer ones that begin like it. So whether a use is a collection, a stream or a map
depends on its name only. -/
theorem root?_first_chain (graph : TypeGraph) (hnamed : graph.NamesSupertypes) :
    (∀ isRoot type, (graph.root? isRoot type).isSome ↔
        ∃ choices names root, graph.Chain isRoot type choices names root) ∧
      (∀ isRoot type root, graph.root? isRoot type = some root ↔
        ∃ choices names, graph.Chain isRoot type choices names root ∧ names.Nodup ∧
          ∀ choices' names' root', graph.Chain isRoot type choices' names' root' →
            names'.Nodup → choices' = choices ∨ List.Lex (· < ·) choices choices') ∧
      ∀ name args args',
        graph.isCollection (.declared name args) = graph.isCollection (.declared name args') ∧
        graph.isStream (.declared name args) = graph.isStream (.declared name args') ∧
        graph.isMap (.declared name args) = graph.isMap (.declared name args') := by
  refine ⟨fun isRoot type => isSome_root?_iff_chain hnamed, fun isRoot type root => ?_, ?_⟩
  · rw [root?_eq_some_iff_isFirst hnamed]
    simp only [IsFirst, freshChain_nil_iff]
    constructor
    · rintro ⟨choices, ⟨names, hchain, hnodup⟩, hleast⟩
      exact ⟨choices, names, hchain, hnodup, fun choices' names' root' hchain' hnodup' =>
        hleast choices' root' ⟨names', hchain', hnodup'⟩⟩
    · rintro ⟨choices, names, hchain, hnodup, hleast⟩
      exact ⟨choices, ⟨names, hchain, hnodup⟩, fun choices' root' ⟨names', hchain', hnodup'⟩ =>
        hleast choices' names' root' hchain' hnodup'⟩
  · intro name args args'
    exact ⟨isSome_root?_declared hnamed _ name args args',
      isSome_root?_declared hnamed _ name args args', isSome_root?_declared hnamed _ name args args'⟩

/-- `D<T>` is an `A<T>` and a `B<T>`; `A<T>` is a `B<E<T>>`, and `B<T>` is an `A<T>` again and an
`L<T>`. Only `L` is a collection. -/
def cyclicDiamond : TypeGraph where
  declarations := ((OrderedMap.empty.insert "D"
      { Declaration.bare "D" with
        typeParams := ["T"]
        supertypes := [.declared "A" [.var "T" none], .declared "B" [.var "T" none]] }).insert "A"
      { Declaration.bare "A" with
        typeParams := ["T"]
        supertypes := [.declared "B" [.declared "E" [.var "T" none]]] }).insert "B"
      { Declaration.bare "B" with
        typeParams := ["T"]
        supertypes := [.declared "A" [.var "T" none], .declared "L" [.var "T" none]] }
  packages := ∅
  settings := ⟨"O", .ofList ["L"], ∅, ∅⟩

/-- `D<S>` is the list of `E<S>` that is reached by way of `A`, though the way by `B` alone is
shorter; and `D` is a collection whatever its argument is. -/
theorem cyclicDiamond_root_by_first_chain :
    cyclicDiamond.NamesSupertypes ∧
      cyclicDiamond.root? cyclicDiamond.settings.isCollectionRoot
          (.declared "D" [.declared "S" []]) =
        some (.declared "L" [.declared "E" [.declared "S" []]]) ∧
      cyclicDiamond.Chain cyclicDiamond.settings.isCollectionRoot
        (.declared "D" [.declared "S" []]) [1, 1] ["D", "B", "L"]
        (.declared "L" [.declared "S" []]) ∧
      (∃ choices names, cyclicDiamond.Chain cyclicDiamond.settings.isCollectionRoot
          (.declared "D" [.declared "S" []]) choices names
          (.declared "L" [.declared "E" [.declared "S" []]]) ∧
        names.Nodup ∧ List.Lex (· < ·) choices [1, 1]) ∧
      ∀ args, cyclicDiamond.isCollection (.declared "D" args) = true := by
  have hnamed : cyclicDiamond.NamesSupertypes := namesSupertypes_of_values (by decide)
  have hroot : cyclicDiamond.root? cyclicDiamond.settings.isCollectionRoot
      (.declared "D" [.declared "S" []]) =
        some (.declared "L" [.declared "E" [.declared "S" []]]) := by
    cbv
  have hshort : cyclicDiamond.Chain cyclicDiamond.settings.isCollectionRoot
      (.declared "D" [.declared "S" []]) [1, 1] ["D", "B", "L"]
      (.declared "L" [.declared "S" []]) :=
    .supertype rfl rfl (.supertype rfl rfl (.root _ rfl))
  obtain ⟨-, hfirst, hnames⟩ := root?_first_chain cyclicDiamond hnamed
  obtain ⟨choices, names, hchain, hnodup, hleast⟩ := (hfirst _ _ _).1 hroot
  refine ⟨hnamed, hroot, hshort, ⟨choices, names, hchain, hnodup, ?_⟩, fun args => ?_⟩
  · refine (hleast _ _ _ hshort (by decide)).resolve_left fun heq => ?_
    exact absurd (hshort.unique (heq ▸ hchain)) (by decide)
  · rw [(hnames "D" args [.declared "S" []]).1, isCollection, hroot]
    rfl

end TypeGraph

end SchemaTyping
