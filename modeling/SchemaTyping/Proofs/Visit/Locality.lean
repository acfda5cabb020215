import SchemaTyping.Proofs.Graph.Search
import SchemaTyping.Proofs.Run.Agreement
import SchemaTyping.Proofs.Visit.Layers

/-!
# Locality

A classification follows names: those in its type, the object type, and those in the declarations
that it comes to. Nothing else is looked at, so classifiers that agree on these names come to the
same result in every context and over every stack, whatever else their graphs and registries hold.
Of a declaration its members and its name for clients do not count, of a package only its
namespace, and of an interface not what the registry says.
-/

namespace SchemaTyping

/-- What a declaration says about its uses: all but its members and its name for clients. -/
def Declaration.withoutMembers (declaration : Declaration) : Declaration :=
  { declaration with members := [], clientName := none }

namespace TypeGraph

/-- A name to which the classification of a type may lead. -/
inductive Reachable (graph : TypeGraph) (type : TypeUse) : String → Prop where
  | occurs {name : String} (hname : name ∈ type.names) : Reachable graph type name
  | object : Reachable graph type graph.settings.objectType
  | declaration {name n : String} {declaration : Declaration} (hname : Reachable graph type name)
    (hdecl : graph.declaration? name = some declaration) (hn : n ∈ declaration.names) :
    Reachable graph type n

lemma closed_reachable (graph : TypeGraph) (type : TypeUse) :
    graph.Closed (graph.Reachable type) where
  object := .object
  declaration := fun hname hdecl _ hn => .declaration hname hdecl hn

lemma Reachable.of_closed {graph : TypeGraph} {type : TypeUse} {P : String → Prop}
    (hclosed : graph.Closed P) (htype : type.Within P) {name : String}
    (h : graph.Reachable type name) : P name := by
  induction h with
  | occurs hname => exact htype _ hname
  | object => exact hclosed.object
  | declaration _ hdecl hn ih => exact hclosed.declaration ih hdecl _ hn

end TypeGraph

namespace Classifier

variable {classifier other : Classifier} {P : String → Prop} {name : String}

/-! ### The same steps within closed names -/

/-- A use that passes has one result for classifiers that treat it alike, if they agree on its
replacements, and on its parts where there are none. -/
lemma AgreesOn.visit_eq {args : List TypeUse} {context : Context} {stack : UseStack}
    (h : classifier.AgreesOn other name args) (hpass : ¬ stack.blocks name (.declared name args))
    (hreplacements : other.visitReplacements
        (classifier.replacements name (.declared name args))
        (stack.enter (TypeUse.declared name args).text) =
      classifier.visitReplacements (classifier.replacements name (.declared name args))
        (stack.enter (TypeUse.declared name args).text))
    (hparts : classifier.visitReplacements
        (classifier.replacements name (.declared name args))
        (stack.enter (TypeUse.declared name args).text) = .ok none →
      other.visitParts name args context (stack.enter (TypeUse.declared name args).text) =
        classifier.visitParts name args context
          (stack.enter (TypeUse.declared name args).text)) :
    other.visit (.declared name args) context stack =
      classifier.visit (.declared name args) context stack := by
  rw [visit_of_not_blocks other hpass, visit_of_not_blocks classifier hpass, ← h.replacements,
    hreplacements]
  cases hfound : classifier.visitReplacements
    (classifier.replacements name (.declared name args))
    (stack.enter (TypeUse.declared name args).text) with
  | error error => rfl
  | ok found =>
    cases found with
    | some type => rfl
    | none => exact hparts hfound

/-- Classifiers that treat the uses of certain names alike come to the same results for all types
with these names, if classification does not lead out of them. -/
lemma visit_eq_of_agreesOn (hclosed : classifier.graph.Closed P)
    (hagree : ∀ name args, (TypeUse.declared name args).Within P →
      classifier.AgreesOn other name args)
    (type : TypeUse) (context : Context) (stack : UseStack) (htype : type.Within P) :
    other.visit type context stack = classifier.visit type context stack := by
  have hreplacements {name : String} {args : List TypeUse}
      (huse : (TypeUse.declared name args).Within P) :=
    within_replacements hclosed (TypeUse.within_declared.1 huse).1 (.declared name args)
  induction type, context, stack using classifier.visit_induction
    (Q := fun replacements stack =>
      (∀ use ∈ Replacement.uses replacements, use.Within P) →
        other.visitReplacements replacements stack =
          classifier.visitReplacements replacements stack) with
  | primitive kind context stack => rw [visit_primitive, visit_primitive]
  | dimension inner context stack ih => rw [visit_array_array, visit_array_array, ih htype]
  | array component context stack hcomponent ih =>
    rw [visit_array other hcomponent, visit_array classifier hcomponent, ih htype]
  | varNone name context stack => rw [visit_var_none, visit_var_none]
  | wildcardNone context stack => rw [visit_wildcard_none, visit_wildcard_none]
  | varSome name bound context stack ih => rw [visit_var_some, visit_var_some, ih htype]
  | wildcardSome bound context stack ih =>
    rw [visit_wildcard_some, visit_wildcard_some, ih htype]
  | cutShort name args context stack h =>
    rw [visit_of_blocks other h, visit_of_blocks classifier h, (hagree name args htype).cutShort]
  | failed name args context stack error hpass hfailed ih =>
    refine (hagree name args htype).visit_eq hpass (ih (hreplacements htype)) fun hnone => ?_
    rw [hfailed] at hnone
    cases hnone
  | replaced name args context stack type hpass hreplaced ih =>
    refine (hagree name args htype).visit_eq hpass (ih (hreplacements htype)) fun hnone => ?_
    rw [hreplaced] at hnone
    cases hnone
  | map name args context stack key value hpass _ hentry ih ihkey ihvalue =>
    have huse := hagree name args htype
    obtain ⟨hkey, hvalue⟩ := hclosed.within_keyValue? htype hentry
    refine huse.visit_eq hpass (ih (hreplacements htype)) fun _ => ?_
    rw [visitParts, visitParts, ← huse.keyValue?, hentry]
    dsimp only
    rw [ihkey hkey, ihvalue hvalue]
  | component name args context stack component hpass _ hentry hcomponent ih ihcomponent =>
    have huse := hagree name args htype
    refine huse.visit_eq hpass (ih (hreplacements htype)) fun _ => ?_
    rw [visitParts, visitParts, ← huse.keyValue?, hentry, ← huse.component?, hcomponent]
    exact ihcomponent (hclosed.within_component? htype hcomponent)
  | named name args context stack hpass _ hentry hcomponent ih =>
    have huse := hagree name args htype
    refine huse.visit_eq hpass (ih (hreplacements htype)) fun _ => ?_
    rw [visitParts, visitParts, ← huse.keyValue?, hentry, ← huse.component?, hcomponent,
      huse.named]
  | nil stack _ => rw [visitReplacements_nil, visitReplacements_nil]
  | unstructured rest stack ih hrest =>
    rw [visitReplacements_unstructured, visitReplacements_unstructured, ih hrest]
  | type use rest stack ih ihrest hall =>
    obtain ⟨huse, hrest⟩ := List.forall_mem_cons.1 hall
    rw [visitReplacements_type, visitReplacements_type, ih huse, ihrest hrest]

/-! ### Agreement on names -/

/-- Two classifiers say the same about the names with a property. -/
structure AgreesWithin (P : String → Prop) (classifier other : Classifier) : Prop where
  settings : classifier.graph.settings = other.graph.settings
  declarations : ∀ name, P name →
    (classifier.graph.declaration? name).map Declaration.withoutMembers =
      (other.graph.declaration? name).map Declaration.withoutMembers
  namespaces : ∀ name declaration, P name →
    classifier.graph.declaration? name = some declaration →
      (classifier.graph.package? declaration.package).bind Package.namespaceUri =
        (other.graph.package? declaration.package).bind Package.namespaceUri
  registered : ∀ name, P name →
    (∀ declaration, classifier.graph.declaration? name = some declaration →
      declaration.kind ≠ .interface) →
        classifier.registry.known? name = other.registry.known? name ∧
          classifier.registry.definition? name = other.registry.definition? name

lemma AgreesWithin.sameSupertypes (h : AgreesWithin P classifier other) :
    TypeGraph.SameSupertypesOn P classifier.graph other.graph := by
  intro name hname args
  have hmap (declaration? : Option Declaration) :
      declaration?.map (TypeGraph.supertypesOf · args) =
        (declaration?.map Declaration.withoutMembers).map (TypeGraph.supertypesOf · args) := by
    cases declaration? <;> rfl
  rw [hmap, h.declarations name hname, ← hmap]

lemma AgreesWithin.replacements_eq (h : AgreesWithin P classifier other) (hname : P name)
    (use : TypeUse) : classifier.replacements name use = other.replacements name use := by
  have helim (classifier : Classifier) : classifier.replacements name use =
      ((classifier.graph.declaration? name).map Declaration.withoutMembers).elim []
        (·.replacements use) := by
    rw [replacements]
    cases classifier.graph.declaration? name <;> rfl
  rw [helim, h.declarations name hname, ← helim]

lemma AgreesWithin.isTransient_eq (h : AgreesWithin P classifier other) {component : TypeUse}
    (hcomponent : component.Within P) :
    classifier.graph.isTransient component = other.graph.isTransient component := by
  cases component with
  | declared name args =>
    have hany (graph : TypeGraph) : graph.isTransient (.declared name args) =
        ((graph.declaration? name).map Declaration.withoutMembers).any fun declaration =>
          declaration.transient && declaration.adapter.isNone := by
      show (graph.declaration? name).any _ = _
      cases graph.declaration? name <;> rfl
    rw [hany, h.declarations name (TypeUse.within_declared.1 hcomponent).1, ← hany]
  | primitive | array | var | wildcard => rfl

lemma AgreesWithin.registered_eq (h : AgreesWithin P classifier other) (hname : P name)
    (hkind : ∀ declaration, classifier.graph.declaration? name = some declaration →
      declaration.kind ≠ .interface) :
    classifier.registered name = other.registered name := by
  obtain ⟨hknown, hdefinition⟩ := h.registered name hname hkind
  rw [Classifier.registered, Classifier.registered, Registry.lookup, Registry.lookup, hknown,
    hdefinition]

/-- The declarations of a name are both missing or say the same about its uses. -/
lemma AgreesWithin.declaration?_cases (h : AgreesWithin P classifier other) (hname : P name) :
    (classifier.graph.declaration? name = none ∧ other.graph.declaration? name = none) ∨
      ∃ declaration declaration', classifier.graph.declaration? name = some declaration ∧
        other.graph.declaration? name = some declaration' ∧
          declaration.withoutMembers = declaration'.withoutMembers := by
  have hdecl := h.declarations name hname
  cases hfirst : classifier.graph.declaration? name with
  | none =>
    rw [hfirst] at hdecl
    exact .inl ⟨rfl, Option.map_eq_none_iff.1 hdecl.symm⟩
  | some declaration =>
    rw [hfirst] at hdecl
    obtain ⟨declaration', hsecond, heq⟩ := Option.map_eq_some_iff.1 hdecl.symm
    exact .inr ⟨declaration, declaration', rfl, hsecond, heq.symm⟩

lemma AgreesWithin.named_eq (h : AgreesWithin P classifier other) (hname : P name) :
    classifier.named name = other.named name := by
  rcases h.declaration?_cases hname with ⟨hfirst, hsecond⟩ | ⟨first, second, hfirst, hsecond, heq⟩
  · have hregistered := h.registered_eq hname fun declaration hdecl => by
      rw [hfirst] at hdecl
      cases hdecl
    rw [named, named, hfirst, hsecond]
    exact congrArg Except.ok hregistered
  · simp only [Declaration.withoutMembers, Declaration.mk.injEq] at heq
    obtain ⟨hownname, hkind, -, -, -, -, -, -, -, hinfo, hconstants, -⟩ := heq
    have hpackage : first.package = second.package := congrArg packageOf hownname
    have hregistered (hclass : first.kind ≠ .interface) :
        classifier.registered name = other.registered name :=
      h.registered_eq hname fun declaration hdecl => by
        rw [hfirst] at hdecl
        exact Option.some.inj hdecl ▸ hclass
    have hnamespace := h.namespaces name first hname hfirst
    rw [named, named, hfirst, hsecond]
    dsimp only
    rw [← hkind, ← hinfo, ← hpackage]
    cases hcase : first.kind with
    | interface => rfl
    | plainClass => rw [hregistered (by rw [hcase]; decide)]
    | enumeration =>
      cases first.qnameInfo with
      | none => rw [hregistered (by rw [hcase]; decide)]
      | some info => simp only [Declaration.qnameTable_congr hownname hconstants info hnamespace]

/-- Classifiers that agree on names treat the uses of these names alike. -/
lemma AgreesWithin.agreesOn (h : AgreesWithin P classifier other)
    (hclosed : classifier.graph.Closed P) {args : List TypeUse}
    (huse : (TypeUse.declared name args).Within P) : classifier.AgreesOn other name args where
  replacements := h.replacements_eq (TypeUse.within_declared.1 huse).1 _
  cutShort := by
    rw [cutShort, cutShort, h.sameSupertypes.isCollection_eq hclosed huse h.settings]
  keyValue? := h.sameSupertypes.keyValue?_eq hclosed huse h.settings
  component? := h.sameSupertypes.component?_eq hclosed huse h.settings
    fun _ hcomponent => h.isTransient_eq hcomponent
  named := h.named_eq (TypeUse.within_declared.1 huse).1

lemma AgreesWithin.visit_eq {type : TypeUse}
    (h : AgreesWithin (classifier.graph.Reachable type) classifier other) (context : Context)
    (stack : UseStack) :
    other.visit type context stack = classifier.visit type context stack :=
  visit_eq_of_agreesOn (classifier.graph.closed_reachable type)
    (fun _ _ => h.agreesOn (classifier.graph.closed_reachable type)) type context stack
    fun _ hname => .occurs hname

/-! ### Changes -/

/-- The classifier with a declaration under a name, be it a new one or in the place of another. -/
def declare (classifier : Classifier) (name : String) (declaration : Declaration) : Classifier :=
  { classifier with
    graph :=
      { classifier.graph with
        declarations := classifier.graph.declarations.insert name declaration } }

/-- The classifier with a package under a name, be it a new one or in the place of another. -/
def describe (classifier : Classifier) (name : String) (package : Package) : Classifier :=
  { classifier with
    graph :=
      { classifier.graph with packages := classifier.graph.packages.insert name package } }

lemma declaration?_declare (classifier : Classifier) (name : String) (declaration : Declaration)
    (n : String) : (classifier.declare name declaration).graph.declaration? n =
      if name = n then some declaration else classifier.graph.declaration? n :=
  OrderedMap.get?_insert _ _ _ _

lemma package?_describe (classifier : Classifier) (name : String) (package : Package)
    (n : String) : (classifier.describe name package).graph.package? n =
      if name = n then some package else classifier.graph.package? n :=
  OrderedMap.get?_insert _ _ _ _

/-- A declaration counts only for its own name, and only with what it says about its uses. -/
lemma agreesWithin_declare {declaration : Declaration}
    (h : P name → (classifier.graph.declaration? name).map Declaration.withoutMembers =
      some declaration.withoutMembers) :
    AgreesWithin P classifier (classifier.declare name declaration) where
  settings := rfl
  declarations := by
    intro n hn
    rw [declaration?_declare]
    by_cases heq : name = n
    · subst heq
      rw [if_pos rfl, h hn]
      rfl
    · rw [if_neg heq]
  namespaces := fun _ _ _ _ => rfl
  registered := fun _ _ _ => ⟨rfl, rfl⟩

/-- A package counts only with its namespace. -/
lemma agreesWithin_describe {package : Package}
    (h : (classifier.graph.package? name).bind Package.namespaceUri = package.namespaceUri) :
    AgreesWithin P classifier (classifier.describe name package) where
  settings := rfl
  declarations := fun _ _ => rfl
  namespaces := by
    intro n declaration _ _
    rw [package?_describe]
    by_cases heq : name = declaration.package
    · rw [if_pos heq, ← heq, h]
      rfl
    · rw [if_neg heq]
  registered := fun _ _ _ => ⟨rfl, rfl⟩

/-- Classification is local: its result or error is the same, in every context and over every
stack, for all classifiers that agree on the names to which the type leads. So it makes no
difference to declare what the type does not lead to, to give a declaration other members or
another name for clients, to change a package apart from its namespace, or to change what the
registry says about interfaces. -/
theorem visit_local (classifier : Classifier) (type : TypeUse) :
    (∀ other, AgreesWithin (classifier.graph.Reachable type) classifier other →
      ∀ context stack,
        other.visit type context stack = classifier.visit type context stack) ∧
    (∀ name declaration, ¬ classifier.graph.Reachable type name → ∀ context stack,
      (classifier.declare name declaration).visit type context stack =
        classifier.visit type context stack) ∧
    (∀ name declaration members clientName,
      classifier.graph.declaration? name = some declaration → ∀ context stack,
        (classifier.declare name
            { declaration with members := members, clientName := clientName }).visit
          type context stack = classifier.visit type context stack) ∧
    (∀ name package, (classifier.graph.package? name).bind Package.namespaceUri =
        package.namespaceUri → ∀ context stack,
      (classifier.describe name package).visit type context stack =
        classifier.visit type context stack) ∧
    ∀ registry : Registry, (∀ name,
        (∀ declaration, classifier.graph.declaration? name = some declaration →
          declaration.kind ≠ .interface) →
        classifier.registry.known? name = registry.known? name ∧
          classifier.registry.definition? name = registry.definition? name) →
      ∀ context stack, { classifier with registry := registry }.visit type context stack =
        classifier.visit type context stack := by
  refine ⟨fun other h => h.visit_eq, ?_, ?_, ?_, ?_⟩
  · intro name declaration hname
    exact (agreesWithin_declare fun h => absurd h hname).visit_eq
  · intro name declaration members clientName hdecl
    refine (agreesWithin_declare fun _ => ?_).visit_eq
    rw [hdecl]
    rfl
  · intro name package hpackage
    exact (agreesWithin_describe hpackage).visit_eq
  · intro registry hregistry
    have hagree : AgreesWithin (classifier.graph.Reachable type) classifier
        { classifier with registry := registry } :=
      ⟨rfl, fun _ _ => rfl, fun _ _ _ _ => rfl, fun name _ => hregistry name⟩
    exact hagree.visit_eq

/-- A list `A` of `B` with the hint that a `B` is an `A`, and an interface `I` that it extends. -/
def cyclic : Classifier where
  graph :=
    { declarations := ((OrderedMap.empty.insert "A"
          { Declaration.bare "A" with supertypes := [.declared "L" [.declared "B" []]] }).insert
        "B" { Declaration.bare "B" with
          supertypes := [.declared "I" []]
          typeHint := some (.declared "A" []) }).insert
        "I" { Declaration.bare "I" with kind := .interface }
      packages := ∅
      settings := ⟨"O", .ofList ["L"], ∅, ∅⟩ }
  registry := ∅

/-- The same names with members, a list that nothing leads to, a package, and a registered
interface. -/
def cyclicAndMore : Classifier where
  graph :=
    { declarations := (((OrderedMap.empty.insert "C"
          { Declaration.bare "C" with supertypes := [.declared "L" [.declared "A" []]] }).insert
        "A" { Declaration.bare "A" with
          supertypes := [.declared "L" [.declared "B" []]]
          members := [⟨"c", .declared "C" [], none, none⟩] }).insert
        "B" { Declaration.bare "B" with
          supertypes := [.declared "I" []]
          typeHint := some (.declared "A" [])
          clientName := some "Bee" }).insert
        "I" { Declaration.bare "I" with kind := .interface }
      packages := OrderedMap.empty.insert ""
        ⟨"", none, [⟨.declared "C" [], some (.declared "B" [])⟩]⟩
      settings := ⟨"O", .ofList ["L"], ∅, ∅⟩ }
  registry := Registry.empty.register "I" .string

/-- What is added around the cycle leaves the names of the cycle as they are, be it added together
or one by one. -/
theorem cyclic_visit_eq :
    AgreesWithin (cyclic.graph.Reachable (.declared "A" [])) cyclic cyclicAndMore ∧
      cyclicAndMore.visit (.declared "A" []) .array ⟨["S"]⟩ =
        cyclic.visit (.declared "A" []) .array ⟨["S"]⟩ ∧
      cyclicAndMore.visit (.declared "A" []) .array ⟨["S"]⟩ =
        .ok (.array (.array .object)) ∧
      ¬ cyclic.graph.Reachable (.declared "A" []) "C" ∧
      (cyclic.declare "C" (.bare "C")).visit (.declared "A" []) .array ⟨["S"]⟩ =
        cyclic.visit (.declared "A" []) .array ⟨["S"]⟩ ∧
      (cyclic.declare "I"
          { Declaration.bare "I" with kind := .interface, clientName := some "Eye" }).visit
          (.declared "A" []) .array ⟨["S"]⟩ =
        cyclic.visit (.declared "A" []) .array ⟨["S"]⟩ ∧
      (cyclic.describe "" ⟨"", none, [⟨.declared "C" [], none⟩]⟩).visit
          (.declared "A" []) .array ⟨["S"]⟩ =
        cyclic.visit (.declared "A" []) .array ⟨["S"]⟩ ∧
      { cyclic with registry := Registry.empty.register "I" .string }.visit
          (.declared "A" []) .array ⟨["S"]⟩ =
        cyclic.visit (.declared "A" []) .array ⟨["S"]⟩ := by
  have hclosed : cyclic.graph.Closed (· ∈ ["A", "L", "B", "I", "O"]) := by
    refine ⟨by decide, ?_⟩
    intro name declaration hname hdecl
    simp only [List.mem_cons, List.not_mem_nil, or_false] at hname
    rcases hname with rfl | rfl | rfl | rfl | rfl <;> cases hdecl <;> decide
  have hnames {name : String} (hname : cyclic.graph.Reachable (.declared "A" []) name) :
      name ∈ ["A", "L", "B", "I", "O"] :=
    hname.of_closed hclosed (by simp [TypeUse.Within, TypeUse.names, TypeUse.namesOfArgs])
  have hregistered (name : String) (hkind : ∀ declaration,
      cyclic.graph.declaration? name = some declaration → declaration.kind ≠ .interface) :
      cyclic.registry.known? name = (Registry.empty.register "I" .string).known? name ∧
        cyclic.registry.definition? name =
          (Registry.empty.register "I" .string).definition? name := by
    have hother : "I" ≠ name := by
      rintro rfl
      exact hkind _ rfl rfl
    have hknown : (Registry.empty.register "I" .string).known? name = _ :=
      OrderedMap.get?_insert _ _ _ _
    rw [hknown, if_neg hother]
    exact ⟨rfl, rfl⟩
  have hagree : AgreesWithin (cyclic.graph.Reachable (.declared "A" [])) cyclic
      cyclicAndMore := by
    refine ⟨rfl, ?_, ?_, fun name _ => hregistered name⟩
    · intro name hname
      have hmem := hnames hname
      simp only [List.mem_cons, List.not_mem_nil, or_false] at hmem
      rcases hmem with rfl | rfl | rfl | rfl | rfl <;> rfl
    · intro name declaration _ _
      have hpackage : cyclicAndMore.graph.package? declaration.package = _ :=
        OrderedMap.get?_insert _ _ _ _
      rw [hpackage]
      split <;> rfl
  have hresult : cyclicAndMore.visit (.declared "A" []) .array ⟨["S"]⟩ =
      .ok (.array (.array .object)) := by
    have hroot : cyclicAndMore.graph.sequenceRoot? (.declared "A" []) =
        some (.declared "L" [.declared "B" []]) := by
      cbv
    have hcomponent : cyclicAndMore.graph.component? (.declared "A" []) =
        some (.declared "B" []) :=
      TypeGraph.component?_of_root hroot rfl
    have hagain : cyclicAndMore.visit (.declared "A" []) .plain ⟨["B", "A", "S"]⟩ =
        .ok (.array .object) := by
      rw [visit_of_blocks _ (by decide)]
      cbv
    have hhint : cyclicAndMore.replacements "B" (.declared "B" []) =
        [] ++ [.type (.declared "A" [])] := rfl
    have hpass : ¬ (⟨["A", "S"]⟩ : UseStack).blocks "B" (.declared "B" []) := by
      decide
    rw [visit_of_component (by decide) rfl (by cbv) hcomponent]
    refine (visit_of_replaced hpass hhint (visitReplacements_nil _ _) .collection).trans ?_
    exact congrArg (_ <$> ·) hagain
  have hunreachable : ¬ cyclic.graph.Reachable (.declared "A" []) "C" := fun h =>
    absurd (hnames h) (by decide)
  obtain ⟨hall, hdeclare, hmembers, hdescribe, hregistry⟩ := visit_local cyclic (.declared "A" [])
  refine ⟨hagree, hall _ hagree _ _, hresult, hunreachable, hdeclare "C" _ hunreachable _ _, ?_,
    hdescribe "" _ rfl _ _, hregistry _ hregistered _ _⟩
  exact hmembers "I" { Declaration.bare "I" with kind := .interface } [] (some "Eye") rfl _ _

end Classifier

end SchemaTyping
