import SchemaTyping.Proofs.Member.Elements
import SchemaTyping.Proofs.Run.Agreement
import SchemaTyping.Proofs.Visit.Errors

/-!
# Adapters without effect

An adapter that leads back to the element has no effect of its own, but it ends the search: no
adapter on a lower level is found any more, and no table of a package is made. So it may only be
left out where what the lower levels have would make no difference.
-/

namespace SchemaTyping

/-! ### Graphs without an adapter -/

/-- The graph in which the declaration of a name has no adapter. -/
def TypeGraph.withoutAdapter (graph : TypeGraph) (name : String) (declaration : Declaration) :
    TypeGraph :=
  { graph with declarations := graph.declarations.insert name { declaration with adapter := none } }

/-- The classifier of the graph in which the declaration of a name has no adapter. -/
def Classifier.withoutAdapter (classifier : Classifier) (name : String)
    (declaration : Declaration) : Classifier :=
  { classifier with graph := classifier.graph.withoutAdapter name declaration }

namespace Declaration

variable {declaration : Declaration} {use : TypeUse}

lemma replacements_without_adapter (h : TypeGraph.adapting? declaration use = none) :
    declaration.replacements use = { declaration with adapter := none }.replacements use := by
  rw [replacements, h]
  rfl

end Declaration

namespace TypeGraph

variable {graph : TypeGraph} {name : String} {declaration : Declaration}

lemma declaration?_withoutAdapter (other : String) :
    (graph.withoutAdapter name declaration).declaration? other =
      if name = other then some { declaration with adapter := none }
      else graph.declaration? other :=
  OrderedMap.get?_insert _ _ _ _

lemma redeclared_withoutAdapter (h : graph.declaration? name = some declaration) :
    graph.Redeclared (graph.withoutAdapter name declaration) name declaration
      { declaration with adapter := none } :=
  ⟨h, declaration?_withoutAdapter⟩

lemma sameSupertypes_withoutAdapter (h : graph.declaration? name = some declaration) :
    graph.SameSupertypes (graph.withoutAdapter name declaration) :=
  (redeclared_withoutAdapter h).sameSupertypes fun _ => rfl

/-- Without its adapter a declaration that is bound is taken out of containers as before. -/
lemma component?_withoutAdapter (h : graph.declaration? name = some declaration)
    (htransient : declaration.transient = false) (type : TypeUse) :
    (graph.withoutAdapter name declaration).component? type = graph.component? type := by
  have hexcluded : (declaration.transient && declaration.adapter.isNone) =
      ({ declaration with adapter := none }.transient && true) := by
    rw [htransient]
    rfl
  have hcomponents := (redeclared_withoutAdapter h).isTransient_eq hexcluded
  exact ((sameSupertypes_withoutAdapter h).component?_eq rfl hcomponents type).symm

/-- Without an adapter nothing keeps the uses of a transient declaration from being narrowed. -/
lemma isTransient_withoutAdapter (component : TypeUse) :
    (graph.withoutAdapter name declaration).isTransient component =
      if component.declaredName? = some name then declaration.transient
      else graph.isTransient component := by
  rw [isTransient, isTransient]
  cases component.declaredName? with
  | none => rfl
  | some other =>
    rw [Option.bind_some, declaration?_withoutAdapter]
    by_cases heq : name = other
    · simp [heq]
    · simp [heq, Ne.symm heq]

/-- Where the component is a transient class, without the adapter of the class the object type takes
its place. -/
lemma component?_withoutAdapter_of_transient (h : graph.declaration? name = some declaration)
    (htransient : declaration.transient) {outer : String} {outerArgs args : List TypeUse}
    (hcomponent : graph.component? (.declared outer outerArgs) = some (.declared name args)) :
    (graph.withoutAdapter name declaration).component? (.declared outer outerArgs) =
      some graph.settings.object := by
  obtain ⟨root, hroot, hnarrow⟩ := Option.map_eq_some_iff.1 hcomponent
  have hother : (graph.withoutAdapter name declaration).sequenceRoot? (.declared outer outerArgs) =
      some root :=
    ((sameSupertypes_withoutAdapter h).on.root?_eq (closed_true graph)
      (fun _ _ => trivial) _).symm.trans hroot
  have hexcluded : (graph.withoutAdapter name declaration).isTransient
      (graph.componentOfArgs root.args) := by
    rw [isTransient_withoutAdapter]
    split
    · exact htransient
    · next hname =>
      by_contra hbound
      rw [narrow, if_neg hbound] at hnarrow
      exact hname (by rw [hnarrow]; rfl)
  refine component?_of_root hother ?_
  exact if_pos hexcluded

lemma ofAdapters_adaptationAt {type : TypeUse} {package : String} {error : MetadataError}
    (h : graph.adaptationAt ⟨none, some package⟩ type = .error error) : error.OfAdapters := by
  cases hname : (graph.element type).1.declaredName? with
  | none =>
    rw [adaptationAt_undeclared hname] at h
    cases h
  | some name =>
    cases hadapter : graph.adapterOf? name with
    | some adapter =>
      rw [adaptationAt_type hname hadapter] at h
      cases h
    | none =>
      rw [adaptationAt_package hname hadapter] at h
      exact ofAdapters_adapterTable (map_eq_error_iff.1 h)

end TypeGraph

open TypeGraph

namespace Classifier

variable {classifier : Classifier} {name : String} {declaration : Declaration} {type : TypeUse}
  {tables : AdapterTables}

/-! ### The levels below the member -/

/-- The levels below the member make no difference to a type: the table of the package is in order
if it is asked for, and an adapter that is found leads to the result that the type has by itself. -/
def LowerLevelsAgree (classifier : Classifier) (package : String) (type : TypeUse) : Prop :=
  ∃ found, classifier.graph.adaptationAt ⟨none, some package⟩ type = .ok found ∧
    ∀ adaptation ∈ found, classifier.visit adaptation.adapting
      (.ofWrapping adaptation.wrapping) ∅ = classifier.classify type

/-- A member without an adapter is classified like its type if and only if the lower levels make no
difference. -/
lemma classifyMember_eq_classify_iff (htables : tables.Faithful classifier.graph)
    (owner : Declaration) {member : Member} (hmember : member.adapter = none) :
    (classifier.classifyMember tables owner member).1 =
        classifier.classify member.effectiveType ↔
      classifier.LowerLevelsAgree owner.package member.effectiveType := by
  rw [classifyMember_eq htables, positionOf, hmember, LowerLevelsAgree]
  cases hfound : classifier.graph.adaptationAt ⟨none, some owner.package⟩
    member.effectiveType with
  | error error =>
    constructor
    · intro h
      -- the error of a table is no error that the type itself may have
      have herror := enumerationError_of_visit _ _ _ h.symm
      exact absurd (ofAdapters_adaptationAt hfound) herror.not_ofAdapters
    · rintro ⟨found, h, -⟩
      cases h
  | ok found =>
    cases found with
    | none =>
      constructor
      · exact fun _ => ⟨none, rfl, by rintro _ ⟨⟩⟩
      · exact fun _ => rfl
    | some adaptation =>
      constructor
      · intro h
        refine ⟨some adaptation, rfl, ?_⟩
        rintro _ ⟨⟩
        exact h
      · rintro ⟨_, ⟨⟩, h⟩
        exact h adaptation rfl

/-- The adapter of a declaration that leads back to the element ends the search. -/
lemma classifyMember_eq_classify_of_self (htables : tables.Faithful classifier.graph)
    (owner : Declaration) {member : Member} (hmember : member.adapter = none) {adapter : Adapter}
    (hname : (classifier.graph.element member.effectiveType).1.declaredName? = some name)
    (hdecl : classifier.graph.declaration? name = some declaration)
    (hadapter : declaration.adapter = some adapter)
    (htarget : adapter.target = (classifier.graph.element member.effectiveType).1) :
    (classifier.classifyMember tables owner member).1 =
      classifier.classify member.effectiveType := by
  have hfound : classifier.graph.adapterOf? name = some adapter := by
    rw [adapterOf?, hdecl]
    exact hadapter
  rw [classifyMember_eq htables, positionOf, hmember, adaptationAt_type hname hfound,
    adaptationBy, if_pos htarget]
  rfl

/-! ### Leaving out an adapter -/

/-- The adapter of a declaration has no part in the classification of a type: it acts on no use
that is met, and what is met is taken apart in the same way without it. -/
structure Untouched (classifier : Classifier) (name : String) (declaration : Declaration)
    (type : TypeUse) : Prop where
  uses : ∀ args, classifier.Meets type (.declared name args) →
    adapting? declaration (.declared name args) = none
  components : ∀ use, classifier.Meets type use →
    (classifier.graph.withoutAdapter name declaration).component? use =
      classifier.graph.component? use

lemma named_withoutAdapter (h : classifier.graph.declaration? name = some declaration)
    (other : String) :
    classifier.named other = (classifier.withoutAdapter name declaration).named other := by
  have hredeclared : classifier.graph.Redeclared
      (classifier.withoutAdapter name declaration).graph name declaration
        { declaration with adapter := none } :=
    redeclared_withoutAdapter h
  exact named_eq_of_redeclared hredeclared rfl rfl rfl rfl rfl rfl other

lemma Untouched.agreesOn (h : classifier.graph.declaration? name = some declaration)
    (huntouched : classifier.Untouched name declaration type) {other : String}
    {args : List TypeUse} (hmeets : classifier.Meets type (.declared other args)) :
    classifier.AgreesOn (classifier.withoutAdapter name declaration) other args where
  replacements := by
    have hother : (classifier.withoutAdapter name declaration).graph.declaration? other = _ :=
      declaration?_withoutAdapter other
    unfold replacements
    rw [hother]
    by_cases heq : name = other
    · rw [if_pos heq, ← heq, h]
      rw [← heq] at hmeets
      exact Declaration.replacements_without_adapter (huntouched.uses args hmeets)
    · rw [if_neg heq]
  cutShort := by
    rw [cutShort, cutShort, (sameSupertypes_withoutAdapter h).isCollection_eq rfl]
    rfl
  keyValue? := (sameSupertypes_withoutAdapter h).keyValue?_eq rfl _
  component? := (huntouched.components _ hmeets).symm
  named := named_withoutAdapter h other

/-- What an adapter has no part in is classified the same without it. -/
lemma Untouched.classify_eq (h : classifier.graph.declaration? name = some declaration)
    (huntouched : classifier.Untouched name declaration type) :
    (classifier.withoutAdapter name declaration).classify type = classifier.classify type :=
  classify_eq_of_agreesOn fun _ _ hmeets => huntouched.agreesOn h hmeets

/-- A declaration that is bound anyway is untouched if its adapter acts on no use that is met. -/
lemma untouched_of_not_transient (h : classifier.graph.declaration? name = some declaration)
    (htransient : declaration.transient = false)
    (huses : ∀ args, classifier.Meets type (.declared name args) →
      adapting? declaration (.declared name args) = none) :
    classifier.Untouched name declaration type where
  uses := huses
  components := fun use _ => component?_withoutAdapter h htransient use

/-! ### Adapters that lead back -/

lemma replacements_withoutAdapter_of_eq_nil
    (h : classifier.graph.declaration? name = some declaration)
    {outer : String} {use : TypeUse} (hnone : classifier.replacements outer use = []) :
    (classifier.withoutAdapter name declaration).replacements outer use = [] := by
  have hother : (classifier.withoutAdapter name declaration).graph.declaration? outer = _ :=
    declaration?_withoutAdapter outer
  rw [replacements, hother]
  by_cases heq : name = outer
  · rw [if_pos heq]
    rw [replacements, ← heq, h] at hnone
    have hadapting : adapting? declaration use = none := by
      cases hadapting : adapting? declaration use with
      | none => rfl
      | some target => simp [Declaration.replacements_eq hadapting] at hnone
    exact (Declaration.replacements_without_adapter hadapting).symm.trans hnone
  · rw [if_neg heq]
    exact hnone

/-- An adapter that leads back to a transient class keeps the class from being narrowed. A member
that is a container of the class is classified by way of the class, and without the adapter by way
of the object type, where the lower levels make no difference. -/
theorem transient_component_kept (classifier : Classifier) {tables : AdapterTables}
    (htables : tables.Faithful classifier.graph) (owner : Declaration) {member : Member}
    (hmember : member.adapter = none) {outer : String} {outerArgs args : List TypeUse}
    (htype : member.effectiveType = .declared outer outerArgs)
    (hreplacements : classifier.replacements outer (.declared outer outerArgs) = [])
    (hentry : classifier.graph.keyValue? (.declared outer outerArgs) = none)
    (hcomponent : classifier.graph.component? (.declared outer outerArgs) =
      some (.declared name args))
    (hdecl : classifier.graph.declaration? name = some declaration)
    (htransient : declaration.transient) {adapter : Adapter}
    (hadapter : declaration.adapter = some adapter)
    (htarget : adapter.target = .declared name args) :
    (classifier.classifyMember tables owner member).1 =
        classifier.visit (.declared name args) .collection
          (UseStack.enter ∅ (TypeUse.declared outer outerArgs).text) ∧
      ((classifier.withoutAdapter name declaration).LowerLevelsAgree owner.package
          member.effectiveType →
        ((classifier.withoutAdapter name declaration).classifyMember tables owner member).1 =
          (classifier.withoutAdapter name declaration).visit classifier.graph.settings.object
            .collection (UseStack.enter ∅ (TypeUse.declared outer outerArgs).text)) := by
  have hmap : classifier.graph.isMap (.declared outer outerArgs) = false := by
    rw [isMap, Option.isSome_eq_false_iff, Option.isNone_iff_eq_none]
    exact Option.map_eq_none_iff.1 hentry
  have helement := element_of_component hmap hcomponent
  constructor
  · have hself : adapter.target = (classifier.graph.element member.effectiveType).1 := by
      rw [htype, helement, htarget]
    rw [classifyMember_eq_classify_of_self htables owner hmember (by rw [htype, helement]; rfl)
      hdecl hadapter hself, htype]
    exact visit_of_component (UseStack.not_blocks_empty _ _) hreplacements hentry hcomponent .plain
  · intro hlower
    have hwithout : tables.Faithful (classifier.withoutAdapter name declaration).graph := htables
    rw [(classifyMember_eq_classify_iff hwithout owner hmember).2 hlower, htype]
    have hentry' : (classifier.withoutAdapter name declaration).graph.keyValue?
        (.declared outer outerArgs) = none :=
      ((sameSupertypes_withoutAdapter hdecl).keyValue?_eq rfl _).symm.trans hentry
    exact visit_of_component (UseStack.not_blocks_empty _ _)
      (replacements_withoutAdapter_of_eq_nil hdecl hreplacements) hentry'
      (component?_withoutAdapter_of_transient hdecl htransient hcomponent) .plain

/-- A member whose adapter leads back to the element is classified like the member without it if
and only if the lower levels make no difference to its type. The same holds of an adapter of the
element's declaration that leads back to the element, for a member without an adapter and the graph
without that adapter, if the adapter has no other part in the classification of the type. -/
theorem adapter_without_effect_iff (classifier : Classifier) {tables : AdapterTables}
    (htables : tables.Faithful classifier.graph) (owner : Declaration) (member : Member) :
    (∀ adapter, member.adapter = some adapter →
      adapter.target = (classifier.graph.element member.effectiveType).1 →
      ((classifier.classifyMember tables owner member).1 =
          (classifier.classifyMember tables owner { member with adapter := none }).1 ↔
        classifier.LowerLevelsAgree owner.package member.effectiveType)) ∧
    ∀ name declaration adapter, member.adapter = none →
      (classifier.graph.element member.effectiveType).1.declaredName? = some name →
      classifier.graph.declaration? name = some declaration →
      declaration.adapter = some adapter →
      adapter.target = (classifier.graph.element member.effectiveType).1 →
      classifier.Untouched name declaration member.effectiveType →
      ((classifier.classifyMember tables owner member).1 =
          ((classifier.withoutAdapter name declaration).classifyMember tables owner member).1 ↔
        (classifier.withoutAdapter name declaration).LowerLevelsAgree owner.package
          member.effectiveType) := by
  constructor
  · intro adapter hadapter htarget
    have hplain : (classifier.classifyMember tables owner member).1 =
        classifier.classify member.effectiveType := by
      rw [classifyMember_eq htables, positionOf, hadapter, adaptationAt_member, adaptationBy,
        if_pos htarget]
      rfl
    rw [hplain, eq_comm]
    have hnone : { member with adapter := none }.adapter = none := rfl
    exact classifyMember_eq_classify_iff htables owner hnone
  · intro name declaration adapter hmember hname hdecl hadapter htarget huntouched
    have hplain :=
      classifyMember_eq_classify_of_self htables owner hmember hname hdecl hadapter htarget
    -- the packages are the same, so the tables are those of both graphs
    have hwithout : tables.Faithful (classifier.withoutAdapter name declaration).graph := htables
    rw [hplain, ← huntouched.classify_eq hdecl, eq_comm]
    exact classifyMember_eq_classify_iff hwithout owner hmember

/-- A class `E` and a package `p` that adapts it to a number `N`. -/
def adaptedInPackage : Classifier where
  graph :=
    { declarations := OrderedMap.empty.insert "E" (.bare "E")
      packages := OrderedMap.empty.insert "p"
        ⟨"p", none, [⟨.declared "N" [], some (.declared "E" [])⟩]⟩
      settings := ⟨"O", ∅, ∅, ∅⟩ }
  registry := Registry.empty.register "N" (.numeric .number none)

/-- A member of type `E` with an adapter that leads back to `E`. -/
def selfAdapted : Member :=
  ⟨"m", .declared "E" [], none, some ⟨.declared "E" [], none⟩⟩

/-- In the package the adapter of the member hides that of the package: with it the member is an
object, without it a number. -/
theorem self_adapted_hides_package :
    selfAdapted.adapter.map Adapter.target =
        some (adaptedInPackage.graph.element selfAdapted.effectiveType).1 ∧
      (adaptedInPackage.classifyMember ∅ (.bare "p.Own") selfAdapted).1 = .ok .object ∧
      (adaptedInPackage.classifyMember ∅ (.bare "p.Own")
        { selfAdapted with adapter := none }).1 = .ok (.numeric .number none) := by
  have hfound : adaptedInPackage.graph.adaptationAt
      (positionOf (.bare "p.Own") selfAdapted) selfAdapted.effectiveType = .ok none := by
    cbv
  have hlower : adaptedInPackage.graph.adaptationAt
      (positionOf (.bare "p.Own") { selfAdapted with adapter := none })
      selfAdapted.effectiveType = .ok (some ⟨.declared "N" [], .package, .none⟩) := by
    cbv
  refine ⟨by cbv, ?_, ?_⟩
  · rw [classifyMember_eq (faithful_empty _), hfound]
    exact visit_of_bare (UseStack.not_blocks_empty _ _) rfl (by cbv) (by cbv) .plain
  · rw [classifyMember_eq (faithful_empty _)]
    show (adaptedInPackage.graph.adaptationAt
      (positionOf (.bare "p.Own") { selfAdapted with adapter := none })
      selfAdapted.effectiveType).bind _ = _
    rw [hlower]
    exact visit_of_bare (UseStack.not_blocks_empty _ _) rfl (by cbv) (by cbv) .plain

/-- A class `E` that is adapted to itself. -/
def adaptedToItself : Declaration :=
  { Declaration.bare "E" with adapter := some ⟨.declared "E" [], none⟩ }

/-- The package adapts `E`, and so does its declaration, but to itself. -/
def adaptedTwice : Classifier :=
  { adaptedInPackage with
    graph :=
      { adaptedInPackage.graph with
        declarations := OrderedMap.empty.insert "E" adaptedToItself } }

/-- Outside of the package there is nothing to hide. -/
theorem self_adapted_elsewhere :
    (adaptedInPackage.classifyMember ∅ (.bare "q.Own") selfAdapted).1 =
        (adaptedInPackage.classifyMember ∅ (.bare "q.Own")
          { selfAdapted with adapter := none }).1 ∧
      (adaptedTwice.classifyMember ∅ (.bare "q.Own") { selfAdapted with adapter := none }).1 =
        ((adaptedTwice.withoutAdapter "E" adaptedToItself).classifyMember ∅ (.bare "q.Own")
          { selfAdapted with adapter := none }).1 := by
  have hlower : adaptedInPackage.graph.adaptationAt ⟨none, some "q"⟩
      selfAdapted.effectiveType = .ok none := by
    cbv
  have hpackage : (Declaration.bare "q.Own").package = "q" := by
    cbv
  have hwithout : (adaptedTwice.withoutAdapter "E" adaptedToItself).graph.adaptationAt
      ⟨none, some "q"⟩ (.declared "E" []) = .ok none := by
    cbv
  have hdecl : adaptedTwice.graph.declaration? "E" = some adaptedToItself := rfl
  constructor
  · refine ((adapter_without_effect_iff adaptedInPackage (faithful_empty _) (.bare "q.Own")
      selfAdapted).1 ⟨.declared "E" [], none⟩ rfl (by cbv)).2 ⟨none, ?_, by rintro _ ⟨⟩⟩
    rw [hpackage, hlower]
  · refine ((adapter_without_effect_iff adaptedTwice (faithful_empty _) (.bare "q.Own")
      { selfAdapted with adapter := none }).2 "E" _ ⟨.declared "E" [], none⟩ rfl (by cbv) hdecl rfl
      (by cbv) ?_).2 ⟨none, ?_, by rintro _ ⟨⟩⟩
    · refine untouched_of_not_transient hdecl rfl fun args _ => ?_
      exact Option.filter_some_neg (by simp [Declaration.asType, Declaration.bare, adaptedToItself])
    · rw [hpackage]
      exact hwithout

end Classifier

end SchemaTyping
