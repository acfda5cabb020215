import SchemaTyping.Proofs.Run.Outcome
import SchemaTyping.Proofs.Visit.WellFormed

/-!
# Where references come from

A visit that comes to a reference has no layer around it, and comes to it by way of a use that
nothing replaces and that is no container: the reference is what the registry says about the name of
that use. So a name whose definition is referred to refers to nothing but this definition when it is
classified itself, whatever its arguments.
-/

namespace SchemaTyping

lemma Context.wrap_eq_reference_iff {context : Context} {type : SchemaType} {target : String} :
    context.wrap type = .reference target ↔ ¬ context.wraps ∧ type = .reference target := by
  rw [wrap, SchemaType.wrapIf]
  split
  · next h => simp [h]
  · next h => simp [h]

/-- Where nothing replaces one use of a declaration, only this use can stand for another one. -/
lemma Declaration.replacements_other {declaration : Declaration}
    {use : TypeUse} (h : declaration.replacements use = []) (other : TypeUse) :
    declaration.replacements other = [] ∨ declaration.replacements other = [.type use] := by
  rw [Declaration.replacements, List.append_eq_nil_iff] at h
  obtain ⟨hoverrides, hadapter⟩ := h
  rw [Declaration.replacements, hoverrides, List.nil_append]
  cases hother : TypeGraph.adapting? declaration other with
  | none => exact .inl rfl
  | some target =>
    obtain ⟨htarget, hdiffers⟩ := Option.filter_eq_some_iff.1 hother
    have hself : target = use := by
      by_contra hne
      have hadapting : TypeGraph.adapting? declaration use = some target :=
        Option.filter_eq_some_iff.2
          ⟨htarget, decide_eq_true ⟨hne, (of_decide_eq_true hdiffers).2⟩⟩
      rw [hadapting] at hadapter
      cases hadapter
    exact .inr (by rw [hself]; rfl)

namespace Classifier

variable {classifier : Classifier} {name : String} {args : List TypeUse} {target : String}

/-- A use that nothing replaces and that is no container is classified by its name. -/
structure Bare (classifier : Classifier) (name : String) (args : List TypeUse) : Prop where
  replacements : classifier.replacements name (.declared name args) = []
  keyValue? : classifier.graph.keyValue? (.declared name args) = none
  component? : classifier.graph.component? (.declared name args) = none

lemma Bare.visit_eq (h : classifier.Bare name args) {stack : UseStack}
    (hpass : ¬ stack.blocks name (.declared name args)) (context : Context) :
    classifier.visit (.declared name args) context stack =
      context.wrap <$> classifier.named name :=
  visit_of_bare hpass h.replacements h.keyValue? h.component? context

lemma cutShort_ne_reference (classifier : Classifier) (use : TypeUse) (target : String) :
    classifier.cutShort use ≠ .reference target := by
  intro h
  rw [cutShort, SchemaType.wrapIf] at h
  split at h <;> cases h

/-- A reference is found without a layer, as what the registry says about the name of a bare use. -/
theorem exists_bare_of_visit (type : TypeUse) (context : Context) (stack : UseStack) :
    ∀ target, classifier.visit type context stack = .ok (.reference target) →
      ¬ context.wraps ∧
        ∃ name args, classifier.Bare name args ∧ classifier.named name = .ok (.reference target) := by
  induction type, context, stack using classifier.visit_induction
    (Q := fun replacements stack => ∀ target,
      classifier.visitReplacements replacements stack = .ok (some (.reference target)) →
        ∃ name args, classifier.Bare name args ∧
          classifier.named name = .ok (.reference target)) with
  | primitive kind context stack =>
    intro target hvisit
    rw [visit_primitive, Context.primitive] at hvisit
    split at hvisit
    · cases hvisit
    · obtain ⟨-, hkind⟩ := Context.wrap_eq_reference_iff.1 (Except.ok.inj hvisit)
      cases kind <;> cases hkind
  | dimension inner context stack _ =>
    intro target hvisit
    rw [visit_array_array] at hvisit
    obtain ⟨items, -, hitems⟩ := map_eq_ok_iff.1 hvisit
    cases hitems
  | array component context stack hcomponent ih =>
    intro target hvisit
    rw [visit_array classifier hcomponent] at hvisit
    exact absurd rfl (ih target hvisit).1
  | varNone name context stack =>
    intro target hvisit
    rw [visit_var_none] at hvisit
    cases (Context.wrap_eq_reference_iff.1 (Except.ok.inj hvisit)).2
  | wildcardNone context stack =>
    intro target hvisit
    rw [visit_wildcard_none] at hvisit
    cases (Context.wrap_eq_reference_iff.1 (Except.ok.inj hvisit)).2
  | varSome name bound context stack ih =>
    intro target hvisit
    rw [visit_var_some] at hvisit
    obtain ⟨inner, hinner, hwrap⟩ := map_eq_ok_iff.1 hvisit
    obtain ⟨hplain, rfl⟩ := Context.wrap_eq_reference_iff.1 hwrap
    exact ⟨hplain, (ih target hinner).2⟩
  | wildcardSome bound context stack ih =>
    intro target hvisit
    rw [visit_wildcard_some] at hvisit
    obtain ⟨inner, hinner, hwrap⟩ := map_eq_ok_iff.1 hvisit
    obtain ⟨hplain, rfl⟩ := Context.wrap_eq_reference_iff.1 hwrap
    exact ⟨hplain, (ih target hinner).2⟩
  | cutShort name args context stack hblocks =>
    intro target hvisit
    rw [visit_of_blocks classifier hblocks] at hvisit
    exact absurd (Except.ok.inj hvisit) (classifier.cutShort_ne_reference _ target)
  | failed name args context stack error hpass hreplacements _ =>
    intro target hvisit
    rw [visit_failed hpass hreplacements] at hvisit
    cases hvisit
  | replaced name args context stack type hpass hreplacements ih =>
    intro target hvisit
    rw [visit_replaced hpass hreplacements] at hvisit
    obtain ⟨hplain, rfl⟩ := Context.wrap_eq_reference_iff.1 (Except.ok.inj hvisit)
    exact ⟨hplain, ih target hreplacements⟩
  | map name args context stack key value hpass hreplacements hentry _ _ _ =>
    intro target hvisit
    rw [visit_map hpass hreplacements hentry] at hvisit
    obtain ⟨keyType, -, hrest⟩ := bind_eq_ok_iff.1 hvisit
    obtain ⟨valueType, -, hmap⟩ := bind_eq_ok_iff.1 hrest
    cases (Context.wrap_eq_reference_iff.1 (Except.ok.inj hmap)).2
  | component name args context stack component hpass hreplacements hentry hcomponent _ ih =>
    intro target hvisit
    rw [visit_component hpass hreplacements hentry hcomponent] at hvisit
    exact absurd rfl (ih target hvisit).1
  | named name args context stack hpass hreplacements hentry hcomponent _ =>
    intro target hvisit
    rw [visit_named hpass hreplacements hentry hcomponent] at hvisit
    obtain ⟨found, hnamed, hwrap⟩ := map_eq_ok_iff.1 hvisit
    obtain ⟨hplain, rfl⟩ := Context.wrap_eq_reference_iff.1 hwrap
    have hbare := visitReplacements_eq_none_iff.1 hreplacements
    exact ⟨hplain, name, args, ⟨hbare, hentry, hcomponent⟩, hnamed⟩
  | nil stack target hnil =>
    rw [visitReplacements_nil] at hnil
    cases hnil
  | unstructured rest stack ih target hall =>
    rw [visitReplacements_unstructured] at hall
    obtain ⟨later, hrest, hlater⟩ := map_eq_ok_iff.1 hall
    cases later with
    | none => cases hlater
    | some stronger =>
      cases hlater
      exact ih target hrest
  | type use rest stack ihuse ihrest target hall =>
    rw [visitReplacements_type] at hall
    obtain ⟨weaker, huse, hstronger⟩ := bind_eq_ok_iff.1 hall
    obtain ⟨later, hrest, hlater⟩ := bind_eq_ok_iff.1 hstronger
    cases later with
    | none =>
      cases hlater
      exact (ihuse target huse).2
    | some stronger =>
      cases hlater
      exact ihrest target hrest

/-- A name by itself is a reference if that is known of it, or if it is registered. -/
lemma reference_of_named (h : classifier.named name = .ok (.reference target)) :
    classifier.registry.known? name = some (.reference target) ∨
      classifier.registry.known? name = none ∧ name ∈ classifier.registry.definitions ∧
        target = name := by
  have hregistered : classifier.registered name = .reference target := by
    rw [named] at h
    split at h
    · exact Except.ok.inj h
    · split at h
      · cases h
      · obtain ⟨table, -, htable⟩ := map_eq_ok_iff.1 h
        cases htable
      · exact Except.ok.inj h
  rw [registered] at hregistered
  cases hlookup : classifier.registry.lookup name with
  | none =>
    rw [hlookup] at hregistered
    cases hregistered
  | some type =>
    rw [hlookup, Option.getD_some] at hregistered
    subst hregistered
    rcases Registry.lookup_eq_some_iff.1 hlookup with hknown | ⟨hknown, hname, heq⟩
    · exact .inl hknown
    · exact .inr ⟨hknown, hname, SchemaType.reference.inj heq⟩

/-! ### Other uses of a bare name -/

/-- Another use of a name that has a bare use is replaced by nothing or by that use. -/
lemma Bare.replacements_other (h : classifier.Bare name args) (other : List TypeUse) :
    classifier.replacements name (.declared name other) = [] ∨
      classifier.replacements name (.declared name other) = [.type (.declared name args)] := by
  have hnone := h.replacements
  unfold Classifier.replacements at hnone ⊢
  split
  · next declaration hdecl =>
    rw [hdecl] at hnone
    exact Declaration.replacements_other hnone _
  · exact .inl rfl

/-- A name that has a bare use is classified as no other reference than that use. -/
theorem Bare.eq_of_classify {own : String} (h : classifier.Bare name args)
    (hnamed : classifier.named name = .ok (.reference own)) {other : List TypeUse}
    (hother : classifier.classify (.declared name other) = .ok (.reference target)) :
    target = own := by
  have hnotNamed (context : Context)
      (hwrap : context.wrap <$> classifier.named name = .ok (.reference target)) :
      target = own := by
    rw [hnamed] at hwrap
    obtain ⟨-, heq⟩ := Context.wrap_eq_reference_iff.1 (Except.ok.inj hwrap)
    exact (SchemaType.reference.inj heq).symm
  have hpass := UseStack.not_blocks_empty name (.declared name other)
  rcases h.replacements_other other with hnone | hself
  · rw [classify, visit_of_unreplaced hpass hnone, visitParts] at hother
    split at hother
    · obtain ⟨keyType, -, hrest⟩ := bind_eq_ok_iff.1 hother
      obtain ⟨valueType, -, hmap⟩ := bind_eq_ok_iff.1 hrest
      cases (Context.wrap_eq_reference_iff.1 (Except.ok.inj hmap)).2
    · split at hother
      · exact absurd rfl (exists_bare_of_visit _ _ _ target hother).1
      · exact hnotNamed .plain hother
  · have hreplaced : classifier.replacements name (.declared name other) =
        [] ++ [.type (.declared name args)] := hself
    rw [classify, visit_of_replaced hpass hreplaced (visitReplacements_nil _ _),
      Context.wrap_plain_map] at hother
    by_cases hblocks : (UseStack.enter ∅ (TypeUse.declared name other).text).blocks name
        (.declared name args)
    · rw [visit_of_blocks classifier hblocks] at hother
      exact absurd (Except.ok.inj hother) (classifier.cutShort_ne_reference _ target)
    · rw [h.visit_eq hblocks] at hother
      exact hnotNamed .plain hother

end Classifier

end SchemaTyping
