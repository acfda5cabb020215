import SchemaTyping.Proofs.Run.Steps
import SchemaTyping.Proofs.Visit.Equations

/-!
# The outcome of a run

A run that begins with a visit ends with the result of `Classifier.visit`, and leaves the stack as
it found it. So a run computes what the recursive definition says, and every run is finite.
-/

namespace SchemaTyping

open Run

namespace Run

/-- The state in which the replacements of an entered use have been visited. -/
def State.settled (entered : Entered) (found : Option SchemaType) (frames : List Frame)
    (stack : UseStack) : Except MetadataError (Option SchemaType) → State
  | .ok later => ⟨.settle entered (later <|> found) [], frames, stack⟩
  | .error error => ⟨.give (.error error), frames, stack⟩

end Run

namespace UseStack

variable {stack : UseStack} {name : String} {use : TypeUse}

lemma text_notMem_of_not_blocks (h : ¬stack.blocks name use) : use.text ∉ stack := by
  simp only [blocks, Bool.or_eq_true, decide_eq_true_eq, not_or] at h
  exact h.1

lemma usesOf_lt_of_not_blocks (h : ¬stack.blocks name use) : stack.usesOf name < maxNestedUses := by
  simp only [blocks, Bool.or_eq_true, decide_eq_true_eq, not_or] at h
  exact Nat.lt_of_not_le h.2

lemma not_blocks_empty (name : String) (use : TypeUse) : ¬ (∅ : UseStack).blocks name use := by
  simp [blocks, mem_iff, maxNestedUses]

lemma enterNew_of_notMem {text : String} (h : text ∉ stack) :
    stack.enterNew text = stack.enter text :=
  if_neg h

/-- A use that passes has no entry on the stack, so entering it adds one. -/
lemma enterNew_of_not_blocks (h : ¬stack.blocks name use) :
    stack.enterNew use.text = stack.enter use.text :=
  enterNew_of_notMem (text_notMem_of_not_blocks h)

end UseStack

namespace Classifier

variable (classifier : Classifier)

/-- A declared use that passes is entered and then settled. -/
lemma step_of_not_blocks {name : String} {args : List TypeUse} {stack : UseStack}
    (h : ¬stack.blocks name (.declared name args)) (context : Context) (frames : List Frame) :
    classifier.step UseStack.blocks ⟨.visit (.declared name args) context, frames, stack⟩ =
      some ⟨.settle ⟨name, args, context⟩ none (classifier.replacements name (.declared name args)),
        .leave ⟨name, args, context⟩ :: frames,
        stack.enter (TypeUse.declared name args).text⟩ := by
  rw [step, stepVisit, if_neg h, UseStack.enterNew_of_not_blocks h]

/-- A run visits replacements as `Classifier.visitReplacements` does. -/
def Settles (rest : List Replacement) (stack : UseStack) : Prop :=
  ∀ entered found frames,
    classifier.Reaches UseStack.blocks ⟨.settle entered found rest, frames, stack⟩
      (.settled entered found frames stack (classifier.visitReplacements rest stack))

variable {classifier} in
lemma Settles.reaches {name : String} {args : List TypeUse} {stack : UseStack}
    (hsettles : classifier.Settles (classifier.replacements name (.declared name args))
      (stack.enter (TypeUse.declared name args).text))
    (h : ¬stack.blocks name (.declared name args)) (context : Context) (frames : List Frame) :
    classifier.Reaches UseStack.blocks ⟨.visit (.declared name args) context, frames, stack⟩
      (.settled ⟨name, args, context⟩ none (.leave ⟨name, args, context⟩ :: frames)
        (stack.enter (TypeUse.declared name args).text)
        (classifier.visitReplacements (classifier.replacements name (.declared name args))
          (stack.enter (TypeUse.declared name args).text))) :=
  .head (classifier.step_of_not_blocks h context frames) (hsettles _ _ _)

/-- A run visits a type as `Classifier.visit` does, whatever frames wait for the result. -/
theorem reaches_visit (type : TypeUse) (context : Context) (stack : UseStack)
    (frames : List Frame) :
    classifier.Reaches UseStack.blocks ⟨.visit type context, frames, stack⟩
      ⟨.give (classifier.visit type context stack), frames, stack⟩ := by
  induction type, context, stack using classifier.visit_induction (Q := classifier.Settles)
    generalizing frames with
  | primitive kind context stack =>
    rw [visit_primitive]
    exact .single rfl
  | dimension inner context stack ih =>
    rw [visit_array_array]
    exact .head rfl ((ih _).tail rfl)
  | array component context stack hcomponent ih =>
    rw [visit_array classifier hcomponent]
    refine .head ?_ (ih frames)
    cases component <;> simp_all [step, stepVisit]
  | varNone name context stack =>
    rw [visit_var_none]
    exact .single rfl
  | wildcardNone context stack =>
    rw [visit_wildcard_none]
    exact .single rfl
  | varSome name bound context stack ih =>
    rw [visit_var_some]
    exact .head rfl ((ih _).tail rfl)
  | wildcardSome bound context stack ih =>
    rw [visit_wildcard_some]
    exact .head rfl ((ih _).tail rfl)
  | cutShort name args context stack h =>
    rw [visit_of_blocks classifier h]
    refine .single ?_
    rw [step, stepVisit, if_pos h]
  | failed name args context stack error h hreplacements ih =>
    have hsettled := ih.reaches h context frames
    rw [hreplacements] at hsettled
    rw [visit_failed h hreplacements]
    exact hsettled.tail rfl
  | replaced name args context stack type h hreplacements ih =>
    have hsettled := ih.reaches h context frames
    rw [hreplacements] at hsettled
    rw [visit_replaced h hreplacements]
    exact (hsettled.tail rfl).tail rfl
  | map name args context stack key value h hreplacements hentry ih ihkey ihvalue =>
    have hsettled := ih.reaches h context frames
    rw [hreplacements] at hsettled
    rw [visit_map h hreplacements hentry]
    have hparts := stepSettle_map hentry context (.leave ⟨name, args, context⟩ :: frames)
      (stack.enter (TypeUse.declared name args).text)
    have hkey := (hsettled.tail (congrArg some hparts)).trans (ihkey _)
    cases hk : classifier.visit key .plain (stack.enter (TypeUse.declared name args).text) with
    | error error =>
      rw [hk] at hkey
      exact (hkey.tail rfl).tail rfl
    | ok keyType =>
      rw [hk] at hkey
      have hvalue := (hkey.tail rfl).trans (ihvalue _)
      exact (hvalue.tail rfl).tail rfl
  | component name args context stack component h hreplacements hentry hcomponent ih ihcomponent =>
    have hsettled := ih.reaches h context frames
    rw [hreplacements] at hsettled
    rw [visit_component h hreplacements hentry hcomponent]
    have hparts := stepSettle_component hentry hcomponent context
      (.leave ⟨name, args, context⟩ :: frames) (stack.enter (TypeUse.declared name args).text)
    exact ((hsettled.tail (congrArg some hparts)).trans (ihcomponent _)).tail rfl
  | named name args context stack h hreplacements hentry hcomponent ih =>
    have hsettled := ih.reaches h context frames
    rw [hreplacements] at hsettled
    rw [visit_named h hreplacements hentry hcomponent]
    have hparts := stepSettle_named hentry hcomponent context
      (.leave ⟨name, args, context⟩ :: frames) (stack.enter (TypeUse.declared name args).text)
    exact (hsettled.tail (congrArg some hparts)).tail rfl
  | nil stack =>
    intro entered found frames
    rw [visitReplacements_nil]
    exact .refl
  | unstructured rest stack ih =>
    intro entered found frames
    have hrest := ih entered (some .object) frames
    rw [visitReplacements_unstructured]
    refine .head rfl ?_
    cases hr : classifier.visitReplacements rest stack with
    | error error => rwa [hr] at hrest
    | ok later =>
      rw [hr] at hrest
      cases later <;> exact hrest
  | type use rest stack ih ihrest =>
    intro entered found frames
    have huse := ih (.settle entered rest :: frames)
    rw [visitReplacements_type]
    refine .head rfl (huse.trans ?_)
    cases hu : classifier.visit use .plain stack with
    | error error => exact .single rfl
    | ok type =>
      have hrest := ihrest entered (some type) frames
      refine .head rfl ?_
      cases hr : classifier.visitReplacements rest stack with
      | error error => rwa [hr] at hrest
      | ok later =>
        rw [hr] at hrest
        cases later <;> exact hrest

/-- Every run ends, with the result of the visit and the stack with which it began. -/
theorem reaches_final (type : TypeUse) (context : Context) (stack : UseStack) :
    classifier.Reaches UseStack.blocks (.initial type context stack)
      (.final (classifier.visit type context stack) stack) :=
  classifier.reaches_visit type context stack []

variable {classifier}

/-- What a run ends with is the result of the visit. -/
theorem visit_eq_of_reaches {type : TypeUse} {context : Context} {stack stack' : UseStack}
    {result : Except MetadataError SchemaType}
    (h : classifier.Reaches UseStack.blocks (.initial type context stack)
      (.final result stack')) : classifier.visit type context stack = result :=
  ((classifier.reaches_final type context stack).final_unique h).1

end Classifier

end SchemaTyping
