import Mathlib.Tactic.Common
import SchemaTyping.Classification.Visit

/-!
# Equations of the visit

One equation for each kind of use, and the induction that follows the recursion of
`Classifier.visit` with its cases named. A declared use that passes the guard is classified by its
replacements, or by its parts if nothing replaces it.
-/

namespace SchemaTyping

namespace Classifier

variable (classifier : Classifier)

/-- The schema type of an entered use that nothing replaces. -/
def visitParts (name : String) (args : List TypeUse) (context : Context) (stack : UseStack) :
    Except MetadataError SchemaType :=
  match classifier.graph.keyValue? (.declared name args) with
  | some (key, value) => do
    let key ← classifier.visit key .plain stack
    let value ← classifier.visit value .plain stack
    return context.wrap (.map key value)
  | none =>
    match classifier.graph.component? (.declared name args) with
    | some component => classifier.visit component .collection stack
    | none => context.wrap <$> classifier.named name

/-! ### Uses -/

lemma visit_primitive (kind : PrimitiveKind) (context : Context) (stack : UseStack) :
    classifier.visit (.primitive kind) context stack = .ok (context.primitive kind) := by
  rw [visit]

lemma visit_array_array (inner : TypeUse) (context : Context) (stack : UseStack) :
    classifier.visit (.array (.array inner)) context stack =
      .array <$> classifier.visit (.array inner) .plain stack := by
  rw [visit]

lemma visit_array {component : TypeUse} (h : ∀ inner, component ≠ .array inner)
    (context : Context) (stack : UseStack) :
    classifier.visit (.array component) context stack =
      classifier.visit component .array stack := by
  rw [visit]
  exact h

/-- An array has its own layer in the place of that of its context. -/
lemma visit_array_eq_plain (component : TypeUse) (context : Context) (stack : UseStack) :
    classifier.visit (.array component) context stack =
      classifier.visit (.array component) .plain stack := by
  cases component with
  | array inner => rw [visit_array_array, visit_array_array]
  | primitive | declared | var | wildcard => rw [visit_array, visit_array] <;> exact nofun

lemma visit_var_none (name : String) (context : Context) (stack : UseStack) :
    classifier.visit (.var name none) context stack = .ok (context.wrap .object) := by
  rw [visit]

lemma visit_wildcard_none (context : Context) (stack : UseStack) :
    classifier.visit (.wildcard none) context stack = .ok (context.wrap .object) := by
  rw [visit]

lemma visit_var_some (name : String) (bound : TypeUse) (context : Context) (stack : UseStack) :
    classifier.visit (.var name (some bound)) context stack =
      context.wrap <$> classifier.visit bound .plain stack := by
  rw [visit]

lemma visit_wildcard_some (bound : TypeUse) (context : Context) (stack : UseStack) :
    classifier.visit (.wildcard (some bound)) context stack =
      context.wrap <$> classifier.visit bound .plain stack := by
  rw [visit]

lemma visit_of_blocks {name : String} {args : List TypeUse} {stack : UseStack}
    (h : stack.blocks name (.declared name args)) (context : Context) :
    classifier.visit (.declared name args) context stack =
      .ok (classifier.cutShort (.declared name args)) := by
  rw [visit, dif_pos h]

/-- A use that passes the guard is its strongest replacement, and without one its parts. -/
lemma visit_of_not_blocks {name : String} {args : List TypeUse} {stack : UseStack}
    (h : ¬stack.blocks name (.declared name args)) (context : Context) :
    classifier.visit (.declared name args) context stack =
      match classifier.visitReplacements (classifier.replacements name (.declared name args))
        (stack.enter (TypeUse.declared name args).text) with
      | .error error => .error error
      | .ok (some type) => .ok (context.wrap type)
      | .ok none => classifier.visitParts name args context
          (stack.enter (TypeUse.declared name args).text) := by
  rw [visit, dif_neg h]
  simp only [visitParts]
  generalize classifier.visitReplacements _ _ = result
  rcases result with error | _ | type
  · rfl
  · dsimp only
    split
    · next key value hentry => simp only [hentry]
    · next hentry =>
      simp only [hentry]
      split
      · next component hcomponent => simp only [hcomponent]
      · next hcomponent => simp only [hcomponent]
  · rfl

/-! ### Replacements -/

lemma visitReplacements_nil (stack : UseStack) :
    classifier.visitReplacements [] stack = .ok none := by
  rw [visitReplacements]

lemma visitReplacements_unstructured (rest : List Replacement) (stack : UseStack) :
    classifier.visitReplacements (.unstructured :: rest) stack =
      (fun later => some (later.getD .object)) <$> classifier.visitReplacements rest stack := by
  rw [visitReplacements]
  rfl

lemma visitReplacements_type (use : TypeUse) (rest : List Replacement) (stack : UseStack) :
    classifier.visitReplacements (.type use :: rest) stack = (do
      let type ← classifier.visit use .plain stack
      let later ← classifier.visitReplacements rest stack
      return some (later.getD type)) := by
  rw [visitReplacements]

/-! ### Uses that pass the guard -/

section Passing

variable {classifier} {name : String} {args : List TypeUse} {stack : UseStack}

lemma visit_failed (hpass : ¬stack.blocks name (.declared name args)) {error : MetadataError}
    (hfailed : classifier.visitReplacements (classifier.replacements name (.declared name args))
      (stack.enter (TypeUse.declared name args).text) = .error error) (context : Context) :
    classifier.visit (.declared name args) context stack = .error error := by
  rw [visit_of_not_blocks classifier hpass, hfailed]

lemma visit_replaced (hpass : ¬stack.blocks name (.declared name args)) {type : SchemaType}
    (hreplaced : classifier.visitReplacements (classifier.replacements name (.declared name args))
      (stack.enter (TypeUse.declared name args).text) = .ok (some type)) (context : Context) :
    classifier.visit (.declared name args) context stack = .ok (context.wrap type) := by
  rw [visit_of_not_blocks classifier hpass, hreplaced]

variable (hpass : ¬stack.blocks name (.declared name args))
  (hnone : classifier.visitReplacements (classifier.replacements name (.declared name args))
    (stack.enter (TypeUse.declared name args).text) = .ok none)

include hpass hnone

lemma visit_map {key value : TypeUse}
    (hentry : classifier.graph.keyValue? (.declared name args) = some (key, value))
    (context : Context) :
    classifier.visit (.declared name args) context stack = (do
      let key ← classifier.visit key .plain (stack.enter (TypeUse.declared name args).text)
      let value ← classifier.visit value .plain (stack.enter (TypeUse.declared name args).text)
      return context.wrap (.map key value)) := by
  rw [visit_of_not_blocks classifier hpass, hnone]
  simp only [visitParts, hentry]

lemma visit_component (hentry : classifier.graph.keyValue? (.declared name args) = none)
    {component : TypeUse}
    (hcomponent : classifier.graph.component? (.declared name args) = some component)
    (context : Context) :
    classifier.visit (.declared name args) context stack =
      classifier.visit component .collection (stack.enter (TypeUse.declared name args).text) := by
  rw [visit_of_not_blocks classifier hpass, hnone]
  simp only [visitParts, hentry, hcomponent]

lemma visit_named (hentry : classifier.graph.keyValue? (.declared name args) = none)
    (hcomponent : classifier.graph.component? (.declared name args) = none) (context : Context) :
    classifier.visit (.declared name args) context stack =
      context.wrap <$> classifier.named name := by
  rw [visit_of_not_blocks classifier hpass, hnone]
  simp only [visitParts, hentry, hcomponent]

end Passing

/-! ### Induction -/

/-- Prove a property of all visits along their recursion; `Q` is proved of replacements with it. -/
@[elab_as_elim]
theorem visit_induction {motive : TypeUse → Context → UseStack → Prop}
    {Q : List Replacement → UseStack → Prop}
    (primitive : ∀ kind context stack, motive (.primitive kind) context stack)
    (dimension : ∀ inner context stack, motive (.array inner) .plain stack →
      motive (.array (.array inner)) context stack)
    (array : ∀ component context stack, (∀ inner, component ≠ .array inner) →
      motive component .array stack → motive (.array component) context stack)
    (varNone : ∀ name context stack, motive (.var name none) context stack)
    (wildcardNone : ∀ context stack, motive (.wildcard none) context stack)
    (varSome : ∀ name bound context stack, motive bound .plain stack →
      motive (.var name (some bound)) context stack)
    (wildcardSome : ∀ bound context stack, motive bound .plain stack →
      motive (.wildcard (some bound)) context stack)
    (cutShort : ∀ name args context stack, stack.blocks name (.declared name args) →
      motive (.declared name args) context stack)
    (failed : ∀ name args context stack error, ¬stack.blocks name (.declared name args) →
      classifier.visitReplacements (classifier.replacements name (.declared name args))
        (stack.enter (TypeUse.declared name args).text) = .error error →
      Q (classifier.replacements name (.declared name args))
        (stack.enter (TypeUse.declared name args).text) →
      motive (.declared name args) context stack)
    (replaced : ∀ name args context stack type, ¬stack.blocks name (.declared name args) →
      classifier.visitReplacements (classifier.replacements name (.declared name args))
        (stack.enter (TypeUse.declared name args).text) = .ok (some type) →
      Q (classifier.replacements name (.declared name args))
        (stack.enter (TypeUse.declared name args).text) →
      motive (.declared name args) context stack)
    (map : ∀ name args context stack key value, ¬stack.blocks name (.declared name args) →
      classifier.visitReplacements (classifier.replacements name (.declared name args))
        (stack.enter (TypeUse.declared name args).text) = .ok none →
      classifier.graph.keyValue? (.declared name args) = some (key, value) →
      Q (classifier.replacements name (.declared name args))
        (stack.enter (TypeUse.declared name args).text) →
      motive key .plain (stack.enter (TypeUse.declared name args).text) →
      motive value .plain (stack.enter (TypeUse.declared name args).text) →
      motive (.declared name args) context stack)
    (component : ∀ name args context stack component, ¬stack.blocks name (.declared name args) →
      classifier.visitReplacements (classifier.replacements name (.declared name args))
        (stack.enter (TypeUse.declared name args).text) = .ok none →
      classifier.graph.keyValue? (.declared name args) = none →
      classifier.graph.component? (.declared name args) = some component →
      Q (classifier.replacements name (.declared name args))
        (stack.enter (TypeUse.declared name args).text) →
      motive component .collection (stack.enter (TypeUse.declared name args).text) →
      motive (.declared name args) context stack)
    (named : ∀ name args context stack, ¬stack.blocks name (.declared name args) →
      classifier.visitReplacements (classifier.replacements name (.declared name args))
        (stack.enter (TypeUse.declared name args).text) = .ok none →
      classifier.graph.keyValue? (.declared name args) = none →
      classifier.graph.component? (.declared name args) = none →
      Q (classifier.replacements name (.declared name args))
        (stack.enter (TypeUse.declared name args).text) →
      motive (.declared name args) context stack)
    (nil : ∀ stack, Q [] stack)
    (unstructured : ∀ rest stack, Q rest stack → Q (.unstructured :: rest) stack)
    (type : ∀ use rest stack, motive use .plain stack → Q rest stack →
      Q (.type use :: rest) stack)
    (use : TypeUse) (context : Context) (stack : UseStack) : motive use context stack := by
  refine visit.induct classifier motive Q ?_ ?_ ?_ ?_ ?_ ?_ ?_ ?_ ?_ ?_ ?_ ?_ ?_ nil ?_ ?_
    use context stack
  · exact fun context stack kind => primitive kind context stack
  · exact fun context stack inner => dimension inner context stack
  · exact fun context stack component h =>
      array component context stack fun inner heq => h inner heq
  · exact fun context stack name => varNone name context stack
  · exact fun context stack => wildcardNone context stack
  · exact fun context stack name bound => varSome name bound context stack
  · exact fun context stack bound => wildcardSome bound context stack
  · exact fun context stack name args => cutShort name args context stack
  · exact fun context stack name args h error => failed name args context stack error h
  · exact fun context stack name args h type => replaced name args context stack type h
  · exact fun context stack name args h hreplacements key value =>
      map name args context stack key value h hreplacements
  · exact fun context stack name args h hreplacements hentry part =>
      component name args context stack part h hreplacements hentry
  · exact fun context stack name args h => named name args context stack h
  · exact fun stack rest => unstructured rest stack
  · exact fun stack use rest => type use rest stack

end Classifier

end SchemaTyping
