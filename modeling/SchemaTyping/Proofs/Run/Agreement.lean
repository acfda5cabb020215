import SchemaTyping.Proofs.Graph.Search
import SchemaTyping.Proofs.Run.Outcome

/-!
# Classifiers that agree

A run looks at the graph and the registry only for the uses that it meets. So two classifiers that
treat these alike come to the same result, whatever else they say.
-/

namespace SchemaTyping

open Run

/-- The use that a task is about. -/
def Run.Task.use? : Task → Option TypeUse
  | .visit type _ => some type
  | .settle entered _ _ => some entered.use
  | .give _ => none

namespace Classifier

/-- The classification of a type meets a use. -/
def Meets (classifier : Classifier) (type use : TypeUse) : Prop :=
  ∃ state, classifier.Reaches UseStack.blocks (.initial type .plain ∅) state ∧
    state.task.use? = some use

/-- Two classifiers treat the uses of a declared type alike. -/
structure AgreesOn (classifier other : Classifier) (name : String) (args : List TypeUse) :
    Prop where
  replacements : classifier.replacements name (.declared name args) =
    other.replacements name (.declared name args)
  cutShort : classifier.cutShort (.declared name args) = other.cutShort (.declared name args)
  keyValue? : classifier.graph.keyValue? (.declared name args) =
    other.graph.keyValue? (.declared name args)
  component? : classifier.graph.component? (.declared name args) =
    other.graph.component? (.declared name args)
  named : classifier.named name = other.named name

variable {classifier other : Classifier} {guard : Guard}

/-- A replacement of the same kind and with the same constants leaves all names their types. -/
lemma named_eq_of_redeclared {name : String} {declaration replacement : Declaration}
    (h : classifier.graph.Redeclared other.graph name declaration replacement)
    (hregistry : classifier.registry = other.registry)
    (hpackages : classifier.graph.packages = other.graph.packages)
    (hname : declaration.name = replacement.name) (hkind : declaration.kind = replacement.kind)
    (hinfo : declaration.qnameInfo = replacement.qnameInfo)
    (hconstants : declaration.constants = replacement.constants) (n : String) :
    classifier.named n = other.named n := by
  have hregistered : classifier.registered = other.registered := by
    unfold registered
    rw [hregistry]
  have hpackage : classifier.graph.package? = other.graph.package? := by
    unfold TypeGraph.package?
    rw [hpackages]
  unfold named
  rw [h.redeclared, hregistered, hpackage]
  by_cases heq : name = n
  · rw [if_pos heq, ← heq, h.declared]
    have htable (info : QNameInfo) (package : Option Package) :
        declaration.qnameTable info package = replacement.qnameTable info package :=
      Declaration.qnameTable_congr hname hconstants info rfl
    simp only [htable, hkind, hinfo, Declaration.package, hname]
  · rw [if_neg heq]

lemma step_eq_of_agreesOn {state : State}
    (h : ∀ name args, state.task.use? = some (.declared name args) →
      classifier.AgreesOn other name args) :
    classifier.step guard state = other.step guard state := by
  obtain ⟨task, frames, stack⟩ := state
  cases task with
  | visit type context =>
    cases type with
    | declared name args =>
      have hagree := h name args rfl
      rw [step, step, stepVisit, stepVisit, hagree.cutShort, hagree.replacements]
    | array component => cases component <;> rfl
    | var name bound => cases bound <;> rfl
    | wildcard bound => cases bound <;> rfl
    | primitive kind => rfl
  | settle entered found rest =>
    have hagree := h entered.name entered.args rfl
    cases rest with
    | cons replacement rest => cases replacement <;> rfl
    | nil =>
      cases found with
      | some type => rfl
      | none =>
        rw [step, step, stepSettle, stepSettle, Entered.use, hagree.keyValue?, hagree.component?,
          hagree.named]
  | give result => cases frames <;> rfl

/-- Classifiers that treat all uses alike which one of them meets come to the same result. -/
theorem classify_eq_of_agreesOn {type : TypeUse}
    (h : ∀ name args, classifier.Meets type (.declared name args) →
      classifier.AgreesOn other name args) :
    other.classify type = classifier.classify type := by
  apply visit_eq_of_reaches
  refine (reaches_iff_of_step_eq fun state hstate => step_eq_of_agreesOn ?_).1
    (classifier.reaches_final type .plain ∅)
  exact fun name args htask => h name args ⟨state, hstate, htask⟩

end Classifier

end SchemaTyping
