import Mathlib.Logic.Relation
import SchemaTyping.Classification.Visit

/-!
# Runs of the classification

A run takes a classification step by step. Its state holds what is to be done next, the frames
that wait for results, and the stack of open uses, which changes in place: a declared use is
entered when its classification begins and released when a result or an error leaves it.

The test that cuts a use short is a parameter, so that the same steps also make up the runs that
never cut a use short.
-/

namespace SchemaTyping

/-- A test whether a use of a name is cut short while the uses on a stack are open. -/
abbrev Guard := UseStack → String → TypeUse → Bool

/-- The guard that lets every use pass. -/
def Guard.never : Guard := fun _ _ _ => false

namespace Run

/-- A declared use that has been entered, with the context in which it was met. -/
structure Entered where
  name : String
  args : List TypeUse
  context : Context

/-- The type use that was entered. -/
def Entered.use (entered : Entered) : TypeUse :=
  .declared entered.name entered.args

/-- What a run does next. -/
inductive Task where
  /-- Visit a use in a context. -/
  | visit (type : TypeUse) (context : Context)
  /-- Settle an entered use by the replacements that are left, after those that gave `found`. -/
  | settle (entered : Entered) (found : Option SchemaType) (rest : List Replacement)
  /-- Hand a result to the innermost frame. -/
  | give (result : Except MetadataError SchemaType)

/-- What waits for a result. -/
inductive Frame where
  /-- One array layer for one dimension. -/
  | dimension
  /-- The layer of a context around a bound. -/
  | layer (context : Context)
  /-- An entered use that is released when its result arrives. -/
  | leave (entered : Entered)
  /-- An entered use one of whose replacements is being visited. -/
  | settle (entered : Entered) (rest : List Replacement)
  /-- A map whose key is being visited. -/
  | mapKey (context : Context) (value : TypeUse)
  /-- A map whose value is being visited. -/
  | mapValue (context : Context) (key : SchemaType)

/-- The state of a run; the innermost frame is the first one. -/
structure State where
  task : Task
  frames : List Frame
  stack : UseStack

/-- The state in which the classification of a type begins. -/
def State.initial (type : TypeUse) (context : Context) (stack : UseStack) : State :=
  ⟨.visit type context, [], stack⟩

/-- The state in which a classification has ended. -/
def State.final (result : Except MetadataError SchemaType) (stack : UseStack) : State :=
  ⟨.give result, [], stack⟩

/-- The state after a frame has received its result. -/
def Frame.resume (frames : List Frame) (stack : UseStack) :
    Frame → Except MetadataError SchemaType → State
  | .dimension, result => ⟨.give (.array <$> result), frames, stack⟩
  | .layer context, result => ⟨.give (context.wrap <$> result), frames, stack⟩
  | .leave _, result => ⟨.give result, frames, stack.release⟩
  | .settle entered rest, .ok type => ⟨.settle entered (some type) rest, frames, stack⟩
  | .settle _ _, .error error => ⟨.give (.error error), frames, stack⟩
  | .mapKey context value, .ok key =>
    ⟨.visit value .plain, .mapValue context key :: frames, stack⟩
  | .mapKey _ _, .error error => ⟨.give (.error error), frames, stack⟩
  | .mapValue context key, result =>
    ⟨.give ((fun value => context.wrap (.map key value)) <$> result), frames, stack⟩

end Run

open Run

namespace Classifier

/-- The state after a use has been looked at. A declared use that is not cut short is entered. -/
def stepVisit (classifier : Classifier) (guard : Guard) (context : Context) (frames : List Frame)
    (stack : UseStack) : TypeUse → State
  | .primitive kind => ⟨.give (.ok (context.primitive kind)), frames, stack⟩
  | .array (.array inner) => ⟨.visit (.array inner) .plain, .dimension :: frames, stack⟩
  | .array component => ⟨.visit component .array, frames, stack⟩
  | .var _ none | .wildcard none => ⟨.give (.ok (context.wrap .object)), frames, stack⟩
  | .var _ (some bound) | .wildcard (some bound) =>
    ⟨.visit bound .plain, .layer context :: frames, stack⟩
  | .declared name args =>
    if guard stack name (.declared name args) then
      ⟨.give (.ok (classifier.cutShort (.declared name args))), frames, stack⟩
    else
      ⟨.settle ⟨name, args, context⟩ none (classifier.replacements name (.declared name args)),
        .leave ⟨name, args, context⟩ :: frames,
        stack.enterNew (TypeUse.declared name args).text⟩

/-- The state after one more replacement of an entered use, or after the last one. -/
def stepSettle (classifier : Classifier) (entered : Entered) (frames : List Frame)
    (stack : UseStack) : Option SchemaType → List Replacement → State
  | _, .unstructured :: rest => ⟨.settle entered (some .object) rest, frames, stack⟩
  | _, .type use :: rest => ⟨.visit use .plain, .settle entered rest :: frames, stack⟩
  | some type, [] => ⟨.give (.ok (entered.context.wrap type)), frames, stack⟩
  | none, [] =>
    match classifier.graph.keyValue? entered.use with
    | some (key, value) => ⟨.visit key .plain, .mapKey entered.context value :: frames, stack⟩
    | none =>
      match classifier.graph.component? entered.use with
      | some component => ⟨.visit component .collection, frames, stack⟩
      | none => ⟨.give (entered.context.wrap <$> classifier.named entered.name), frames, stack⟩

/-- One step of a run. Only a result without a frame to receive it has none. -/
def step (classifier : Classifier) (guard : Guard) : State → Option State
  | ⟨.visit type context, frames, stack⟩ =>
    some (classifier.stepVisit guard context frames stack type)
  | ⟨.settle entered found rest, frames, stack⟩ =>
    some (classifier.stepSettle entered frames stack found rest)
  | ⟨.give result, frame :: frames, stack⟩ => some (frame.resume frames stack result)
  | ⟨.give _, [], _⟩ => none

/-- A run leads from one state to another. -/
abbrev Reaches (classifier : Classifier) (guard : Guard) : State → State → Prop :=
  Relation.ReflTransGen fun state next => classifier.step guard state = some next

/-- The state after a number of steps, or the last one if the run is shorter. -/
def advance (classifier : Classifier) (guard : Guard) : Nat → State → State
  | 0, state => state
  | steps + 1, state =>
    match classifier.step guard state with
    | some next => classifier.advance guard steps next
    | none => state

variable {classifier other : Classifier} {guard weaker : Guard}

/-- What a step does, by the task of the state. -/
inductive StepRule (classifier : Classifier) (guard : Guard) : State → State → Prop where
  | visit (type : TypeUse) (context : Context) (frames : List Frame) (stack : UseStack) :
    StepRule classifier guard ⟨.visit type context, frames, stack⟩
      (classifier.stepVisit guard context frames stack type)
  | settle (entered : Entered) (found : Option SchemaType) (rest : List Replacement)
    (frames : List Frame) (stack : UseStack) :
    StepRule classifier guard ⟨.settle entered found rest, frames, stack⟩
      (classifier.stepSettle entered frames stack found rest)
  | give (result : Except MetadataError SchemaType) (frame : Frame) (frames : List Frame)
    (stack : UseStack) :
    StepRule classifier guard ⟨.give result, frame :: frames, stack⟩
      (frame.resume frames stack result)

lemma stepRule_of_step {state next : State} (h : classifier.step guard state = some next) :
    classifier.StepRule guard state next := by
  obtain ⟨task, frames, stack⟩ := state
  cases task with
  | visit type context =>
    cases h
    exact .visit type context frames stack
  | settle entered found rest =>
    cases h
    exact .settle entered found rest frames stack
  | give result =>
    cases frames with
    | nil => cases h
    | cons frame frames =>
      cases h
      exact .give result frame frames stack

@[simp] lemma step_final (result : Except MetadataError SchemaType) (stack : UseStack) :
    classifier.step guard (.final result stack) = none := rfl

section Parts

variable {name : String} {args : List TypeUse}

/-- An entered map that nothing replaces goes on with its key. -/
lemma stepSettle_map {key value : TypeUse}
    (hentry : classifier.graph.keyValue? (.declared name args) = some (key, value))
    (context : Context) (frames : List Frame) (stack : UseStack) :
    classifier.stepSettle ⟨name, args, context⟩ frames stack none [] =
      ⟨.visit key .plain, .mapKey context value :: frames, stack⟩ := by
  rw [stepSettle, Entered.use, hentry]

/-- An entered collection or stream that nothing replaces goes on with its component. -/
lemma stepSettle_component {component : TypeUse}
    (hentry : classifier.graph.keyValue? (.declared name args) = none)
    (hcomponent : classifier.graph.component? (.declared name args) = some component)
    (context : Context) (frames : List Frame) (stack : UseStack) :
    classifier.stepSettle ⟨name, args, context⟩ frames stack none [] =
      ⟨.visit component .collection, frames, stack⟩ := by
  rw [stepSettle, Entered.use, hentry, hcomponent]

/-- An entered use that nothing replaces and that is no container gives what is known about its
name. -/
lemma stepSettle_named (hentry : classifier.graph.keyValue? (.declared name args) = none)
    (hcomponent : classifier.graph.component? (.declared name args) = none)
    (context : Context) (frames : List Frame) (stack : UseStack) :
    classifier.stepSettle ⟨name, args, context⟩ frames stack none [] =
      ⟨.give (context.wrap <$> classifier.named name), frames, stack⟩ := by
  rw [stepSettle, Entered.use, hentry, hcomponent]

end Parts

/-- Steps are a function, so of two states that a run passes, one leads to the other. -/
lemma Reaches.total {state first second : State} (h₁ : classifier.Reaches guard state first)
    (h₂ : classifier.Reaches guard state second) :
    classifier.Reaches guard first second ∨ classifier.Reaches guard second first :=
  Relation.ReflTransGen.total_of_right_unique
    (fun _ _ _ ha hb => Option.some.inj (ha.symm.trans hb)) h₁ h₂

lemma Reaches.eq_of_step_eq_none {state last : State} (h : classifier.Reaches guard last state)
    (hlast : classifier.step guard last = none) : state = last := by
  rcases Relation.ReflTransGen.cases_head h with rfl | ⟨next, hnext, -⟩
  · rfl
  · simp [hlast] at hnext

/-- A run has no more than one end. -/
lemma Reaches.final_unique {state : State} {result result' : Except MetadataError SchemaType}
    {stack stack' : UseStack} (h₁ : classifier.Reaches guard state (.final result stack))
    (h₂ : classifier.Reaches guard state (.final result' stack')) :
    result = result' ∧ stack = stack' := by
  have heq : State.final result stack = .final result' stack' := by
    rcases h₁.total h₂ with h | h
    · exact (h.eq_of_step_eq_none rfl).symm
    · exact h.eq_of_step_eq_none rfl
  simpa [State.final] using heq

/-- No run goes on for ever if one ends. -/
lemma Reaches.acc {state last : State} (h : classifier.Reaches guard state last)
    (hlast : classifier.step guard last = none) :
    Acc (fun next state => classifier.step guard state = some next) state := by
  induction h using Relation.ReflTransGen.head_induction_on with
  | refl => exact .intro _ fun next hnext => by simp [hlast] at hnext
  | head hstep _ ih =>
    exact .intro _ fun next hnext => Option.some.inj (hstep.symm.trans hnext) ▸ ih

lemma Reaches.acc_of_reaches {state reached : State} {result : Except MetadataError SchemaType}
    {stack : UseStack} (hend : classifier.Reaches guard state (.final result stack))
    (h : classifier.Reaches guard state reached) :
    Acc (fun next state => classifier.step guard state = some next) reached := by
  rcases h.total hend with hrest | hrest
  · exact hrest.acc rfl
  · rw [hrest.eq_of_step_eq_none rfl]
    exact Reaches.acc .refl rfl

lemma reaches_advance (steps : Nat) (state : State) :
    classifier.Reaches guard state (classifier.advance guard steps state) := by
  induction steps generalizing state with
  | zero => exact .refl
  | succ steps ih =>
    rw [advance]
    split
    · next next hnext => exact .head hnext (ih next)
    · exact .refl

lemma Reaches.of_advance {steps : Nat} {state reached : State}
    (h : classifier.advance guard steps state = reached) :
    classifier.Reaches guard state reached :=
  h ▸ reaches_advance steps state

/-- Some steps, and then some more. -/
lemma advance_add (first second : Nat) (state : State) :
    classifier.advance guard (first + second) state =
      classifier.advance guard second (classifier.advance guard first state) := by
  induction first generalizing state with
  | zero => rw [Nat.zero_add, advance]
  | succ first ih =>
    rw [Nat.succ_add, advance, advance]
    cases hstep : classifier.step guard state with
    | none => cases second <;> simp [advance, hstep]
    | some next => exact ih next

/-- A run that has ended after some steps has passed no states but those after fewer steps. -/
lemma Reaches.exists_advance {state reached : State} (h : classifier.Reaches guard state reached)
    {steps : Nat} (hlast : classifier.step guard (classifier.advance guard steps state) = none) :
    ∃ n ≤ steps, reached = classifier.advance guard n state := by
  induction steps generalizing state with
  | zero => exact ⟨0, Nat.le_refl 0, h.eq_of_step_eq_none hlast⟩
  | succ steps ih =>
    rcases Relation.ReflTransGen.cases_head h with rfl | ⟨next, hnext, hrest⟩
    · exact ⟨0, Nat.zero_le _, rfl⟩
    · simp only [advance, hnext] at hlast
      obtain ⟨n, hn, rfl⟩ := ih hrest hlast
      exact ⟨n + 1, Nat.succ_le_succ hn, by simp only [advance, hnext]⟩

/-- Runs that take the same steps pass the same states. -/
lemma reaches_iff_of_step_eq {first state : State}
    (hsteps : ∀ state, classifier.Reaches guard first state →
      classifier.step guard state = other.step weaker state) :
    classifier.Reaches guard first state ↔ other.Reaches weaker first state := by
  constructor
  · intro h
    induction h with
    | refl => exact .refl
    | tail hreach hstep ih => exact ih.tail ((hsteps _ hreach).symm.trans hstep)
  · intro h
    induction h with
    | refl => exact .refl
    | tail _ hstep ih => exact ih.tail ((hsteps _ ih).trans hstep)

end Classifier

end SchemaTyping
