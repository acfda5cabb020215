import SchemaTyping.Proofs.Run.Termination

/-!
# Entries below a visit

A visit that begins while other uses are open goes on as it would on its own, as long as it meets
no use that is cut short on account of them.
-/

namespace SchemaTyping

open Run

/-- A stack with further entries below its own. -/
def UseStack.onBase (stack : UseStack) (base : List String) : UseStack :=
  ⟨stack.entries ++ base⟩

namespace UseStack

variable {stack : UseStack} {base : List String} {name : String} {use : TypeUse}

lemma blocks_onBase_of_blocks (h : stack.blocks name use) :
    (stack.onBase base).blocks name use := by
  rw [blocks, Bool.or_eq_true, decide_eq_true_eq, decide_eq_true_eq] at h ⊢
  refine h.imp (List.mem_append_left base) fun hfull => ?_
  rw [usesOf, onBase, List.countP_append]
  exact Nat.le_add_right_of_le hfull

lemma onBase_release (h : stack.entries ≠ []) :
    stack.release.onBase base = (stack.onBase base).release := by
  rw [release, release, onBase, onBase, List.tail_append_of_ne_nil h]

/-- Entries that are no uses of a name do not cut its uses short. -/
lemma blocks_of_blocks_onBase {args : List TypeUse} (hbase : ∀ text ∈ base, ¬ isUseOf name text)
    (h : (stack.onBase base).blocks name (.declared name args)) :
    stack.blocks name (.declared name args) := by
  have hcount : base.countP (isUseOf name) = 0 := List.countP_eq_zero.2 hbase
  rw [blocks, Bool.or_eq_true, decide_eq_true_eq, decide_eq_true_eq] at h ⊢
  rw [usesOf, onBase, List.countP_append, hcount, Nat.add_zero] at h
  refine h.imp_left fun hmem => ?_
  rcases List.mem_append.1 hmem with hown | htext
  · exact hown
  · exact absurd (isUseOf_text name args) (hbase _ htext)

end UseStack

/-- A state with further entries below its stack. -/
def Run.State.onBase (state : State) (base : List String) : State :=
  { state with stack := state.stack.onBase base }

namespace Classifier

variable {classifier : Classifier} {state next : State} {base : List String} {type : TypeUse}

/-- Visiting a type in a context, with no use open, meets a declared use. -/
def MeetsDeclared (classifier : Classifier) (type : TypeUse) (context : Context) (name : String)
    (args : List TypeUse) : Prop :=
  ∃ inner frames stack, classifier.Reaches UseStack.blocks (.initial type context ∅)
    ⟨.visit (.declared name args) inner, frames, stack⟩

lemma MeetsDeclared.mem_scope {context : Context} {name : String} {args : List TypeUse}
    (h : classifier.MeetsDeclared type context name args) : name ∈ classifier.scope type := by
  obtain ⟨inner, frames, stack, hreach⟩ := h
  exact (Bounded.of_reaches hreach).within.task (.declared name args) List.mem_cons_self
    List.mem_cons_self

/-- No use that the classification of a type meets is cut short only because of entries below. -/
def Unhindered (classifier : Classifier) (type : TypeUse) (base : List String) : Prop :=
  ∀ name args context frames stack,
    classifier.Reaches UseStack.blocks (.initial type .plain ∅)
        ⟨.visit (.declared name args) context, frames, stack⟩ →
      (stack.onBase base).blocks name (.declared name args) →
        stack.blocks name (.declared name args)

/-- Entries hinder nothing if they are no uses of names to which the classification may lead. -/
lemma unhindered_of_names
    (h : ∀ name ∈ classifier.scope type, ∀ text ∈ base, ¬ isUseOf name text) :
    classifier.Unhindered type base := by
  intro name args context frames stack hreach
  have hmeets : classifier.MeetsDeclared type .plain name args := ⟨context, frames, stack, hreach⟩
  exact UseStack.blocks_of_blocks_onBase (h name hmeets.mem_scope)

lemma stepVisit_onBase {context : Context} {frames : List Frame} {stack : UseStack}
    (hbelow : ∀ name args, type = .declared name args →
      (stack.onBase base).blocks name (.declared name args) →
        stack.blocks name (.declared name args)) :
    (classifier.stepVisit UseStack.blocks context frames stack type).onBase base =
      classifier.stepVisit UseStack.blocks context frames (stack.onBase base) type := by
  cases type with
  | primitive kind => rfl
  | array component => cases component <;> rfl
  | var name bound => cases bound <;> rfl
  | wildcard bound => cases bound <;> rfl
  | declared name args =>
    rw [stepVisit, stepVisit]
    by_cases hblocks : stack.blocks name (.declared name args)
    · rw [if_pos hblocks, if_pos (UseStack.blocks_onBase_of_blocks hblocks)]
      rfl
    · have hbase : ¬ (stack.onBase base).blocks name (.declared name args) := fun h =>
        hblocks (hbelow name args rfl h)
      rw [if_neg hblocks, if_neg hbase, UseStack.enterNew_of_not_blocks hblocks,
        UseStack.enterNew_of_not_blocks hbase]
      rfl

lemma stepSettle_onBase (entered : Entered) (frames : List Frame) (stack : UseStack)
    (found : Option SchemaType) (rest : List Replacement) :
    (classifier.stepSettle entered frames stack found rest).onBase base =
      classifier.stepSettle entered frames (stack.onBase base) found rest := by
  match found, rest with
  | _, .unstructured :: rest => rfl
  | _, .type use :: rest => rfl
  | some type, [] => rfl
  | none, [] =>
    rw [stepSettle, stepSettle]
    split
    · rfl
    · split <;> rfl

lemma resume_onBase {frame : Frame} {frames : List Frame} {stack : UseStack}
    (result : Except MetadataError SchemaType)
    (hstack : frame.opened?.isSome → stack.entries ≠ []) :
    (frame.resume frames stack result).onBase base =
      frame.resume frames (stack.onBase base) result := by
  cases frame with
  | leave entered =>
    rw [Frame.resume, Frame.resume, State.onBase, UseStack.onBase_release (hstack rfl)]
  | settle entered rest => cases result <;> rfl
  | mapKey context value => cases result <;> rfl
  | dimension | layer | mapValue => rfl

/-- A run takes the same steps over the entries, as long as none of them hinders it. -/
lemma step_onBase {names : List String} (hbounded : Bounded names state)
    (hbelow : ∀ name args context, state.task = .visit (.declared name args) context →
      (state.stack.onBase base).blocks name (.declared name args) →
        state.stack.blocks name (.declared name args))
    (hstep : classifier.step UseStack.blocks state = some next) :
    classifier.step UseStack.blocks (state.onBase base) = some (next.onBase base) := by
  cases stepRule_of_step hstep with
  | visit type context frames stack =>
    refine congrArg some (stepVisit_onBase fun name args htype => ?_).symm
    exact hbelow name args context (by rw [htype])
  | settle entered found rest frames stack =>
    exact congrArg some (stepSettle_onBase entered frames stack found rest).symm
  | give result frame frames stack =>
    refine congrArg some (resume_onBase result fun hopened => ?_).symm
    obtain ⟨entered, hentered⟩ := Option.isSome_iff_exists.1 hopened
    have hentries : stack.entries = _ := hbounded.entries
    rw [hentries, State.opened, List.filterMap_cons_some hentered]
    exact List.cons_ne_nil _ _

lemma reaches_onBase {context : Context}
    (h : ∀ name args inner frames stack,
      classifier.Reaches UseStack.blocks (.initial type context ∅)
          ⟨.visit (.declared name args) inner, frames, stack⟩ →
        (stack.onBase base).blocks name (.declared name args) →
          stack.blocks name (.declared name args))
    (hreach : classifier.Reaches UseStack.blocks (.initial type context ∅) state) :
    classifier.Reaches UseStack.blocks (.initial type context ⟨base⟩) (state.onBase base) := by
  induction hreach with
  | refl => exact .refl
  | @tail state next hreach hstep ih =>
    refine ih.tail (step_onBase (Bounded.of_reaches hreach) ?_ hstep)
    intro name args inner htask
    obtain ⟨task, frames, stack⟩ := state
    cases htask
    exact h name args inner frames stack hreach

/-- What no entry below hinders is classified as on its own. -/
theorem visit_onBase (h : classifier.Unhindered type base) :
    classifier.visit type .plain ⟨base⟩ = classifier.classify type :=
  visit_eq_of_reaches (reaches_onBase h (classifier.reaches_final type .plain ∅))

/-! ### Unrelated entries -/

/-- Open uses have no part in a visit, in whatever context, if none of them has the text or the name
of a declared use that the visit meets on its own. -/
theorem visit_eq_of_unrelated (classifier : Classifier) (type : TypeUse) (context : Context)
    (stack : UseStack)
    (h : ∀ name args, classifier.MeetsDeclared type context name args →
      (TypeUse.declared name args).text ∉ stack ∧ stack.usesOf name = 0) :
    classifier.visit type context stack = classifier.visit type context ∅ := by
  have hreach : classifier.Reaches UseStack.blocks (.initial type context stack)
      (.final (classifier.visit type context ∅) stack) := by
    refine reaches_onBase ?_ (classifier.reaches_final type context ∅)
    intro name args inner frames above hmeets
    have hcount := (h name args ⟨inner, frames, above, hmeets⟩).2
    exact UseStack.blocks_of_blocks_onBase (List.countP_eq_zero.1 hcount)
  exact visit_eq_of_reaches hreach

/-- A class `H` that has a list of itself as its hint. -/
def listOfItself : Classifier where
  graph :=
    { declarations := OrderedMap.empty.insert "H"
        { Declaration.bare "H" with typeHint := some (.declared "L" [.declared "H" []]) }
      packages := ∅
      settings := ⟨"O", .ofList ["L"], ∅, ∅⟩ }
  registry := ∅

/-- Inside its own hint the class is cut short, with other uses open as without them. -/
theorem listOfItself_above_others :
    let others : UseStack := ⟨["LL<H>", "T<H>", "HH"]⟩
    (∀ name args, listOfItself.MeetsDeclared (.declared "H" []) .array name args →
      (TypeUse.declared name args).text ∉ others ∧ others.usesOf name = 0) ∧
      listOfItself.visit (.declared "H" []) .array ∅ = .ok (.array .object) ∧
      listOfItself.visit (.declared "H" []) .array others = .ok (.array .object) := by
  intro others
  have hunrelated (name : String) (args : List TypeUse)
      (hmeets : listOfItself.MeetsDeclared (.declared "H" []) .array name args) :
      (TypeUse.declared name args).text ∉ others ∧ others.usesOf name = 0 := by
    have hall : ∀ name ∈ listOfItself.scope (.declared "H" []),
        ∀ text ∈ others.entries, ¬ isUseOf name text := by decide
    have hnone := hall name hmeets.mem_scope
    exact ⟨fun htext => hnone _ htext (isUseOf_text name args), List.countP_eq_zero.2 hnone⟩
  have hlist : listOfItself.visit (.declared "L" [.declared "H" []]) .plain ⟨["H"]⟩ =
      .ok .object := by
    have hcomponent : listOfItself.graph.component? (.declared "L" [.declared "H" []]) =
        some (.declared "H" []) :=
      TypeGraph.component?_of_isCollectionRoot rfl rfl
    rw [visit_component (by decide) (visitReplacements_nil _ _) (by cbv) hcomponent,
      visit_of_blocks]
    · cbv
    · decide
  have hvisit : listOfItself.visit (.declared "H" []) .array ∅ = .ok (.array .object) := by
    have hhint : listOfItself.visitReplacements
        (listOfItself.replacements "H" (.declared "H" [])) ⟨["H"]⟩ = .ok (some .object) := by
      refine (visitReplacements_type _ _ [] _).trans ?_
      rw [hlist, visitReplacements_nil]
      rfl
    exact visit_replaced (by decide) hhint .array
  refine ⟨hunrelated, hvisit, ?_⟩
  rw [visit_eq_of_unrelated listOfItself (.declared "H" []) .array others hunrelated, hvisit]

end Classifier

end SchemaTyping
