import Mathlib.Algebra.BigOperators.Group.Finset.Basic
import Mathlib.Algebra.Order.BigOperators.Group.Finset
import SchemaTyping.Proofs.Run.Outcome

/-!
# Open uses

The uses that a run has entered and not yet released are those of its `leave` frames. A step keeps
them, enters one more that passes the guard, or releases the innermost one; the stack of open uses
changes with them. So the stack holds their texts, and the guard bounds how many there are.
-/

namespace SchemaTyping

namespace Run

/-- The use that a frame keeps open. -/
def Frame.opened? : Frame → Option Entered
  | .leave entered => some entered
  | _ => none

/-- The open uses of a state, innermost first. -/
def State.opened (state : State) : List Entered :=
  state.frames.filterMap Frame.opened?

/-- How many uses of a name are open. -/
def State.nesting (state : State) (name : String) : Nat :=
  (state.opened.map Entered.name).count name

/-- What a step does to the open uses and to the stack. -/
inductive OpenChange (guard : Guard) (state next : State) : Prop where
  | keep (hopened : next.opened = state.opened) (hstack : next.stack = state.stack)
  | enter (entered : Entered) (htask : state.task = .visit entered.use entered.context)
      (hpass : ¬guard state.stack entered.name entered.use)
      (hopened : next.opened = entered :: state.opened)
      (hstack : next.stack = state.stack.enterNew entered.use.text)
  | release (entered : Entered) (hopened : state.opened = entered :: next.opened)
      (hstack : next.stack = state.stack.release)

/-- The uses in a task. -/
def Task.uses : Task → List TypeUse
  | .visit type _ => [type]
  | .settle entered _ rest => entered.use :: Replacement.uses rest
  | .give _ => []

/-- The uses in a frame. -/
def Frame.uses : Frame → List TypeUse
  | .leave entered => [entered.use]
  | .settle entered rest => entered.use :: Replacement.uses rest
  | .mapKey _ value => [value]
  | .dimension | .layer _ | .mapValue _ _ => []

/-- All names in a state are among the given ones. -/
structure State.Within (names : List String) (state : State) : Prop where
  task : ∀ use ∈ state.task.uses, use.names ⊆ names
  frames : ∀ frame ∈ state.frames, ∀ use ∈ frame.uses, use.names ⊆ names

end Run

open Run

namespace Classifier

variable {classifier : Classifier} {guard : Guard} {state next : State}

/-! ### What a step changes -/

lemma openChange_of_stepVisit (type : TypeUse) (context : Context) (frames : List Frame)
    (stack : UseStack) :
    OpenChange guard ⟨.visit type context, frames, stack⟩
      (classifier.stepVisit guard context frames stack type) := by
  cases type with
  | primitive kind => exact .keep rfl rfl
  | array component => cases component <;> exact .keep rfl rfl
  | var name bound => cases bound <;> exact .keep rfl rfl
  | wildcard bound => cases bound <;> exact .keep rfl rfl
  | declared name args =>
    rw [stepVisit]
    split
    · exact .keep rfl rfl
    · next hpass => exact .enter ⟨name, args, context⟩ rfl hpass rfl rfl

lemma openChange_of_stepSettle (entered : Entered) (found : Option SchemaType)
    (rest : List Replacement) (frames : List Frame) (stack : UseStack) :
    OpenChange guard ⟨.settle entered found rest, frames, stack⟩
      (classifier.stepSettle entered frames stack found rest) := by
  match found, rest with
  | _, .unstructured :: rest => exact .keep rfl rfl
  | _, .type use :: rest => exact .keep rfl rfl
  | some type, [] => exact .keep rfl rfl
  | none, [] =>
    rw [stepSettle]
    split
    · exact .keep rfl rfl
    · split <;> exact .keep rfl rfl

lemma openChange_of_resume (frame : Frame) (result : Except MetadataError SchemaType)
    (frames : List Frame) (stack : UseStack) :
    OpenChange guard ⟨.give result, frame :: frames, stack⟩
      (frame.resume frames stack result) := by
  cases frame with
  | leave entered => exact .release entered rfl rfl
  | settle entered rest => cases result <;> exact .keep rfl rfl
  | mapKey context value => cases result <;> exact .keep rfl rfl
  | dimension | layer | mapValue => exact .keep rfl rfl

/-- A step keeps the open uses, enters one that passes, or releases the innermost one. -/
lemma openChange_of_step (h : classifier.step guard state = some next) :
    OpenChange guard state next := by
  cases stepRule_of_step h with
  | visit type context frames stack => exact openChange_of_stepVisit type context frames stack
  | settle entered found rest frames stack =>
    exact openChange_of_stepSettle entered found rest frames stack
  | give result frame frames stack => exact openChange_of_resume frame result frames stack

/-- What sets a use apart from the open ones when it is entered sets all open uses apart. -/
lemma nodup_opened_of_step {α : Type} {f : Entered → α}
    (h : classifier.step guard state = some next) (hopen : (state.opened.map f).Nodup)
    (hnew : ∀ entered, state.task = .visit entered.use entered.context →
      ¬guard state.stack entered.name entered.use → f entered ∉ state.opened.map f) :
    (next.opened.map f).Nodup := by
  cases openChange_of_step h with
  | keep hopened hstack => rwa [hopened]
  | enter entered htask hpass hopened hstack =>
    rw [hopened, List.map_cons, List.nodup_cons]
    exact ⟨hnew entered htask hpass, hopen⟩
  | release entered hopened hstack =>
    rw [hopened, List.map_cons, List.nodup_cons] at hopen
    exact hopen.2

/-! ### The stack -/

/-- The stack holds the texts of the open uses above the entries with which it began. -/
lemma entries_of_step {base : List String} (h : classifier.step UseStack.blocks state = some next)
    (hentries : state.stack.entries = state.opened.map (·.use.text) ++ base) :
    next.stack.entries = next.opened.map (·.use.text) ++ base := by
  cases openChange_of_step h with
  | keep hopened hstack => rw [hstack, hopened, hentries]
  | enter entered htask hpass hopened hstack =>
    rw [hstack, UseStack.enterNew_of_not_blocks hpass, UseStack.entries_enter, hopened, hentries,
      List.map_cons, List.cons_append]
  | release entered hopened hstack =>
    rw [hopened] at hentries
    rw [hstack, UseStack.release, hentries, List.map_cons, List.cons_append, List.tail_cons]

lemma nesting_eq_countP (state : State) (name : String) :
    state.nesting name = (state.opened.map (·.use)).countP (·.declaredName? = some name) := by
  rw [State.nesting, List.count, List.countP_map, List.countP_map]
  apply List.countP_congr
  simp [Entered.use, TypeUse.declaredName?]

/-- Every open use counts as a use of its name. -/
lemma nesting_le_usesOf {base : List String}
    (hentries : state.stack.entries = state.opened.map (·.use.text) ++ base) (name : String) :
    state.nesting name ≤ state.stack.usesOf name := by
  rw [nesting_eq_countP]
  apply UseStack.countP_le_usesOf
  rw [hentries, List.map_map]
  rfl

lemma nesting_of_step {base : List String} (h : classifier.step UseStack.blocks state = some next)
    (hentries : state.stack.entries = state.opened.map (·.use.text) ++ base)
    (hlimit : ∀ name, state.nesting name ≤ maxNestedUses) (name : String) :
    next.nesting name ≤ maxNestedUses := by
  cases openChange_of_step h with
  | keep hopened hstack =>
    rw [State.nesting, hopened]
    exact hlimit name
  | enter entered htask hpass hopened hstack =>
    rw [State.nesting, hopened, List.map_cons, List.count_cons]
    split
    · next heq =>
      obtain rfl : entered.name = name := by simpa using heq
      exact Nat.lt_of_le_of_lt (nesting_le_usesOf hentries _)
        (UseStack.usesOf_lt_of_not_blocks hpass)
    · exact hlimit name
  | release entered hopened hstack =>
    have hname := hlimit name
    rw [State.nesting, hopened, List.map_cons] at hname
    exact (List.count_le_count_cons).trans hname

/-- A step enters no more than one use. -/
lemma nesting_le_succ_of_step (h : classifier.step guard state = some next) (name : String) :
    next.nesting name ≤ state.nesting name + 1 := by
  cases openChange_of_step h with
  | keep hopened hstack =>
    rw [State.nesting, hopened]
    exact Nat.le_succ _
  | enter entered htask hpass hopened hstack =>
    rw [State.nesting, hopened, List.map_cons, List.count_cons]
    split
    · exact Nat.le_refl _
    · exact Nat.le_succ _
  | release entered hopened hstack =>
    rw [State.nesting, State.nesting, hopened, List.map_cons]
    exact Nat.le_succ_of_le List.count_le_count_cons

lemma nesting_advance_le (steps : Nat) (state : State) (name : String) :
    (classifier.advance guard steps state).nesting name ≤ state.nesting name + steps := by
  induction steps generalizing state with
  | zero => exact Nat.le_refl _
  | succ steps ih =>
    rw [advance]
    split
    · next next hnext =>
      have hrest := ih next
      have hstep := nesting_le_succ_of_step hnext name
      omega
    · exact Nat.le_add_right _ _

/-- A run that ends after some steps nests no more uses of a name than it takes steps. -/
lemma nesting_le_of_advance {type : TypeUse} {context : Context} {stack : UseStack} {steps : Nat}
    (hlast : classifier.step guard
      (classifier.advance guard steps (.initial type context stack)) = none)
    (h : classifier.Reaches guard (.initial type context stack) state) (name : String) :
    state.nesting name ≤ steps := by
  obtain ⟨n, hn, rfl⟩ := h.exists_advance hlast
  apply (nesting_advance_le n _ name).trans
  show 0 + n ≤ steps
  omega

/-! ### The names -/

lemma names_subset_of_mem_replacements {names : List String}
    (hgraph : classifier.graph.names ⊆ names) (name : String) (args : List TypeUse) :
    ∀ use ∈ Replacement.uses (classifier.replacements name (.declared name args)),
      use.names ⊆ names := fun _ hmem =>
  List.Subset.trans (TypeUse.names_subset_namesOfArgs hmem)
    (List.Subset.trans (classifier.names_replacements_subset name (.declared name args)) hgraph)

lemma names_subset_of_append {part type : TypeUse} {names : List String}
    (hpart : part.names ⊆ classifier.graph.names ++ type.names)
    (hgraph : classifier.graph.names ⊆ names) (htype : type.names ⊆ names) :
    part.names ⊆ names :=
  List.Subset.trans hpart (List.append_subset.2 ⟨hgraph, htype⟩)

lemma within_stepVisit {names : List String} (hgraph : classifier.graph.names ⊆ names)
    {type : TypeUse} {context : Context} {frames : List Frame} {stack : UseStack}
    (h : State.Within names ⟨.visit type context, frames, stack⟩) :
    (classifier.stepVisit guard context frames stack type).Within names := by
  have htype : type.names ⊆ names := h.task type (by simp [Task.uses])
  have hframes := h.frames
  cases type with
  | primitive kind => exact ⟨by simp [stepVisit, Task.uses], hframes⟩
  | array component =>
    rw [TypeUse.names] at htype
    cases component with
    | array inner =>
      rw [stepVisit]
      exact ⟨by simpa [Task.uses] using htype, by simpa [Frame.uses] using hframes⟩
    | primitive | declared | var | wildcard =>
      exact ⟨by simpa [stepVisit, Task.uses] using htype, hframes⟩
  | var name bound =>
    cases bound with
    | none => exact ⟨by simp [stepVisit, Task.uses], hframes⟩
    | some bound =>
      rw [TypeUse.names] at htype
      exact ⟨by simpa [stepVisit, Task.uses] using htype,
        by simpa [stepVisit, Frame.uses] using hframes⟩
  | wildcard bound =>
    cases bound with
    | none => exact ⟨by simp [stepVisit, Task.uses], hframes⟩
    | some bound =>
      rw [TypeUse.names] at htype
      exact ⟨by simpa [stepVisit, Task.uses] using htype,
        by simpa [stepVisit, Frame.uses] using hframes⟩
  | declared name args =>
    rw [stepVisit]
    split
    · exact ⟨by simp [Task.uses], hframes⟩
    · refine ⟨?_, ?_⟩
      · simpa [Task.uses, Entered.use, htype]
          using names_subset_of_mem_replacements hgraph name args
      · simpa [Frame.uses, Entered.use, htype] using hframes

lemma within_stepSettle {names : List String} (hgraph : classifier.graph.names ⊆ names)
    {entered : Entered} {found : Option SchemaType} {rest : List Replacement}
    {frames : List Frame} {stack : UseStack}
    (h : State.Within names ⟨.settle entered found rest, frames, stack⟩) :
    (classifier.stepSettle entered frames stack found rest).Within names := by
  have huse : entered.use.names ⊆ names := h.task _ (by simp [Task.uses])
  have hframes := h.frames
  match found, rest with
  | _, .unstructured :: rest =>
    exact ⟨by simpa [stepSettle, Task.uses, Replacement.uses] using h.task, hframes⟩
  | _, .type use :: rest =>
    have htask := h.task
    simp only [Task.uses, Replacement.uses, List.filterMap_cons, List.mem_cons,
      forall_eq_or_imp] at htask
    refine ⟨by simpa [stepSettle, Task.uses] using htask.2.1, ?_⟩
    simp only [stepSettle, List.mem_cons, forall_eq_or_imp, Frame.uses]
    exact ⟨⟨huse, htask.2.2⟩, hframes⟩
  | some type, [] => exact ⟨by simp [stepSettle, Task.uses], hframes⟩
  | none, [] =>
    rw [stepSettle]
    split
    · next key value hentry =>
      have hnames := TypeGraph.names_keyValue?_subset hentry
      have hkey := names_subset_of_append hnames.1 hgraph huse
      have hvalue := names_subset_of_append hnames.2 hgraph huse
      exact ⟨by simpa [Task.uses] using hkey, by simpa [Frame.uses, hvalue] using hframes⟩
    · split
      · next component hcomponent =>
        have hnames := names_subset_of_append
          (TypeGraph.names_component?_subset hcomponent) hgraph huse
        exact ⟨by simpa [Task.uses] using hnames, hframes⟩
      · exact ⟨by simp [Task.uses], hframes⟩

lemma within_resume {names : List String} {frame : Frame} {frames : List Frame}
    {stack : UseStack} {result : Except MetadataError SchemaType}
    (h : State.Within names ⟨.give result, frame :: frames, stack⟩) :
    (frame.resume frames stack result).Within names := by
  obtain ⟨hframe, hframes⟩ := List.forall_mem_cons.1 h.frames
  cases frame with
  | dimension | layer | leave | mapValue =>
    exact ⟨by simp [Frame.resume, Task.uses], hframes⟩
  | settle entered rest =>
    cases result with
    | error error => exact ⟨by simp [Frame.resume, Task.uses], hframes⟩
    | ok type => exact ⟨hframe, hframes⟩
  | mapKey context value =>
    cases result with
    | error error => exact ⟨by simp [Frame.resume, Task.uses], hframes⟩
    | ok type => exact ⟨hframe, by simpa [Frame.resume, Frame.uses] using hframes⟩

/-- A step brings in no names but those of the graph. -/
lemma within_of_step {names : List String} (hgraph : classifier.graph.names ⊆ names)
    (h : classifier.step guard state = some next) (hwithin : state.Within names) :
    next.Within names := by
  cases stepRule_of_step h with
  | visit => exact within_stepVisit hgraph hwithin
  | settle => exact within_stepSettle hgraph hwithin
  | give => exact within_resume hwithin

/-- Every open use has one of the names. -/
lemma openNames_subset {names : List String} (h : state.Within names) :
    state.opened.map Entered.name ⊆ names := by
  intro name hname
  obtain ⟨entered, hopened, rfl⟩ := List.mem_map.1 hname
  obtain ⟨frame, hframe, heq⟩ := List.mem_filterMap.1 hopened
  cases frame with
  | leave entered' =>
    obtain rfl : entered' = entered := by simpa [Frame.opened?] using heq
    exact h.frames _ hframe entered'.use (by simp [Frame.uses])
      (by simp [Entered.use, TypeUse.names])
  | _ => simp [Frame.opened?] at heq

end Classifier

end SchemaTyping
