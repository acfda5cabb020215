import SchemaTyping.Proofs.Run.OpenUses

/-!
# Uses inside themselves

Without a guard, a run goes on in the same way inside every entry of a use, whatever contexts and
results are around it. So a run that opens a use inside itself opens it again and again, and has
no end: in a run that ends, all open uses differ.
-/

namespace SchemaTyping

namespace Run

/-- Tasks that differ in contexts and results only. -/
inductive Task.Alike : Task → Task → Prop where
  | visit (type : TypeUse) (context context' : Context) :
    Alike (.visit type context) (.visit type context')
  | settle (name : String) (args : List TypeUse) (context context' : Context)
    {found found' : Option SchemaType} (rest : List Replacement)
    (h : found.isSome = found'.isSome) :
    Alike (.settle ⟨name, args, context⟩ found rest) (.settle ⟨name, args, context'⟩ found' rest)
  | ok (type type' : SchemaType) : Alike (.give (.ok type)) (.give (.ok type'))
  | error (error error' : MetadataError) : Alike (.give (.error error)) (.give (.error error'))

/-- Frames that differ in contexts and results only. -/
inductive Frame.Alike : Frame → Frame → Prop where
  | dimension : Alike .dimension .dimension
  | layer (context context' : Context) : Alike (.layer context) (.layer context')
  | leave (name : String) (args : List TypeUse) (context context' : Context) :
    Alike (.leave ⟨name, args, context⟩) (.leave ⟨name, args, context'⟩)
  | settle (name : String) (args : List TypeUse) (context context' : Context)
    (rest : List Replacement) :
    Alike (.settle ⟨name, args, context⟩ rest) (.settle ⟨name, args, context'⟩ rest)
  | mapKey (context context' : Context) (value : TypeUse) :
    Alike (.mapKey context value) (.mapKey context' value)
  | mapValue (context context' : Context) (key key' : SchemaType) :
    Alike (.mapValue context key) (.mapValue context' key')

/-- States that are alike above the frames on which they stand. -/
inductive State.Alongside (base base' : List Frame) : State → State → Prop where
  | intro {task task' : Task} {top top' : List Frame} (stack stack' : UseStack)
    (htask : task.Alike task') (htop : List.Forall₂ Frame.Alike top top') :
    Alongside base base' ⟨task, top ++ base, stack⟩ ⟨task', top' ++ base', stack'⟩

lemma State.Alongside.task {base base' : List Frame} {state state' : State}
    (h : State.Alongside base base' state state') : state.task.Alike state'.task := by
  obtain ⟨_, _, htask, _⟩ := h
  exact htask

/-- An open use has its frame, and the frames below it. -/
lemma exists_leave_suffix {frames : List Frame} {entered : Entered}
    (h : entered ∈ frames.filterMap Frame.opened?) :
    ∃ below, .leave entered :: below <:+ frames := by
  obtain ⟨frame, hframe, heq⟩ := List.mem_filterMap.1 h
  obtain ⟨above, below, rfl⟩ := List.append_of_mem hframe
  cases frame with
  | leave entered' =>
    obtain rfl : entered' = entered := by simpa [Frame.opened?] using heq
    exact ⟨below, List.suffix_append _ _⟩
  | _ => simp [Frame.opened?] at heq

end Run

open Run

namespace Classifier

variable {classifier : Classifier} {guard : Guard} {state next : State} {base base' : List Frame}

/-! ### Runs side by side -/

lemma alongside_stepVisit {type : TypeUse} {context context' : Context} {top top' : List Frame}
    (stack stack' : UseStack) (htop : List.Forall₂ Frame.Alike top top') :
    State.Alongside base base'
      (classifier.stepVisit Guard.never context (top ++ base) stack type)
      (classifier.stepVisit Guard.never context' (top' ++ base') stack' type) := by
  cases type with
  | primitive kind => exact .intro stack stack' (.ok _ _) htop
  | array component =>
    cases component with
    | array inner => exact .intro stack stack' (.visit _ _ _) (.cons .dimension htop)
    | primitive | declared | var | wildcard => exact .intro stack stack' (.visit _ _ _) htop
  | var name bound =>
    cases bound with
    | none => exact .intro stack stack' (.ok _ _) htop
    | some bound => exact .intro stack stack' (.visit _ _ _) (.cons (.layer _ _) htop)
  | wildcard bound =>
    cases bound with
    | none => exact .intro stack stack' (.ok _ _) htop
    | some bound => exact .intro stack stack' (.visit _ _ _) (.cons (.layer _ _) htop)
  | declared name args =>
    exact .intro (stack.enterNew _) (stack'.enterNew _) (.settle name args _ _ _ rfl)
      (.cons (.leave name args _ _) htop)

lemma alongside_stepSettle {name : String} {args : List TypeUse} {context context' : Context}
    {found found' : Option SchemaType} (rest : List Replacement) {top top' : List Frame}
    (stack stack' : UseStack) (hfound : found.isSome = found'.isSome)
    (htop : List.Forall₂ Frame.Alike top top') :
    State.Alongside base base'
      (classifier.stepSettle ⟨name, args, context⟩ (top ++ base) stack found rest)
      (classifier.stepSettle ⟨name, args, context'⟩ (top' ++ base') stack' found' rest) := by
  match found, found', rest, hfound with
  | _, _, .unstructured :: rest, _ => exact .intro stack stack' (.settle name args _ _ _ rfl) htop
  | _, _, .type use :: rest, _ =>
    exact .intro stack stack' (.visit _ _ _) (.cons (.settle name args _ _ _) htop)
  | some type, some type', [], _ => exact .intro stack stack' (.ok _ _) htop
  | none, none, [], _ =>
    simp only [stepSettle, Entered.use]
    split
    · exact .intro stack stack' (.visit _ _ _) (.cons (.mapKey _ _ _) htop)
    · split
      · exact .intro stack stack' (.visit _ _ _) htop
      · cases classifier.named name with
        | ok type => exact .intro stack stack' (.ok _ _) htop
        | error error => exact .intro stack stack' (.error _ _) htop

lemma alongside_resume {frame frame' : Frame} {result result' : Except MetadataError SchemaType}
    {top top' : List Frame} (stack stack' : UseStack) (hframe : frame.Alike frame')
    (hresult : (Task.give result).Alike (.give result'))
    (htop : List.Forall₂ Frame.Alike top top') :
    State.Alongside base base' (frame.resume (top ++ base) stack result)
      (frame'.resume (top' ++ base') stack' result') := by
  cases hresult with
  | ok type type' =>
    cases hframe with
    | dimension => exact .intro stack stack' (.ok _ _) htop
    | layer => exact .intro stack stack' (.ok _ _) htop
    | leave => exact .intro stack.release stack'.release (.ok _ _) htop
    | settle name args context context' rest =>
      exact .intro stack stack' (.settle name args _ _ rest rfl) htop
    | mapKey => exact .intro stack stack' (.visit _ _ _) (.cons (.mapValue _ _ _ _) htop)
    | mapValue => exact .intro stack stack' (.ok _ _) htop
  | error error error' =>
    cases hframe with
    | leave => exact .intro stack.release stack'.release (.error _ _) htop
    | dimension | layer | settle | mapKey | mapValue =>
      exact .intro stack stack' (.error _ _) htop

/-- No step of a result leaves the frame that receives it in its place. -/
lemma not_suffix_resume (frame : Frame) (result : Except MetadataError SchemaType)
    (frames : List Frame) (stack : UseStack) :
    ¬ frame :: frames <:+ (frame.resume frames stack result).frames := by
  intro h
  have hlength := h.length_le
  cases frame with
  | dimension | layer | leave | mapValue => simp [Frame.resume] at hlength
  | settle entered rest => cases result <;> simp [Frame.resume] at hlength
  | mapKey context value =>
    cases result with
    | error error => simp [Frame.resume] at hlength
    | ok key => simpa [Frame.resume] using h.eq_of_length rfl

lemma alongside_step_give {result result' : Except MetadataError SchemaType}
    {top top' : List Frame} (stack stack' : UseStack)
    (hresult : (Task.give result).Alike (.give result')) (htop : List.Forall₂ Frame.Alike top top')
    (hstep : classifier.step Guard.never ⟨.give result, top ++ base, stack⟩ = some next)
    (hbase : base <:+ next.frames) :
    ∃ next', classifier.step Guard.never ⟨.give result', top' ++ base', stack'⟩ = some next' ∧
      State.Alongside base base' next next' := by
  cases htop with
  | nil =>
    cases base with
    | nil => simp [step] at hstep
    | cons frame frames =>
      cases hstep
      exact absurd hbase (not_suffix_resume frame _ frames stack)
  | cons hframe htop =>
    cases hstep
    exact ⟨_, rfl, alongside_resume stack stack' hframe hresult htop⟩

/-- As long as a run stays above the frames on which it stands, another one that is alike above
its own frames goes along with it. -/
lemma alongside_step {state' : State} (h : State.Alongside base base' state state')
    (hstep : classifier.step Guard.never state = some next) (hbase : base <:+ next.frames) :
    ∃ next', classifier.step Guard.never state' = some next' ∧
      State.Alongside base base' next next' := by
  obtain ⟨stack, stack', htask, htop⟩ := h
  cases htask with
  | visit type context context' =>
    cases hstep
    exact ⟨_, rfl, alongside_stepVisit stack stack' htop⟩
  | settle name args context context' rest hfound =>
    cases hstep
    exact ⟨_, rfl, alongside_stepSettle rest stack stack' hfound htop⟩
  | ok type type' => exact alongside_step_give stack stack' (.ok type type') htop hstep hbase
  | error error error' =>
    exact alongside_step_give stack stack' (.error error error') htop hstep hbase

/-! ### Runs inside a use -/

/-- A run that keeps certain frames below it. -/
abbrev ReachesAbove (classifier : Classifier) (base : List Frame) : State → State → Prop :=
  Relation.ReflTransGen fun state next =>
    classifier.step Guard.never state = some next ∧ base <:+ next.frames

/-- The state in which a use has just been entered. -/
def entering (classifier : Classifier) (entered : Entered) (frames : List Frame)
    (stack : UseStack) : State :=
  ⟨.settle entered none (classifier.replacements entered.name entered.use),
    .leave entered :: frames, stack⟩

lemma leave_suffix_of_stepVisit {type : TypeUse} {context : Context} {frames below : List Frame}
    {stack : UseStack} {entered : Entered}
    (h : .leave entered :: below <:+
      (classifier.stepVisit guard context frames stack type).frames) :
    .leave entered :: below <:+ frames ∨
      ∃ stack', classifier.stepVisit guard context frames stack type =
        classifier.entering entered below stack' := by
  cases type with
  | primitive kind => exact .inl h
  | array component =>
    cases component with
    | array inner => exact .inl (by simpa [stepVisit, List.suffix_cons_iff] using h)
    | primitive | declared | var | wildcard => exact .inl h
  | var name bound =>
    cases bound with
    | none => exact .inl h
    | some bound => exact .inl (by simpa [stepVisit, List.suffix_cons_iff] using h)
  | wildcard bound =>
    cases bound with
    | none => exact .inl h
    | some bound => exact .inl (by simpa [stepVisit, List.suffix_cons_iff] using h)
  | declared name args =>
    rw [stepVisit] at h ⊢
    split
    · exact .inl (by simpa [*] using h)
    · next hguard =>
      rw [if_neg hguard] at h
      rcases List.suffix_cons_iff.1 h with heq | hsuffix
      · cases heq
        exact .inr ⟨_, rfl⟩
      · exact .inl hsuffix

lemma leave_suffix_of_stepSettle {settled entered : Entered} {found : Option SchemaType}
    {rest : List Replacement} {frames below : List Frame} {stack : UseStack}
    (h : .leave entered :: below <:+
      (classifier.stepSettle settled frames stack found rest).frames) :
    .leave entered :: below <:+ frames := by
  match found, rest with
  | _, .unstructured :: rest => exact h
  | _, .type use :: rest => simpa [stepSettle, List.suffix_cons_iff] using h
  | some type, [] => exact h
  | none, [] =>
    rw [stepSettle] at h
    split at h
    · simpa [List.suffix_cons_iff] using h
    · split at h <;> exact h

lemma leave_suffix_of_resume {frame : Frame} {result : Except MetadataError SchemaType}
    {frames below : List Frame} {stack : UseStack} {entered : Entered}
    (h : .leave entered :: below <:+ (frame.resume frames stack result).frames) :
    .leave entered :: below <:+ frames := by
  cases frame with
  | dimension | layer | leave | mapValue => exact h
  | settle entered rest => cases result <;> exact h
  | mapKey context value =>
    cases result with
    | error error => exact h
    | ok key => simpa [Frame.resume, List.suffix_cons_iff] using h

/-- A use that is open after a step was open before, or has just been entered. -/
lemma leave_suffix_of_step {entered : Entered} {below : List Frame}
    (hstep : classifier.step guard state = some next)
    (h : .leave entered :: below <:+ next.frames) :
    .leave entered :: below <:+ state.frames ∨
      ∃ stack, next = classifier.entering entered below stack := by
  cases stepRule_of_step hstep with
  | visit => exact leave_suffix_of_stepVisit h
  | settle => exact .inl (leave_suffix_of_stepSettle h)
  | give => exact .inl ((leave_suffix_of_resume h).trans (List.suffix_cons _ _))

/-- Since a use was entered that is open still, a run has stayed above it. -/
lemma reachesAbove_of_leave_suffix {type : TypeUse} {context : Context} {stack : UseStack}
    (h : classifier.Reaches Guard.never (.initial type context stack) state)
    {entered : Entered} {below : List Frame} (hopen : .leave entered :: below <:+ state.frames) :
    ∃ stack', classifier.ReachesAbove (.leave entered :: below)
      (classifier.entering entered below stack') state := by
  induction h with
  | refl => simp [State.initial] at hopen
  | tail _ hstep ih =>
    rcases leave_suffix_of_step hstep hopen with hbefore | ⟨stack', rfl⟩
    · obtain ⟨stack', hreach⟩ := ih hbefore
      exact ⟨stack', hreach.tail ⟨hstep, hopen⟩⟩
    · exact ⟨stack', .refl⟩

/-! ### No end -/

/-- A run that stays above some frames has a counterpart above any others. -/
lemma exists_alongside {first second : State}
    (h : Relation.TransGen (fun state next =>
      classifier.step Guard.never state = some next ∧ base <:+ next.frames) first state)
    (hfirst : State.Alongside base base' first second) :
    ∃ state', Relation.TransGen (fun state next => classifier.step Guard.never state = some next)
      second state' ∧ State.Alongside base base' state state' := by
  induction h with
  | single hstep =>
    obtain ⟨next', hstep', halong⟩ := alongside_step hfirst hstep.1 hstep.2
    exact ⟨next', .single hstep', halong⟩
  | tail _ hstep ih =>
    obtain ⟨state', hreach, halong⟩ := ih
    obtain ⟨next', hstep', halong'⟩ := alongside_step halong hstep.1 hstep.2
    exact ⟨next', hreach.tail hstep', halong'⟩

/-- A use has been entered, and its replacements are to be visited. -/
def IsEntry (classifier : Classifier) (use : TypeUse) (state : State) : Prop :=
  ∃ entered : Entered, entered.use = use ∧
    state.task = .settle entered none (classifier.replacements entered.name entered.use)

lemma isEntry_entering (entered : Entered) (frames : List Frame) (stack : UseStack) :
    classifier.IsEntry entered.use (classifier.entering entered frames stack) :=
  ⟨entered, rfl, rfl⟩

lemma IsEntry.alongside {entered : Entered} {below : List Frame} {stack : UseStack}
    (h : classifier.IsEntry entered.use state) :
    State.Alongside (.leave entered :: below) state.frames
      (classifier.entering entered below stack) state := by
  obtain ⟨task, frames, stack'⟩ := state
  obtain ⟨⟨name, args, context⟩, huse, htask⟩ := h
  cases huse
  cases htask
  exact .intro stack stack' (.settle _ _ _ _ _ rfl) .nil

lemma IsEntry.of_alongside {entered : Entered} {frames : List Frame} {stack : UseStack}
    (h : State.Alongside base base' (classifier.entering entered frames stack) state) :
    classifier.IsEntry entered.use state := by
  have htask := h.task
  rw [entering] at htask
  generalize hafter : state.task = task at htask
  cases htask with
  | settle name args _ context' _ hfound =>
    rw [Option.isSome_none, eq_comm, Option.isSome_eq_false_iff,
      Option.isNone_iff_eq_none] at hfound
    exact ⟨⟨name, args, context'⟩, rfl, by rw [hafter, hfound]; rfl⟩

/-- No run that ends passes a state of a sort that always leads to another one of its sort. -/
lemma not_acc_of_recurrent {P : State → Prop}
    (hP : ∀ state, P state → ∃ later,
      Relation.TransGen (fun state next => classifier.step guard state = some next) state later ∧
        P later)
    (hacc : Acc (fun next state => classifier.step guard state = some next) state) : ¬ P state := by
  have htrans := hacc.transGen
  clear hacc
  induction htrans with
  | intro state _ ih =>
    intro hstate
    obtain ⟨later, hlater, hagain⟩ := hP state hstate
    exact ih later (Relation.transGen_swap.2 hlater) hagain

/-- In a run that ends no use is entered while it is open. -/
lemma use_notMem_opened {type : TypeUse} {context : Context} {stack stack' : UseStack}
    {result : Except MetadataError SchemaType}
    (hend : classifier.Reaches Guard.never (.initial type context stack) (.final result stack'))
    {entered : Entered} {frames : List Frame} {stack₁ stack₂ : UseStack}
    (h : classifier.Reaches Guard.never (.initial type context stack)
      ⟨.visit entered.use entered.context, frames, stack₁⟩)
    (hstep : classifier.step Guard.never ⟨.visit entered.use entered.context, frames, stack₁⟩ =
      some (classifier.entering entered frames stack₂)) :
    entered.use ∉ (frames.filterMap Frame.opened?).map Entered.use := by
  intro hmem
  obtain ⟨outer, houter, huse⟩ := List.mem_map.1 hmem
  obtain ⟨below, hbelow⟩ := exists_leave_suffix houter
  have hreach := h.tail hstep
  -- the run from the entry of the outer use to the entry of the inner one stays above the outer one
  obtain ⟨stack₀, hinside⟩ := reachesAbove_of_leave_suffix hreach
    (hbelow.trans (List.suffix_cons _ _))
  have hlength : below.length < frames.length := hbelow.length_le
  have htrans := (Relation.reflTransGen_iff_eq_or_transGen.1 hinside).resolve_left fun heq => by
    have hframes := congrArg (fun state : State => state.frames.length) heq
    simp only [entering, List.length_cons] at hframes
    omega
  refine not_acc_of_recurrent (P := classifier.IsEntry entered.use) ?_
    (hend.acc_of_reaches hreach) (isEntry_entering entered frames stack₂)
  intro state hstate
  rw [← huse] at hstate
  obtain ⟨later, hlater, halong⟩ := exists_alongside htrans hstate.alongside
  exact ⟨later, hlater, .of_alongside halong⟩

/-- In a run that ends all open uses differ. -/
theorem opened_uses_nodup {type : TypeUse} {context : Context} {stack stack' : UseStack}
    {result : Except MetadataError SchemaType}
    (hend : classifier.Reaches Guard.never (.initial type context stack) (.final result stack'))
    (h : classifier.Reaches Guard.never (.initial type context stack) state) :
    (state.opened.map Entered.use).Nodup := by
  induction h with
  | refl => exact List.nodup_nil
  | @tail state next hreach hstep ih =>
    apply nodup_opened_of_step hstep ih
    intro entered htask _
    obtain ⟨task, frames, stack₁⟩ := state
    cases htask
    exact use_notMem_opened hend hreach rfl

end Classifier

end SchemaTyping
