import Mathlib.Tactic.IntervalCases
import SchemaTyping.Proofs.Guard.Reopening
import SchemaTyping.Proofs.Guard.Texts

/-!
# What the guard changes

A run without a guard that ends, and that opens no more than `maxNestedUses` uses of one name, is
the run with the guard, unless different uses that are open at the same time have one text. Texts
leave out the bounds of variables, so there are such uses, and then the guard cuts a use short that
would have come to an end.
-/

namespace SchemaTyping

open Run

namespace Classifier

variable {classifier : Classifier} {state next : State} {type : TypeUse}

/-! ### What is cut short -/

/-- The stack counts the open uses of a name if no name has a `<` in it. -/
lemma usesOf_eq_nesting {names : List String} (hnames : ∀ name ∈ names, '<' ∉ name.toList)
    (h : Bounded names state) {name : String} (hname : '<' ∉ name.toList) :
    state.stack.usesOf name = state.nesting name := by
  have huses : ∀ use ∈ state.opened.map (·.use), ∃ other ∈ use.declaredName?,
      '<' ∉ other.toList := by
    rw [List.forall_mem_map]
    intro entered hentered
    exact ⟨entered.name, rfl,
      hnames _ (openNames_subset h.within (List.mem_map_of_mem hentered))⟩
  rw [nesting_eq_countP]
  apply UseStack.usesOf_eq_countP _ hname huses
  rw [h.entries, List.map_map]
  rfl

/-- A use is cut short if an open use has its text, or if its name has reached the limit. -/
lemma blocks_iff {names : List String} (hnames : ∀ name ∈ names, '<' ∉ name.toList)
    {name : String} {args : List TypeUse} {context : Context} {frames : List Frame}
    {stack : UseStack} (h : Bounded names ⟨.visit (.declared name args) context, frames, stack⟩) :
    stack.blocks name (.declared name args) ↔
      (∃ entered ∈ frames.filterMap Frame.opened?,
        entered.use.text = (TypeUse.declared name args).text) ∨
      State.nesting ⟨.visit (.declared name args) context, frames, stack⟩ name =
        maxNestedUses := by
  have hname : '<' ∉ name.toList :=
    hnames name (h.within.task (.declared name args) List.mem_cons_self List.mem_cons_self)
  have hcount := usesOf_eq_nesting hnames h hname
  have hlimit := h.nesting name
  have hentries := h.entries
  dsimp only at hcount hentries
  rw [UseStack.blocks, Bool.or_eq_true, decide_eq_true_eq, decide_eq_true_eq, UseStack.mem_iff,
    hentries, List.mem_map, hcount]
  apply or_congr Iff.rfl
  omega

/-- Classification cuts a use short. -/
def CutsShort (classifier : Classifier) (type : TypeUse) : Prop :=
  ∃ name args context frames stack,
    classifier.Reaches UseStack.blocks (.initial type .plain ∅)
        ⟨.visit (.declared name args) context, frames, stack⟩ ∧
      stack.blocks name (.declared name args)

/-- Different uses that are open at the same time, without a guard, have different texts. -/
def TextsApart (classifier : Classifier) (type : TypeUse) : Prop :=
  ∀ state, classifier.Reaches Guard.never (.initial type .plain ∅) state →
    ∀ entered ∈ state.opened, ∀ other ∈ state.opened,
      entered.use.text = other.use.text → entered.use = other.use

/-! ### The same steps -/

/-- Both runs take the same step unless the guard cuts a use short. -/
lemma step_blocks_eq_step_never
    (h : ∀ name args context, state.task = .visit (.declared name args) context →
      ¬ state.stack.blocks name (.declared name args)) :
    classifier.step UseStack.blocks state = classifier.step Guard.never state := by
  obtain ⟨task, frames, stack⟩ := state
  cases task with
  | visit type context =>
    cases type with
    | declared name args =>
      rw [step, step, stepVisit, stepVisit, if_neg (h name args context rfl), Guard.never]
      rfl
    | array component => cases component <;> rfl
    | var name bound => cases bound <;> rfl
    | wildcard bound => cases bound <;> rfl
    | primitive kind => rfl
  | settle entered found rest => rfl
  | give result => cases frames <;> rfl

/-- What the guard would not cut short, the run without a guard enters. -/
lemma step_never_declared (name : String) (args : List TypeUse) (context : Context)
    (frames : List Frame) (stack : UseStack) :
    classifier.step Guard.never ⟨.visit (.declared name args) context, frames, stack⟩ =
      some (classifier.entering ⟨name, args, context⟩ frames
        (stack.enterNew (TypeUse.declared name args).text)) := rfl

/-- The run without a guard goes on past no use that the guard would cut short, if the texts of
the open uses differ and no name has more than `maxNestedUses` of them. -/
lemma not_blocks_of_apart {names : List String} (hnames : ∀ name ∈ names, '<' ∉ name.toList)
    (h : Bounded names state)
    (hnext : ∀ next, classifier.step Guard.never state = some next →
      (next.opened.map (·.use.text)).Nodup ∧ ∀ name, next.nesting name ≤ maxNestedUses)
    (name : String) (args : List TypeUse) (context : Context)
    (htask : state.task = .visit (.declared name args) context) :
    ¬ state.stack.blocks name (.declared name args) := by
  obtain ⟨task, frames, stack⟩ := state
  cases htask
  obtain ⟨hnodup, hlimit⟩ := hnext _ (step_never_declared name args context frames stack)
  have hopened : (classifier.entering ⟨name, args, context⟩ frames
      (stack.enterNew (TypeUse.declared name args).text)).opened =
        ⟨name, args, context⟩ :: frames.filterMap Frame.opened? := rfl
  rw [hopened, List.map_cons, List.nodup_cons] at hnodup
  rw [blocks_iff hnames h]
  rintro (⟨entered, hentered, htext⟩ | hfull)
  · exact hnodup.1 (List.mem_map.2 ⟨entered, hentered, htext⟩)
  · have hmore := hlimit name
    rw [State.nesting, hopened, List.map_cons, List.count_cons_self] at hmore
    rw [← hfull] at hmore
    exact Nat.not_succ_le_self _ hmore

/-! ### The same runs -/

/-- The run without a guard keeps what the guarded run keeps, as long as its open uses have
different texts and no name has more than `maxNestedUses` of them. -/
lemma bounded_of_free
    (hapart : ∀ state, classifier.Reaches Guard.never (.initial type .plain ∅) state →
      (state.opened.map (·.use.text)).Nodup ∧ ∀ name, state.nesting name ≤ maxNestedUses)
    (h : classifier.Reaches Guard.never (.initial type .plain ∅) state) :
    Bounded (classifier.scope type) state := by
  induction h with
  | refl => exact .initial type .plain
  | @tail state next hreach hstep ih =>
    obtain ⟨hnodup, hlimit⟩ := hapart next (hreach.tail hstep)
    refine ⟨?_, hlimit, within_of_step (List.subset_append_left _ _) hstep ih.within⟩
    cases openChange_of_step hstep with
    | keep hopened hstack => rw [hstack, hopened, ih.entries]
    | enter entered htask hpass hopened hstack =>
      rw [hopened, List.map_cons, List.nodup_cons, ← ih.entries] at hnodup
      rw [hstack, UseStack.enterNew_of_notMem hnodup.1, UseStack.entries_enter, ih.entries,
        hopened, List.map_cons]
    | release entered hopened hstack =>
      rw [hstack, UseStack.release, ih.entries, hopened, List.map_cons, List.tail_cons]

/-- The guard keeps the texts of open uses apart. -/
lemma texts_nodup_of_blocks
    (h : classifier.Reaches UseStack.blocks (.initial type .plain ∅) state) :
    (state.opened.map (·.use.text)).Nodup := by
  induction h with
  | refl => exact List.nodup_nil
  | @tail state next hreach hstep ih =>
    apply nodup_opened_of_step hstep ih
    intro entered _ hpass
    rw [← (Bounded.of_reaches hreach).entries]
    exact UseStack.text_notMem_of_not_blocks hpass

/-- Uses that differ have different texts, so in a run that ends all texts differ. -/
lemma texts_nodup (hapart : classifier.TextsApart type) {result : Except MetadataError SchemaType}
    {stack : UseStack}
    (hend : classifier.Reaches Guard.never (.initial type .plain ∅) (.final result stack))
    (h : classifier.Reaches Guard.never (.initial type .plain ∅) state) :
    (state.opened.map (·.use.text)).Nodup := by
  have huses := opened_uses_nodup hend h
  rw [List.nodup_iff_pairwise_ne, List.pairwise_map] at huses ⊢
  refine huses.imp_of_mem ?_
  intro entered other hentered hother hne htext
  exact hne (hapart state h entered hentered other hother htext)

/-- The guard does not change the answer of a run that ends without it and stays within the limit,
as long as different uses that are open at the same time have different texts. This is the exact
condition for no use to be cut short, since a use is cut short only for the text of an open use or
for the limit. -/
theorem guard_transparent_iff_textsApart
    (hnames : ∀ name ∈ classifier.scope type, '<' ∉ name.toList)
    {result : Except MetadataError SchemaType} {stack : UseStack}
    (hend : classifier.Reaches Guard.never (.initial type .plain ∅) (.final result stack))
    (hlimit : ∀ state, classifier.Reaches Guard.never (.initial type .plain ∅) state →
      ∀ name, state.nesting name ≤ maxNestedUses) :
    (classifier.TextsApart type → classifier.classify type = result) ∧
      (classifier.TextsApart type ↔ ¬ classifier.CutsShort type) ∧
      ∀ name args context frames stack,
        classifier.Reaches UseStack.blocks (.initial type .plain ∅)
          ⟨.visit (.declared name args) context, frames, stack⟩ →
        (stack.blocks name (.declared name args) ↔
          (∃ entered ∈ frames.filterMap Frame.opened?,
            entered.use.text = (TypeUse.declared name args).text) ∨
          State.nesting ⟨.visit (.declared name args) context, frames, stack⟩ name =
            maxNestedUses) := by
  have hpasses (hapart : classifier.TextsApart type) (state : State)
      (h : classifier.Reaches Guard.never (.initial type .plain ∅) state) :
      ∀ name args context, state.task = .visit (.declared name args) context →
        ¬ state.stack.blocks name (.declared name args) := by
    apply not_blocks_of_apart hnames
    · exact bounded_of_free (fun state h => ⟨texts_nodup hapart hend h, hlimit state h⟩) h
    · exact fun next hnext => ⟨texts_nodup hapart hend (h.tail hnext), hlimit _ (h.tail hnext)⟩
  have hsame (hapart : classifier.TextsApart type) (state : State) :
      classifier.Reaches Guard.never (.initial type .plain ∅) state ↔
        classifier.Reaches UseStack.blocks (.initial type .plain ∅) state :=
    reaches_iff_of_step_eq fun state h =>
      (step_blocks_eq_step_never (hpasses hapart state h)).symm
  refine ⟨?_, ⟨?_, ?_⟩, ?_⟩
  · intro hapart
    exact visit_eq_of_reaches ((hsame hapart _).1 hend)
  · rintro hapart ⟨name, args, context, frames, stack', hreach, hblocks⟩
    exact hpasses hapart _ ((hsame hapart _).2 hreach) name args context rfl hblocks
  · intro hcut state hreach entered hentered other hother htext
    have hguarded : classifier.Reaches UseStack.blocks (.initial type .plain ∅) state := by
      refine (reaches_iff_of_step_eq fun state h => step_blocks_eq_step_never ?_).2 hreach
      intro name args context htask hblocks
      obtain ⟨task, frames, stack'⟩ := state
      cases htask
      exact hcut ⟨name, args, context, frames, stack', h, hblocks⟩
    rw [List.inj_on_of_nodup_map (texts_nodup_of_blocks hguarded) hentered hother htext]
  · intro name args context frames stack' hreach
    exact blocks_iff hnames (.of_reaches hreach)

/-! ### Bounds -/

/-- Nothing is known but that `M` is a map. -/
def onlyMaps : Classifier where
  graph := ⟨∅, ∅, ⟨"O", ∅, ∅, .ofList ["M"]⟩⟩
  registry := ∅

/-- The map in the bound of another map has its result, and nothing is left but to leave both. -/
def boundGiven (bound outer : List TypeUse) (stack : UseStack) : State :=
  ⟨.give (.ok (.map .object .object)),
    [.leave ⟨"M", bound, .plain⟩, .layer .plain, .mapValue .plain .object,
      .leave ⟨"M", outer, .plain⟩],
    stack⟩

/-- A run that comes to this state ends with one map in the place of the values of the other. -/
lemma advance_of_boundGiven {guard : Guard} {type : TypeUse} {bound outer : List TypeUse}
    {stack : UseStack} (h : onlyMaps.advance guard 11 (.initial type .plain ∅) =
      boundGiven bound outer stack) :
    onlyMaps.advance guard 15 (.initial type .plain ∅) =
      .final (.ok (.map .object (.map .object .object))) stack.release.release := by
  refine (advance_add 11 4 _).trans ?_
  rw [h]
  rfl

/-- The bound of a variable is not in the text of a use: the bound of `V` in
`M<K, V extends M<K, V>>` reads like the map itself, and is cut short although the run without a
guard ends, with a map in the place of the values. -/
theorem map_with_bound_cut_short :
    let type := TypeUse.declared "M" [.var "K" none,
      .var "V" (some (.declared "M" [.var "K" none, .var "V" none]))]
    (∀ name ∈ onlyMaps.scope type, '<' ∉ name.toList) ∧
      onlyMaps.Reaches Guard.never (.initial type .plain ∅)
        (.final (.ok (.map .object (.map .object .object))) ∅) ∧
      (∀ state, onlyMaps.Reaches Guard.never (.initial type .plain ∅) state →
        ∀ name, state.nesting name ≤ maxNestedUses) ∧
      onlyMaps.classify type = .ok (.map .object .object) := by
  intro type
  have hbound : onlyMaps.advance Guard.never 11 (.initial type .plain ∅) =
      boundGiven [.var "K" none, .var "V" none] type.args ⟨["M<K, V>"]⟩ := by
    cbv
  have hfree : onlyMaps.advance Guard.never 15 (.initial type .plain ∅) =
      .final (.ok (.map .object (.map .object .object))) ∅ :=
    advance_of_boundGiven hbound
  have hguarded : onlyMaps.advance UseStack.blocks 6 (.initial type .plain ∅) =
      ⟨.give (.ok .object),
        [.layer .plain, .mapValue .plain .object, .leave ⟨"M", type.args, .plain⟩],
        ⟨["M<K, V>"]⟩⟩ := by
    cbv
  have hlast : onlyMaps.step Guard.never
      (onlyMaps.advance Guard.never 15 (.initial type .plain ∅)) = none := by
    rw [hfree, step_final]
  refine ⟨by decide, .of_advance hfree, ?_, ?_⟩
  · intro state hstate name
    exact (nesting_le_of_advance hlast hstate name).trans (by decide)
  · exact visit_eq_of_reaches ((((Reaches.of_advance hguarded).tail rfl).tail rfl).tail rfl)

/-- A map whose bound has another text than the map itself keeps its values. -/
theorem map_with_other_bound_kept :
    let type := TypeUse.declared "M" [.var "K" none,
      .var "V" (some (.declared "M" [.var "V" none, .var "K" none]))]
    onlyMaps.TextsApart type ∧ ¬ onlyMaps.CutsShort type ∧
      onlyMaps.classify type = .ok (.map .object (.map .object .object)) := by
  intro type
  have hbound : onlyMaps.advance Guard.never 11 (.initial type .plain ∅) =
      boundGiven [.var "V" none, .var "K" none] type.args ⟨["M<V, K>", "M<K, V>"]⟩ := by
    cbv
  have hfree : onlyMaps.advance Guard.never 15 (.initial type .plain ∅) =
      .final (.ok (.map .object (.map .object .object))) ∅ :=
    advance_of_boundGiven hbound
  have hlast : onlyMaps.step Guard.never
      (onlyMaps.advance Guard.never 15 (.initial type .plain ∅)) = none := by
    rw [hfree, step_final]
  have hnames : ∀ name ∈ onlyMaps.scope type, '<' ∉ name.toList := by
    decide
  obtain ⟨hsame, hcut, -⟩ := guard_transparent_iff_textsApart hnames (.of_advance hfree)
    fun state hstate name => (nesting_le_of_advance hlast hstate name).trans (by decide)
  have htexts : ∀ n ≤ 15, ((onlyMaps.advance Guard.never n
      (.initial type .plain ∅)).opened.map (·.use.text)).Nodup := by
    intro n hn
    rcases Nat.lt_or_ge n 11 with hlt | hge
    · apply of_decide_eq_true
      interval_cases n <;> cbv
    · obtain ⟨left, rfl⟩ := Nat.exists_eq_add_of_le hge
      have hleft : left ≤ 4 := Nat.le_of_add_le_add_left hn
      rw [advance_add, hbound]
      interval_cases left
      · apply of_decide_eq_true
        cbv
      · exact List.nodup_singleton _
      · exact List.nodup_singleton _
      · exact List.nodup_singleton _
      · exact List.nodup_nil
  have hapart : onlyMaps.TextsApart type := by
    intro state hstate entered hentered other hother htext
    obtain ⟨n, hn, rfl⟩ := hstate.exists_advance hlast
    rw [List.inj_on_of_nodup_map (htexts n hn) hentered hother htext]
  exact ⟨hapart, hcut.1 hapart, hsame hapart⟩

end Classifier

end SchemaTyping
