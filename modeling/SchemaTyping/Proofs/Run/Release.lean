import SchemaTyping.Proofs.Graph.Search
import SchemaTyping.Proofs.Run.OpenUses

/-!
# Entering and releasing

A use is entered only while its text is not on the stack, so every entry belongs to one open use,
and what is released when a use is left is the entry that was made for it. This holds of whatever
entries a run begins with, and of errors as of results.
-/

namespace SchemaTyping

open Run

namespace Classifier

variable {classifier : Classifier} {state next : State} {base : List String} {entered : Entered}

/-- What a run keeps that began over some entries: the texts of the open uses stand above them, and
no text stands there twice. -/
structure Stacked (base : List String) (state : State) : Prop where
  entries : state.stack.entries = state.opened.map (·.use.text) ++ base
  nodup : state.stack.entries.Nodup

/-! ### One step -/

/-- The use that a step opens has no entry before, and one entry more on top after it. -/
lemma enter_of_opened (hstep : classifier.step UseStack.blocks state = some next)
    (hopened : next.opened = entered :: state.opened) :
    entered.use.text ∉ state.stack ∧ next.stack = state.stack.enter entered.use.text := by
  cases openChange_of_step hstep with
  | keep hsame hstack => simp [hsame] at hopened
  | enter entered' htask hpass hnext hstack =>
    obtain rfl : entered' = entered := by simpa [hnext] using hopened
    have hfresh := UseStack.text_notMem_of_not_blocks hpass
    exact ⟨hfresh, by rw [hstack, UseStack.enterNew_of_notMem hfresh]⟩
  | release entered' hstate hstack =>
    have hlength := congrArg List.length hopened
    rw [hstate] at hlength
    simp only [List.length_cons] at hlength
    omega

/-- What a step takes off the stack is the text of the use that it closes. -/
lemma Stacked.eq_enter_of_closed (h : Stacked base state)
    (hstep : classifier.step UseStack.blocks state = some next)
    (hclosed : state.opened = entered :: next.opened) :
    state.stack = next.stack.enter entered.use.text := by
  cases openChange_of_step hstep with
  | keep hsame hstack => simp [hsame] at hclosed
  | enter entered' htask hpass hnext hstack =>
    have hlength := congrArg List.length hclosed
    rw [hnext] at hlength
    simp only [List.length_cons] at hlength
    omega
  | release entered' hstate hstack =>
    obtain rfl : entered' = entered := by simpa [hstate] using hclosed
    have hentries := h.entries
    rw [hstate, List.map_cons, List.cons_append] at hentries
    rw [hstack, UseStack.enter, UseStack.release, hentries, List.tail_cons, ← hentries]

lemma Stacked.step (h : Stacked base state)
    (hstep : classifier.step UseStack.blocks state = some next) : Stacked base next := by
  refine ⟨entries_of_step hstep h.entries, ?_⟩
  have hnodup := h.nodup
  cases openChange_of_step hstep with
  | keep hopened hstack => rwa [hstack]
  | enter entered htask hpass hopened hstack =>
    obtain ⟨hfresh, hnext⟩ := enter_of_opened hstep hopened
    rw [hnext, UseStack.entries_enter, List.nodup_cons]
    exact ⟨hfresh, hnodup⟩
  | release entered hopened hstack =>
    rw [h.eq_enter_of_closed hstep hopened, UseStack.entries_enter, List.nodup_cons] at hnodup
    exact hnodup.2

/-! ### Runs -/

lemma Stacked.of_reaches {type : TypeUse} {context : Context} {stack : UseStack}
    (hdistinct : stack.entries.Nodup)
    (h : classifier.Reaches UseStack.blocks (.initial type context stack) state) :
    Stacked stack.entries state := by
  induction h with
  | refl => exact ⟨rfl, hdistinct⟩
  | tail _ hstep ih => exact ih.step hstep

/-- A run gives back the stack with which it began, whether it returns a schema type or an error.
On the way the stack holds the texts of the open uses above its first entries, no text twice. A use
is opened only while its text is not on the stack, and the text that is taken off when it is closed
is the one that was put on then, so the first entries are never touched. -/
theorem stack_restored (classifier : Classifier) (type : TypeUse) (context : Context)
    {stack : UseStack} (hdistinct : stack.entries.Nodup) :
    classifier.Reaches UseStack.blocks (.initial type context stack)
        (.final (classifier.visit type context stack) stack) ∧
      (∀ result after, classifier.Reaches UseStack.blocks (.initial type context stack)
        (.final result after) → after = stack) ∧
      ∀ state, classifier.Reaches UseStack.blocks (.initial type context stack) state →
        state.stack.entries = state.opened.map (·.use.text) ++ stack.entries ∧
          state.stack.entries.Nodup ∧
          ∀ next, classifier.step UseStack.blocks state = some next → ∀ entered,
            (next.opened = entered :: state.opened →
              entered.use.text ∉ state.stack ∧
                next.stack = state.stack.enter entered.use.text) ∧
            (state.opened = entered :: next.opened →
              state.stack = next.stack.enter entered.use.text) := by
  have hend := classifier.reaches_final type context stack
  refine ⟨hend, ?_, ?_⟩
  · intro result after hafter
    exact (hafter.final_unique hend).2
  · intro state hstate
    have hstacked := Stacked.of_reaches hdistinct hstate
    refine ⟨hstacked.entries, hstacked.nodup, fun next hstep entered => ⟨?_, ?_⟩⟩
    · exact enter_of_opened hstep
    · exact hstacked.eq_enter_of_closed hstep

/-- A class `H` whose hint is a list `L` of an enumeration `C` that cannot be written. -/
def unwritable : Classifier where
  graph :=
    { declarations := (OrderedMap.empty.insert "H"
          { Declaration.bare "H" with typeHint := some (.declared "L" [.declared "C" []]) }).insert
        "C" { Declaration.bare "C" with kind := .enumeration, qnameInfo := some ⟨.qname, none⟩ }
      packages := ∅
      settings := ⟨"O", .ofList ["L"], ∅, ∅⟩ }
  registry := ∅

/-- The error of the enumeration comes up with three uses open, and leaves the first two entries. -/
theorem stack_restored_after_error :
    (⟨["T", "S"]⟩ : UseStack).entries.Nodup ∧
      unwritable.Reaches UseStack.blocks (.initial (.declared "H" []) .plain ⟨["T", "S"]⟩)
        (.final (.error (.qnameEnumBase "C" "QNAME")) ⟨["T", "S"]⟩) ∧
      ∃ state, unwritable.Reaches UseStack.blocks
          (.initial (.declared "H" []) .plain ⟨["T", "S"]⟩) state ∧
        state.task = .give (.error (.qnameEnumBase "C" "QNAME")) ∧
        state.stack.entries = ["C", "L<C>", "H", "T", "S"] ∧
        state.stack.entries = state.opened.map (·.use.text) ++ ["T", "S"] := by
  have hopened : unwritable.advance UseStack.blocks 3
      (.initial (.declared "H" []) .plain ⟨["T", "S"]⟩) =
        ⟨.settle ⟨"L", [.declared "C" []], .plain⟩ none [],
          [.leave ⟨"L", [.declared "C" []], .plain⟩, .settle ⟨"H", [], .plain⟩ [],
            .leave ⟨"H", [], .plain⟩],
          ⟨["L<C>", "H", "T", "S"]⟩⟩ := by
    cbv
  have hentry : unwritable.graph.keyValue? (.declared "L" [.declared "C" []]) = none := by
    cbv
  have hcomponent : unwritable.graph.component? (.declared "L" [.declared "C" []]) =
      some (.declared "C" []) :=
    TypeGraph.component?_of_isCollectionRoot rfl rfl
  have hraised : unwritable.advance UseStack.blocks 2
      ⟨.visit (.declared "C" []) .collection,
        [.leave ⟨"L", [.declared "C" []], .plain⟩, .settle ⟨"H", [], .plain⟩ [],
          .leave ⟨"H", [], .plain⟩],
        ⟨["L<C>", "H", "T", "S"]⟩⟩ =
        ⟨.give (.error (.qnameEnumBase "C" "QNAME")),
          [.leave ⟨"C", [], .collection⟩, .leave ⟨"L", [.declared "C" []], .plain⟩,
            .settle ⟨"H", [], .plain⟩ [], .leave ⟨"H", [], .plain⟩],
          ⟨["C", "L<C>", "H", "T", "S"]⟩⟩ := by
    cbv
  have hlist := (Reaches.of_advance hopened).tail
    (congrArg some (stepSettle_component hentry hcomponent .plain _ _))
  have hreach := hlist.trans (Reaches.of_advance hraised)
  have herror : unwritable.visit (.declared "H" []) .plain ⟨["T", "S"]⟩ =
      .error (.qnameEnumBase "C" "QNAME") :=
    visit_eq_of_reaches ((((hreach.tail rfl).tail rfl).tail rfl).tail rfl)
  have hdistinct : (⟨["T", "S"]⟩ : UseStack).entries.Nodup := by decide
  obtain ⟨hend, -, hstates⟩ := stack_restored unwritable (.declared "H" []) .plain hdistinct
  rw [herror] at hend
  exact ⟨hdistinct, hend, _, hreach, rfl, rfl, (hstates _ hreach).1⟩

end Classifier

end SchemaTyping
