import SchemaTyping.Proofs.Graph.Search
import SchemaTyping.Proofs.Run.OpenUses

/-!
# Termination within limits

Every run ends, from whatever stack it begins. In a run from the empty stack no name ever has more
than `maxNestedUses` open uses, and all open uses have names of the root type or of the graph, so
the stack never grows beyond that many entries for each of these names.
-/

namespace SchemaTyping

open Run

namespace Classifier

variable {classifier : Classifier}

/-- What a run from the empty stack keeps: the texts of the open uses, the limit for each name, and
the names to which the classification may lead. -/
structure Bounded (names : List String) (state : State) : Prop where
  entries : state.stack.entries = state.opened.map (·.use.text)
  nesting : ∀ name, state.nesting name ≤ maxNestedUses
  within : state.Within names

lemma Bounded.initial (type : TypeUse) (context : Context) :
    Bounded (classifier.scope type) (.initial type context ∅) where
  entries := rfl
  nesting _ := Nat.zero_le _
  within :=
    { task := by simp [State.initial, Task.uses, scope]
      frames := by simp [State.initial] }

lemma Bounded.step {names : List String} (hgraph : classifier.graph.names ⊆ names)
    {state next : State} (h : Bounded names state)
    (hstep : classifier.step UseStack.blocks state = some next) : Bounded names next := by
  have hentries : state.stack.entries = state.opened.map (·.use.text) ++ [] := by
    rw [List.append_nil, h.entries]
  refine ⟨?_, nesting_of_step hstep hentries h.nesting, within_of_step hgraph hstep h.within⟩
  rw [entries_of_step hstep hentries, List.append_nil]

lemma Bounded.of_reaches {type : TypeUse} {context : Context} {state : State}
    (h : classifier.Reaches UseStack.blocks (.initial type context ∅) state) :
    Bounded (classifier.scope type) state := by
  induction h with
  | refl => exact .initial type context
  | tail _ hstep ih => exact ih.step (List.subset_append_left _ _) hstep

/-- Names that are listed no more than so many times each make up no longer list. -/
lemma length_le_mul_card {listed names : List String} {limit : Nat} (hsub : listed ⊆ names)
    (hcount : ∀ name, listed.count name ≤ limit) : listed.length ≤ limit * names.toFinset.card := by
  calc listed.length
      = ∑ name ∈ listed.toFinset, listed.count name :=
        (List.sum_toFinset_count_eq_length listed).symm
    _ ≤ listed.toFinset.card • limit := Finset.sum_le_card_nsmul _ _ _ fun name _ => hcount name
    _ ≤ names.toFinset.card • limit :=
        Nat.mul_le_mul_right _ (Finset.card_le_card fun name hname =>
          List.mem_toFinset.2 (hsub (List.mem_toFinset.1 hname)))
    _ = limit * names.toFinset.card := Nat.mul_comm _ _

lemma Bounded.length_le {names : List String} {state : State} (h : Bounded names state) :
    state.stack.length ≤ maxNestedUses * names.toFinset.card := by
  have hlength := length_le_mul_card (openNames_subset h.within) h.nesting
  rw [List.length_map] at hlength
  rwa [UseStack.length, h.entries, List.length_map]

/-- No run goes on for ever: from every stack it ends with the result of the visit and the stack
with which it began. From the empty stack, the stack always holds the texts of the open uses, no
more than `maxNestedUses` of one name, and no others than those of names in the scope. -/
theorem run_finite_and_stack_bounded (classifier : Classifier) (type : TypeUse)
    (context : Context) (stack : UseStack) :
    Acc (fun next state => classifier.step UseStack.blocks state = some next)
        (.initial type context stack) ∧
      classifier.Reaches UseStack.blocks (.initial type context stack)
        (.final (classifier.visit type context stack) stack) ∧
      ∀ state, classifier.Reaches UseStack.blocks (.initial type context ∅) state →
        state.stack.entries = state.opened.map (·.use.text) ∧
          (∀ name, state.nesting name ≤ maxNestedUses) ∧
          state.stack.length ≤ maxNestedUses * (classifier.scope type).toFinset.card := by
  have hfinal := classifier.reaches_final type context stack
  refine ⟨hfinal.acc rfl, hfinal, fun state hstate => ?_⟩
  have hbounded := Bounded.of_reaches hstate
  exact ⟨hbounded.entries, hbounded.nesting, hbounded.length_le⟩

/-- A class whose component is an ever larger use of the class: `W<T>` is a list of `W<L<T>>`. -/
def growing : Classifier where
  graph :=
    { declarations := OrderedMap.empty.insert "W"
        { Declaration.bare "W" with
          typeParams := ["T"]
          supertypes := [.declared "L" [.declared "W" [.declared "L" [.var "T" none]]]] }
      packages := ∅
      settings := ⟨"O", .ofList ["L"], ∅, ∅⟩ }
  registry := ∅

/-- The run of `W<S>` passes a state with two open uses of the growing class. -/
theorem growing_stack_bounded :
    ∃ state, growing.Reaches UseStack.blocks
        (.initial (.declared "W" [.declared "S" []]) .plain ∅) state ∧
      state.stack.entries = ["W<L<S>>", "W<S>"] ∧
      state.stack.entries = state.opened.map (·.use.text) ∧
      state.nesting "W" ≤ maxNestedUses := by
  have hentry : growing.graph.keyValue? (.declared "W" [.declared "S" []]) = none := by
    cbv
  have hroot : growing.graph.sequenceRoot? (.declared "W" [.declared "S" []]) =
      some (.declared "L" [.declared "W" [.declared "L" [.declared "S" []]]]) := by
    cbv
  have hcomponent : growing.graph.component? (.declared "W" [.declared "S" []]) =
      some (.declared "W" [.declared "L" [.declared "S" []]]) :=
    TypeGraph.component?_of_root hroot rfl
  have henter : growing.step UseStack.blocks
      (.initial (.declared "W" [.declared "S" []]) .plain ∅) =
      some ⟨.settle ⟨"W", [.declared "S" []], .plain⟩ none [],
        [.leave ⟨"W", [.declared "S" []], .plain⟩], ⟨["W<S>"]⟩⟩ :=
    growing.step_of_not_blocks (UseStack.not_blocks_empty _ _) .plain []
  have hsettle : growing.step UseStack.blocks
      ⟨.settle ⟨"W", [.declared "S" []], .plain⟩ none [],
        [.leave ⟨"W", [.declared "S" []], .plain⟩], ⟨["W<S>"]⟩⟩ =
      some ⟨.visit (.declared "W" [.declared "L" [.declared "S" []]]) .collection,
        [.leave ⟨"W", [.declared "S" []], .plain⟩], ⟨["W<S>"]⟩⟩ :=
    congrArg some (stepSettle_component hentry hcomponent .plain _ _)
  have hpass : ¬ (⟨["W<S>"]⟩ : UseStack).blocks "W"
      (.declared "W" [.declared "L" [.declared "S" []]]) := by
    decide
  have hagain := growing.step_of_not_blocks hpass .collection
    [.leave ⟨"W", [.declared "S" []], .plain⟩]
  have hreaches : growing.Reaches UseStack.blocks
      (.initial (.declared "W" [.declared "S" []]) .plain ∅) _ :=
    .head henter (.head hsettle (.single hagain))
  obtain ⟨hentries, hnesting, -⟩ := (run_finite_and_stack_bounded growing
    (.declared "W" [.declared "S" []]) .plain ∅).2.2 _ hreaches
  exact ⟨_, hreaches, by decide, hentries, hnesting "W"⟩

end Classifier

end SchemaTyping
