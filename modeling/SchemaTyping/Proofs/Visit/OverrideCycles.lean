import SchemaTyping.Proofs.Guard.Transparency
import SchemaTyping.Proofs.Visit.Layers

/-!
# Cycles of overrides

Declarations may be overridden by each other: by a hint, by the type that one is serialized as, or
by an adapter. Whoever follows such overrides for ever comes to a cycle. A use is then classified as
the use at which the cycle was entered, cut short: this is the first one that is met again while it
is open. Neither the way to the cycle nor the way round it leaves anything in the result.
-/

namespace SchemaTyping

/-! ### Following overrides -/

/-- A declaration has one override, a plain use of a name, and nothing that is stronger. An adapter
does not lead back to what it adapts. -/
inductive Declaration.OverriddenBy (declaration : Declaration) (name next : String) : Prop where
  | hint (hhint : declaration.typeHint = some (.declared next []))
      (hcustom : declaration.hasCustomSerializer = false)
      (hsubstitute : declaration.substitute? = none) (htarget : declaration.target? = none)
  | substitute (hhint : declaration.typeHint = none)
      (hsubstitute : declaration.substitute? = some (.declared next []))
      (htarget : declaration.target? = none)
  | adapter (hhint : declaration.typeHint = none) (hsubstitute : declaration.substitute? = none)
      (htarget : declaration.target? = some (.declared next []))
      (hname : next ≠ name) (hown : next ≠ declaration.name)

/-- The declaration of a name has one override, and that leads to another name. -/
def TypeGraph.Overrides (graph : TypeGraph) (name next : String) : Prop :=
  ∃ declaration, graph.declaration? name = some declaration ∧ declaration.OverriddenBy name next

/-- The overrides from a name come to a cycle, which is entered at some name: the names of the tail
and of the cycle are different ones, and the last of them leads back to the entry. -/
def TypeGraph.EntersCycle (graph : TypeGraph) (start entry : String) : Prop :=
  ∃ tail cycle : List String, (tail ++ entry :: cycle).head? = some start ∧
    (tail ++ entry :: cycle).Nodup ∧
    (tail ++ entry :: cycle ++ [entry]).IsChain graph.Overrides

namespace TypeGraph

variable {graph : TypeGraph} {name next start : String} {names path : List String}

lemma Overrides.unique {other : String} (h : graph.Overrides name next)
    (hother : graph.Overrides name other) : next = other := by
  obtain ⟨declaration, hdeclaration, hnext⟩ := h
  obtain ⟨_, hdeclaration', hother⟩ := hother
  cases Option.some.inj (hdeclaration.symm.trans hdeclaration')
  cases hnext <;> cases hother <;> simp_all

/-- Names whose overrides stay among them are not left. -/
lemma subset_of_isChain (hnames : ∀ name ∈ names, ∃ next ∈ names, graph.Overrides name next)
    (hchain : (start :: path).IsChain graph.Overrides) (hstart : start ∈ names) :
    start :: path ⊆ names := by
  induction path generalizing start with
  | nil => exact List.cons_subset.2 ⟨hstart, List.nil_subset _⟩
  | cons next path ih =>
    obtain ⟨hnext, hrest⟩ := List.isChain_cons_cons.1 hchain
    obtain ⟨_, hmem, hown⟩ := hnames start hstart
    obtain rfl := hnext.unique hown
    exact List.cons_subset.2 ⟨hstart, ih hrest hmem⟩

/-- A way along overrides that stay among finitely many names comes to a cycle. -/
lemma exists_entersCycle_of_path {name : String} {path : List String}
    (hnames : ∀ name ∈ names, ∃ next ∈ names, graph.Overrides name next)
    (hstart : (path ++ [name]).head? = some start) (hsubset : path ++ [name] ⊆ names)
    (hnodup : (path ++ [name]).Nodup) (hchain : (path ++ [name]).IsChain graph.Overrides) :
    ∃ entry, graph.EntersCycle start entry := by
  obtain ⟨next, hmem, hnext⟩ := hnames name (hsubset List.mem_concat_self)
  have hlonger : (path ++ [name] ++ [next]).IsChain graph.Overrides :=
    List.isChain_append.2 ⟨hchain, .singleton next, by simpa using hnext⟩
  by_cases hclosed : next ∈ path ++ [name]
  · obtain ⟨tail, cycle, hpath⟩ := List.append_of_mem hclosed
    rw [hpath] at hstart hnodup hlonger
    exact ⟨next, tail, cycle, hstart, hnodup, hlonger⟩
  · have hdistinct : (path ++ [name] ++ [next]).Nodup :=
      List.nodup_append.2 ⟨hnodup, List.nodup_singleton next, by grind⟩
    have hwithin : path ++ [name] ++ [next] ⊆ names :=
      List.append_subset.2 ⟨hsubset, by simpa using hmem⟩
    have hhead : (path ++ [name] ++ [next]).head? = some start := by
      rw [List.head?_append, hstart, Option.some_or]
    -- the way cannot get longer than the list of names
    have hlength := hdistinct.length_le_of_subset hwithin
    exact exists_entersCycle_of_path hnames hhead hwithin hdistinct hlonger
termination_by names.length - path.length
decreasing_by
  simp only [List.length_append, List.length_singleton] at hlength ⊢
  omega

lemma exists_entersCycle (hnames : ∀ name ∈ names, ∃ next ∈ names, graph.Overrides name next)
    (hstart : start ∈ names) : ∃ entry, graph.EntersCycle start entry := by
  have hsubset : [] ++ [start] ⊆ names := by simpa using hstart
  exact exists_entersCycle_of_path hnames rfl hsubset (List.nodup_singleton start)
    (.singleton start)

end TypeGraph

/-! ### Open uses without arguments -/

/-- A plain use passes the guard while only other plain uses are open. -/
lemma UseStack.not_blocks_of_plain {stack : UseStack} {name : String}
    (hstack : ∀ text ∈ stack, '<' ∉ text.toList) (hname : '<' ∉ name.toList)
    (hnew : name ∉ stack) : ¬ stack.blocks name (.declared name []) := by
  have hnone : ∀ text ∈ stack.entries, ¬ isUseOf name text := by
    intro text htext huse
    have hopen : text = name := (isUseOf_text_iff hname (hstack text htext) []).1 huse
    exact hnew (hopen ▸ htext)
  have hcount : stack.usesOf name = 0 := List.countP_eq_zero.2 hnone
  simp only [blocks, Bool.or_eq_true, decide_eq_true_eq, not_or, hcount]
  exact ⟨hnew, by decide⟩

lemma UseStack.mem_foldl_enter {stack : UseStack} {names : List String} {name : String} :
    name ∈ names.foldl UseStack.enter stack ↔ name ∈ names ∨ name ∈ stack := by
  induction names generalizing stack with
  | nil => simp
  | cons first rest ih =>
    rw [List.foldl_cons, ih, UseStack.mem_iff, entries_enter, List.mem_cons, List.mem_cons,
      UseStack.mem_iff]
    tauto

/-! ### Visits along overrides -/

namespace Classifier

variable {classifier : Classifier} {name next start entry : String} {path : List String}
  {stack : UseStack}

/-- The override is the strongest replacement; what is weaker is no type. -/
lemma replacements_of_overrides (h : classifier.graph.Overrides name next) :
    ∃ weaker, classifier.replacements name (.declared name []) =
        weaker ++ [.type (.declared next [])] ∧ Replacement.uses weaker = [] := by
  obtain ⟨declaration, hdeclaration, hnext⟩ := h
  simp only [replacements, hdeclaration, Declaration.replacements, TypeGraph.adapting?]
  cases hnext with
  | hint hhint hcustom hsubstitute htarget =>
    exact ⟨[], by simp [hhint, hcustom, hsubstitute, htarget], rfl⟩
  | substitute hhint hsubstitute htarget =>
    refine ⟨if declaration.hasCustomSerializer then [.unstructured] else [],
      by simp [hhint, hsubstitute, htarget], ?_⟩
    split <;> rfl
  | adapter hhint hsubstitute htarget hname hown =>
    refine ⟨if declaration.hasCustomSerializer then [.unstructured] else [], ?_, ?_⟩
    · have hother : TypeUse.declared next [] ≠ declaration.asType := fun h =>
        hown (TypeUse.declared.inj h).1
      simp [hhint, hsubstitute, htarget, hname, hother, Option.filter]
    · split <;> rfl

/-- Replacements that are no types are not in error. -/
lemma visitReplacements_of_uses_eq_nil {replacements : List Replacement}
    (h : Replacement.uses replacements = []) (stack : UseStack) :
    ∃ found, classifier.visitReplacements replacements stack = .ok found := by
  induction replacements with
  | nil => exact ⟨none, classifier.visitReplacements_nil stack⟩
  | cons replacement rest ih =>
    cases replacement with
    | unstructured =>
      obtain ⟨found, hfound⟩ := ih h
      exact ⟨some (found.getD .object), by rw [visitReplacements_unstructured, hfound]; rfl⟩
    | type use => cases h

/-- A use that passes the guard is what overrides it, inside the layer of its context. -/
lemma visit_of_overrides (h : classifier.graph.Overrides name next)
    (hpass : ¬ stack.blocks name (.declared name [])) (context : Context) :
    classifier.visit (.declared name []) context stack =
      context.wrap <$> classifier.visit (.declared next []) .plain (stack.enter name) := by
  obtain ⟨weaker, hreplacements, huses⟩ := replacements_of_overrides h
  obtain ⟨found, hfound⟩ := classifier.visitReplacements_of_uses_eq_nil huses (stack.enter name)
  exact visit_of_replaced hpass hreplacements hfound context

/-- A way along overrides opens its names one after the other, and adds no layer. -/
lemma visit_of_isChain (hchain : (start :: path ++ [entry]).IsChain classifier.graph.Overrides)
    (hnodup : (start :: path).Nodup) (hnew : ∀ name ∈ start :: path, name ∉ stack)
    (hpath : ∀ name ∈ start :: path, '<' ∉ name.toList)
    (hstack : ∀ text ∈ stack, '<' ∉ text.toList) (context : Context) :
    classifier.visit (.declared start []) context stack = context.wrap <$>
      classifier.visit (.declared entry []) .plain
        ((start :: path).foldl UseStack.enter stack) := by
  have hpass := UseStack.not_blocks_of_plain hstack (hpath start List.mem_cons_self)
    (hnew start List.mem_cons_self)
  induction path generalizing start stack context with
  | nil => exact visit_of_overrides (List.isChain_pair.1 hchain) hpass context
  | cons next path ih =>
    obtain ⟨hnext, hrest⟩ := List.isChain_cons_cons.1 hchain
    obtain ⟨hstart, hnodup⟩ := List.nodup_cons.1 hnodup
    have hnew' : ∀ name ∈ next :: path, name ∉ stack.enter start := by
      rintro name hname (_ | ⟨_, hopen⟩)
      · exact hstart hname
      · exact hnew name (List.mem_cons_of_mem _ hname) hopen
    have hpath' : ∀ name ∈ next :: path, '<' ∉ name.toList := fun name hname =>
      hpath name (List.mem_cons_of_mem _ hname)
    have hstack' : ∀ text ∈ stack.enter start, '<' ∉ text.toList :=
      List.forall_mem_cons.2 ⟨hpath start List.mem_cons_self, hstack⟩
    rw [visit_of_overrides hnext hpass, ih hrest hnodup hnew' hpath' hstack' .plain
      (UseStack.not_blocks_of_plain hstack' (hpath' next List.mem_cons_self)
        (hnew' next List.mem_cons_self)), Context.wrap_plain_map]
    rfl

/-- A name whose overrides come to a cycle is classified as the entry of the cycle, cut short. -/
lemma visit_of_entersCycle {names : List String}
    (hnames : ∀ name ∈ names, ∃ next ∈ names, classifier.graph.Overrides name next)
    (hlegible : ∀ name ∈ names, '<' ∉ name.toList) (hstart : start ∈ names)
    (hentry : classifier.graph.EntersCycle start entry) (context : Context) :
    classifier.visit (.declared start []) context ∅ =
      .ok (context.wrap (classifier.cutShort (.declared entry []))) := by
  obtain ⟨tail, cycle, hhead, hnodup, hchain⟩ := hentry
  obtain ⟨path, hpath⟩ := List.head?_eq_some_iff.1 hhead
  have hmem : entry ∈ start :: path := hpath ▸ List.mem_append_right tail List.mem_cons_self
  rw [hpath] at hnodup hchain
  have hsubset : start :: path ⊆ names :=
    TypeGraph.subset_of_isChain hnames (List.isChain_append.1 hchain).1 hstart
  rw [visit_of_isChain hchain hnodup (fun _ _ h => by cases h)
    (fun name hname => hlegible name (hsubset hname)) (fun _ h => by cases h) context]
  -- all names on the way are open when the entry is met again
  have hopen : entry ∈ (start :: path).foldl UseStack.enter ∅ :=
    UseStack.mem_foldl_enter.2 (.inl hmem)
  have hblocks : ((start :: path).foldl UseStack.enter ∅).blocks entry (.declared entry []) := by
    rw [UseStack.blocks, Bool.or_eq_true, decide_eq_true_eq]
    exact .inl hopen
  rw [visit_of_blocks _ hblocks]
  rfl

/-- Among finitely many names that are overridden by each other, whoever follows the overrides comes
to a cycle. Whatever sorts of overrides there are on the way, a name is then an object, or an array
of objects if the entry of the cycle is a collection, and has one array more inside a layer. -/
theorem override_cycle_cut_at_entry (classifier : Classifier) {names : List String}
    (hnames : ∀ name ∈ names, ∃ next ∈ names, classifier.graph.Overrides name next)
    (hlegible : ∀ name ∈ names, '<' ∉ name.toList) {start : String} (hstart : start ∈ names) :
    (∃ entry, classifier.graph.EntersCycle start entry) ∧
      ∀ entry, classifier.graph.EntersCycle start entry →
        classifier.classify (.declared start []) =
            .ok (if classifier.graph.isCollection (.declared entry []) then .array .object
              else .object) ∧
          ∀ context : Context, context.wraps →
            classifier.visit (.declared start []) context ∅ =
              .ok (.array (if classifier.graph.isCollection (.declared entry []) then .array .object
                else .object)) := by
  refine ⟨TypeGraph.exists_entersCycle hnames hstart, fun entry hentry => ?_⟩
  have hvisit := visit_of_entersCycle hnames hlegible hstart hentry
  refine ⟨hvisit .plain, fun context hwraps => ?_⟩
  rw [hvisit context, Context.wrap, hwraps]
  rfl

/-- A tail from `X` into a cycle of `E` and `F`, by a hint, a serialization and an adapter. `E` is a
list. -/
def overrideCycle : Classifier where
  graph :=
    { declarations := ((OrderedMap.empty.insert "X"
        { Declaration.bare "X" with typeHint := some (.declared "E" []) }).insert "E"
        { Declaration.bare "E" with
          supertypes := [.declared "L" []]
          serialization := some ⟨true, some (.declared "F" [])⟩ }).insert "F"
        { Declaration.bare "F" with adapter := some ⟨.declared "E" [], none⟩ }
      packages := ∅
      settings := ⟨"O", .ofList ["L"], ∅, ∅⟩ }
  registry := ∅

/-- From `X` the cycle is entered at `E`; so a use of `X` is an array of objects, and an array of
such arrays inside a layer. -/
theorem tail_into_cycle_of_list :
    (∀ name ∈ ["X", "E", "F"], ∃ next ∈ ["X", "E", "F"], overrideCycle.graph.Overrides name next) ∧
      overrideCycle.graph.EntersCycle "X" "E" ∧
      overrideCycle.graph.isCollection (.declared "E" []) ∧
      overrideCycle.classify (.declared "X" []) = .ok (.array .object) ∧
      overrideCycle.visit (.declared "X" []) .collection ∅ = .ok (.array (.array .object)) := by
  have hhint : overrideCycle.graph.Overrides "X" "E" := ⟨_, rfl, .hint rfl rfl rfl rfl⟩
  have hsubstitute : overrideCycle.graph.Overrides "E" "F" := ⟨_, rfl, .substitute rfl rfl rfl⟩
  have hadapter : overrideCycle.graph.Overrides "F" "E" :=
    ⟨_, rfl, .adapter rfl rfl rfl (by decide) (by decide)⟩
  have hnames : ∀ name ∈ ["X", "E", "F"],
      ∃ next ∈ ["X", "E", "F"], overrideCycle.graph.Overrides name next := by
    simpa using ⟨.inr (.inl hhint), .inr (.inr hsubstitute), .inr (.inl hadapter)⟩
  have hentry : overrideCycle.graph.EntersCycle "X" "E" := by
    refine ⟨["X"], ["F"], rfl, by decide, ?_⟩
    simpa using ⟨hhint, hsubstitute, hadapter⟩
  have hcollection : overrideCycle.graph.isCollection (.declared "E" []) := by
    cbv
  have hstart : "X" ∈ ["X", "E", "F"] := List.mem_cons_self
  obtain ⟨-, hresult⟩ := override_cycle_cut_at_entry overrideCycle hnames (by decide) hstart
  obtain ⟨hclassify, hlayer⟩ := hresult "E" hentry
  rw [hcollection] at hclassify hlayer
  exact ⟨hnames, hentry, hcollection, hclassify, hlayer .collection rfl⟩

end Classifier

end SchemaTyping
