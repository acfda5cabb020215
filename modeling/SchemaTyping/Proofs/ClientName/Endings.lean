import Mathlib.Algebra.Group.Nat.Even
import Mathlib.Order.WellFounded
import SchemaTyping.Proofs.ClientName.Walk

/-!
# Where walks to client names end

The steps from a type follow rules of which the first one that applies counts. A walk that follows
them either ends, or goes on for ever, and then it comes round to the same adapters. The naming of
a type stops at an adapter that it has followed before, so it always ends. It finds the name in
which the walk ends, with brackets for the layers on the way, unless that name is `mixed`, and
`mixed` for a walk that has no end.
-/

namespace SchemaTyping

/-- So many pairs of brackets. -/
def brackets : Nat → String
  | 0 => ""
  | layers + 1 => brackets layers ++ "[]"

lemma append_brackets_ne_mixed {name : String} (h : name ≠ mixedName) (layers : Nat) :
    name ++ brackets layers ≠ mixedName := by
  cases layers with
  | zero => simpa [brackets] using h
  | succ layers =>
    rw [brackets, ← String.append_assoc]
    exact append_brackets_ne (by decide) _

/-- Each layer gives a pair of brackets, but none stands after `mixed`. -/
lemma iterate_bracketed (layers : Nat) (name : String) :
    bracketed^[layers] name =
      if name = mixedName then mixedName else name ++ brackets layers := by
  induction layers with
  | zero =>
    split
    · next h => exact h
    · exact String.append_empty.symm
  | succ layers ih =>
    rw [Function.iterate_succ_apply', ih]
    split
    · exact bracketed_mixed
    · next h =>
      rw [bracketed, if_neg (append_brackets_ne_mixed h layers), String.append_assoc]
      rfl

namespace ClientNaming

variable {naming : ClientNaming} {type next target : TypeUse} {name : String}
  {args : List TypeUse}

/-! ### Rules -/

/-- The declaration of a name is an enumeration. -/
def Enumerated (naming : ClientNaming) (name : String) : Prop :=
  ∃ declaration, naming.graph.declaration? name = some declaration ∧
    declaration.kind = .enumeration

/-- A declared use is a collection or stream. -/
def Sequence (naming : ClientNaming) (name : String) (args : List TypeUse) : Prop :=
  naming.graph.isCollection (.declared name args) ∨ naming.graph.isStream (.declared name args)

/-- The declaration of a name has an adapter to a type that is no use of the same name. -/
def AdaptedTo (naming : ClientNaming) (name : String) (target : TypeUse) : Prop :=
  ∃ declaration, naming.graph.declaration? name = some declaration ∧
    declaration.target? = some target ∧ target.declaredName? ≠ some name

/-- What stands for the simple name of a class: the client name that its declaration gives, if it
gives one. -/
inductive ShownAs (naming : ClientNaming) (name simple : String) : String → Prop where
  | given {declaration : Declaration} {shown : String}
    (hdeclaration : naming.graph.declaration? name = some declaration)
    (hclient : declaration.clientName = some shown) : ShownAs naming name simple shown
  | own (hclient : ∀ declaration, naming.graph.declaration? name = some declaration →
      declaration.clientName = none) : ShownAs naming name simple simple

/-- What a class is called by itself: what stands for its simple name, after its package in the
client if it has one, each with a separator before it. -/
inductive CalledAs (naming : ClientNaming) (name : String) : String → Prop where
  | withoutPackage {simple shown : String} (hname : Qualified name "" simple)
    (hshown : naming.ShownAs name simple shown) : CalledAs naming name ("\\" ++ shown)
  | inPackage {package simple shown : String} (hname : Qualified name package simple)
    (hpackage : package ≠ "") (hshown : naming.ShownAs name simple shown) :
    CalledAs naming name ("\\" ++ naming.packageName package ++ "\\" ++ shown)

/-- Where a type leads. The rules for declared uses are in the order in which they count: each one
asks that those before it do not apply. -/
inductive Rule (naming : ClientNaming) : TypeUse → NamingStep → Prop where
  | primitive (kind : PrimitiveKind) : Rule naming (.primitive kind) (.ends kind.clientName)
  | array (component : TypeUse) : Rule naming (.array component) (.layer component)
  | varBound (name : String) (bound : TypeUse) : Rule naming (.var name (some bound)) (.bound bound)
  | var (name : String) : Rule naming (.var name none) (.ends mixedName)
  | wildcardBound (bound : TypeUse) : Rule naming (.wildcard (some bound)) (.bound bound)
  | wildcard : Rule naming (.wildcard none) (.ends mixedName)
  | enumeration {name : String} {args : List TypeUse} (henumeration : naming.Enumerated name) :
    Rule naming (.declared name args) (.ends "string")
  | component {name : String} {component : TypeUse} (henumeration : ¬ naming.Enumerated name)
    (hsequence : naming.Sequence name [component]) :
    Rule naming (.declared name [component]) (.layer component)
  | sequence {name : String} {args : List TypeUse} (henumeration : ¬ naming.Enumerated name)
    (hsequence : naming.Sequence name args) (hargs : args.length ≠ 1) :
    Rule naming (.declared name args) (.ends arrayName)
  | converted {name converted : String} {args : List TypeUse}
    (henumeration : ¬ naming.Enumerated name) (hsequence : ¬ naming.Sequence name args)
    (hconverted : classNames.lookup name = some converted) :
    Rule naming (.declared name args) (.ends converted)
  | container {name : String} {args : List TypeUse} (henumeration : ¬ naming.Enumerated name)
    (hsequence : ¬ naming.Sequence name args) (hconverted : classNames.lookup name = none)
    (hcontainer : naming.isRawContainer name) :
    Rule naming (.declared name args) (.ends arrayName)
  | adapter {name : String} {args : List TypeUse} {target : TypeUse}
    (henumeration : ¬ naming.Enumerated name) (hsequence : ¬ naming.Sequence name args)
    (hconverted : classNames.lookup name = none) (hcontainer : ¬ naming.isRawContainer name)
    (hadapted : naming.AdaptedTo name target) :
    Rule naming (.declared name args) (.adapter name target)
  | named {name ending : String} {args : List TypeUse} (henumeration : ¬ naming.Enumerated name)
    (hsequence : ¬ naming.Sequence name args) (hconverted : classNames.lookup name = none)
    (hcontainer : ¬ naming.isRawContainer name)
    (hadapted : ∀ target, ¬ naming.AdaptedTo name target)
    (hcalled : naming.CalledAs name ending) : Rule naming (.declared name args) (.ends ending)

lemma enumerated_iff :
    naming.Enumerated name ↔ isEnumeration (naming.graph.declaration? name) = true := by
  simp [Enumerated, isEnumeration, Option.any_eq_true]

lemma sequence_iff : naming.Sequence name args ↔
    (naming.graph.isCollection (.declared name args) ||
      naming.graph.isStream (.declared name args)) = true := by
  rw [Sequence, Bool.or_eq_true]

lemma adaptedTo_iff : naming.AdaptedTo name target ↔
    adapterTarget? name (naming.graph.declaration? name) = some target := by
  rw [adapterTarget?, Option.filter_eq_some_iff, Option.bind_eq_some_iff, decide_eq_true_eq]
  constructor
  · rintro ⟨declaration, hdeclaration, htarget, hother⟩
    exact ⟨⟨declaration, hdeclaration, htarget⟩, hother⟩
  · rintro ⟨⟨declaration, hdeclaration, htarget⟩, hother⟩
    exact ⟨declaration, hdeclaration, htarget, hother⟩

lemma shownAs_iff {simple shown : String} : naming.ShownAs name simple shown ↔
    ((naming.graph.declaration? name).bind Declaration.clientName).getD simple = shown := by
  constructor
  · rintro (⟨hdeclaration, hclient⟩ | hclient)
    · rw [hdeclaration, Option.bind_some, hclient, Option.getD_some]
    · rw [Option.bind_eq_none_iff.2 hclient, Option.getD_none]
  · rintro rfl
    cases hshown : (naming.graph.declaration? name).bind Declaration.clientName with
    | none => exact .own (Option.bind_eq_none_iff.1 hshown)
    | some shown =>
      obtain ⟨declaration, hdeclaration, hclient⟩ := Option.bind_eq_some_iff.1 hshown
      exact .given hdeclaration hclient

lemma calledAs_iff {ending : String} : naming.CalledAs name ending ↔
    naming.className name (naming.graph.declaration? name) = ending := by
  constructor
  · rintro (⟨hname, hshown⟩ | ⟨hname, hpackage, hshown⟩)
    · obtain ⟨hpackage, rfl⟩ := qualified_iff.1 hname
      rw [className, if_pos hpackage, shownAs_iff.1 hshown]
      rfl
    · obtain ⟨rfl, rfl⟩ := qualified_iff.1 hname
      rw [className, if_neg hpackage, shownAs_iff.1 hshown]
      rfl
  · rintro rfl
    have hshown : naming.ShownAs name (simpleNameOf name)
        (((naming.graph.declaration? name).bind Declaration.clientName).getD
          (simpleNameOf name)) := shownAs_iff.2 rfl
    rw [className]
    split
    · next hpackage => exact .withoutPackage (qualified_iff.2 ⟨hpackage, rfl⟩) hshown
    · next hpackage => exact .inPackage (qualified_iff.2 ⟨rfl, rfl⟩) hpackage hshown

/-- A declared use that is no enumeration and no sequence goes where its declaration leads. -/
lemma step_of_declaration (henumeration : ¬ naming.Enumerated name)
    (hsequence : ¬ naming.Sequence name args) :
    naming.step (.declared name args) =
      (naming.nameOrTarget name (naming.graph.declaration? name)).elim .ends (.adapter name) := by
  rw [enumerated_iff] at henumeration
  rw [sequence_iff] at hsequence
  rw [step, if_neg henumeration, if_neg hsequence]
  cases naming.nameOrTarget name (naming.graph.declaration? name) <;> rfl

lemma sequenceStep_of_length_ne (h : args.length ≠ 1) : sequenceStep args = .ends arrayName := by
  match args with
  | [] => rfl
  | [_] => exact absurd rfl h
  | _ :: _ :: _ => rfl

/-- The step from a type is the one of its rule. -/
lemma Rule.step_eq {step : NamingStep} (h : naming.Rule type step) : naming.step type = step := by
  cases h with
  | primitive | array | varBound | var | wildcardBound | wildcard => rfl
  | enumeration henumeration => exact step_of_enumeration (enumerated_iff.1 henumeration) _
  | component henumeration hsequence =>
    rw [enumerated_iff, Bool.not_eq_true] at henumeration
    exact step_of_sequence henumeration hsequence
  | sequence henumeration hsequence hargs =>
    rw [enumerated_iff, Bool.not_eq_true] at henumeration
    rw [step_of_sequence henumeration hsequence, sequenceStep_of_length_ne hargs]
  | converted henumeration hsequence hconverted =>
    rw [step_of_declaration henumeration hsequence, nameOrTarget, hconverted]
    rfl
  | container henumeration hsequence hconverted hcontainer =>
    rw [step_of_declaration henumeration hsequence, nameOrTarget, hconverted]
    rw [enumerated_iff] at henumeration
    dsimp only
    rw [if_neg henumeration, if_pos hcontainer]
    rfl
  | adapter henumeration hsequence hconverted hcontainer hadapted =>
    have htarget := nameOrTarget_eq_inr_iff.2
      ⟨hconverted, by simpa [enumerated_iff] using henumeration, by simpa using hcontainer,
        adaptedTo_iff.1 hadapted⟩
    rw [step_of_declaration henumeration hsequence, htarget]
    rfl
  | named henumeration hsequence hconverted hcontainer hadapted hcalled =>
    rw [step_of_declaration henumeration hsequence, nameOrTarget, hconverted]
    rw [enumerated_iff] at henumeration
    dsimp only
    rw [if_neg henumeration, if_neg hcontainer,
      Option.eq_none_iff_forall_ne_some.2 fun target h => hadapted target (adaptedTo_iff.2 h)]
    exact congrArg NamingStep.ends (calledAs_iff.1 hcalled)

/-- There is a rule for every type. -/
lemma exists_rule (naming : ClientNaming) (type : TypeUse) : ∃ step, naming.Rule type step := by
  cases type with
  | primitive kind => exact ⟨_, .primitive kind⟩
  | array component => exact ⟨_, .array component⟩
  | var name bound =>
    cases bound with
    | none => exact ⟨_, .var name⟩
    | some bound => exact ⟨_, .varBound name bound⟩
  | wildcard bound =>
    cases bound with
    | none => exact ⟨_, .wildcard⟩
    | some bound => exact ⟨_, .wildcardBound bound⟩
  | declared name args =>
    by_cases henumeration : naming.Enumerated name
    · exact ⟨_, .enumeration henumeration⟩
    by_cases hsequence : naming.Sequence name args
    · by_cases hargs : args.length = 1
      · obtain ⟨component, rfl⟩ := List.length_eq_one_iff.1 hargs
        exact ⟨_, .component henumeration hsequence⟩
      · exact ⟨_, .sequence henumeration hsequence hargs⟩
    cases hconverted : classNames.lookup name with
    | some converted => exact ⟨_, .converted henumeration hsequence hconverted⟩
    | none =>
      by_cases hcontainer : naming.isRawContainer name
      · exact ⟨_, .container henumeration hsequence hconverted hcontainer⟩
      by_cases hadapted : ∃ target, naming.AdaptedTo name target
      · obtain ⟨target, hadapted⟩ := hadapted
        exact ⟨_, .adapter henumeration hsequence hconverted hcontainer hadapted⟩
      · exact ⟨_, .named henumeration hsequence hconverted hcontainer (not_exists.1 hadapted)
          (calledAs_iff.2 rfl)⟩

/-- The rules leave no choice. -/
lemma step_eq_iff_rule {step : NamingStep} : naming.step type = step ↔ naming.Rule type step := by
  refine ⟨fun h => ?_, Rule.step_eq⟩
  obtain ⟨step', hrule⟩ := naming.exists_rule type
  exact (hrule.step_eq.symm.trans h) ▸ hrule

/-! ### Walks without an end -/

/-- A step leads from a type to another one. -/
def Leads (naming : ClientNaming) (type next : TypeUse) : Prop :=
  naming.step type = .layer next ∨ naming.step type = .bound next ∨
    ∃ source, naming.step type = .adapter source next

/-- The walk from a type goes on for ever. -/
def Endless (naming : ClientNaming) (type : TypeUse) : Prop :=
  ∃ walk : ℕ → TypeUse, walk 0 = type ∧ ∀ i, naming.Leads (walk i) (walk (i + 1))

/-- A step leads to one type at most. -/
lemma Leads.unique {other : TypeUse} (h : naming.Leads type next)
    (hother : naming.Leads type other) : next = other := by
  rcases h with h | h | ⟨source, h⟩ <;>
    rcases hother with hother | hother | ⟨source', hother⟩ <;>
      cases h.symm.trans hother <;> rfl

/-- After its first step a walk that goes on for ever still does. -/
lemma Endless.of_leads (h : naming.Endless type) (hleads : naming.Leads type next) :
    naming.Endless next := by
  obtain ⟨walk, rfl, hwalk⟩ := h
  exact ⟨fun i => walk (i + 1), (hwalk 0).unique hleads, fun i => hwalk (i + 1)⟩

lemma not_endless_of_ends {followed : List String} {layers : Nat}
    (h : naming.Ends type followed layers name) : ¬ naming.Endless type := by
  induction h with
  | name hstep =>
    rintro ⟨walk, rfl, hwalk⟩
    rcases hwalk 0 with h | h | ⟨source, h⟩ <;> cases hstep.symm.trans h
  | layer hstep _ ih => exact fun h => ih (h.of_leads (.inl hstep))
  | bound hstep _ ih => exact fun h => ih (h.of_leads (.inr (.inl hstep)))
  | adapter hstep _ ih => exact fun h => ih (h.of_leads (.inr (.inr ⟨_, hstep⟩)))

/-- A walk that cannot go on for ever comes to an end. -/
lemma exists_ends_of_not_endless (h : ¬ naming.Endless type) :
    ∃ followed layers name, naming.Ends type followed layers name := by
  have hacc : Acc (fun next type => naming.Leads type next) type := by
    by_contra hacc
    exact h (not_acc_iff_exists_descending_chain.1 hacc)
  clear h
  induction hacc with
  | intro type _ ih =>
    cases hstep : naming.step type with
    | ends name => exact ⟨[], 0, name, .name hstep⟩
    | layer component =>
      obtain ⟨followed, layers, name, hends⟩ := ih component (.inl hstep)
      exact ⟨followed, layers + 1, name, .layer hstep hends⟩
    | bound next =>
      obtain ⟨followed, layers, name, hends⟩ := ih next (.inr (.inl hstep))
      exact ⟨followed, layers, name, .bound hstep hends⟩
    | adapter source target =>
      obtain ⟨followed, layers, name, hends⟩ := ih target (.inr (.inr ⟨source, hstep⟩))
      exact ⟨source :: followed, layers, name, .adapter hstep hends⟩

/-! ### Naming always ends -/

/-- A call of the naming leads to another one, each with a type and the visited names. -/
inductive NamingMove (naming : ClientNaming) :
    TypeUse × List String → TypeUse × List String → Prop where
  | layer {type component : TypeUse} {visited : List String}
    (hstep : naming.step type = .layer component) :
    NamingMove naming (type, visited) (component, visited)
  | bound {type next : TypeUse} {visited : List String} (hstep : naming.step type = .bound next) :
    NamingMove naming (type, visited) (next, visited)
  | adapter {type target : TypeUse} {source : String} {visited : List String}
    (hstep : naming.step type = .adapter source target) (hnew : source ∉ visited) :
    NamingMove naming (type, visited) (target, source :: visited)

/-- Each move leaves fewer names to visit, or a smaller type. -/
lemma wellFounded_namingMove (naming : ClientNaming) :
    WellFounded fun later earlier => naming.NamingMove earlier later := by
  have hmeasure := InvImage.wf (fun state : TypeUse × List String =>
    (naming.graph.unvisited state.2, sizeOf state.1)) (Prod.lex Nat.lt_wfRel Nat.lt_wfRel).wf
  refine Subrelation.wf (fun {later earlier} hmove => ?_) hmeasure
  cases hmove with
  | layer hstep => exact Prod.Lex.right _ (sizeOf_lt_of_step (.inl hstep))
  | bound hstep => exact Prod.Lex.right _ (sizeOf_lt_of_step (.inr hstep))
  | adapter hstep hnew =>
    obtain ⟨_, hdeclaration⟩ := declaration?_of_step hstep
    exact Prod.Lex.left _ _ (TypeGraph.unvisited_cons_lt hdeclaration hnew)

/-- The name of a type is found in finitely many moves. If the walk by the rules has no end, it is
`mixed`; otherwise it is the name in which the walk ends with brackets for the layers on the way, or
`mixed` if that is the name. -/
theorem typeName_by_walk (naming : ClientNaming) (type : TypeUse) :
    (∀ use step, naming.step use = step ↔ naming.Rule use step) ∧
      WellFounded (fun later earlier => naming.NamingMove earlier later) ∧
      (naming.Endless type → naming.typeName type = mixedName) ∧
      (∀ followed layers name, naming.Ends type followed layers name →
        naming.typeName type = if name = mixedName then mixedName else name ++ brackets layers) ∧
      (naming.Endless type ∨ ∃ followed layers name, naming.Ends type followed layers name) ∧
      (naming.typeName type = mixedName ↔
        naming.Endless type ∨ ∃ followed layers, naming.Ends type followed layers mixedName) := by
  have hendless : naming.Endless type → naming.typeName type = mixedName := fun h =>
    nameFrom_of_endless (fun followed layers name hends => not_endless_of_ends hends h) []
  have hends : ∀ followed layers name, naming.Ends type followed layers name →
      naming.typeName type = if name = mixedName then mixedName else name ++ brackets layers :=
    fun followed layers name hends =>
      (hends.nameFrom_eq (List.disjoint_nil_right _)).trans (iterate_bracketed layers name)
  have hcases : naming.Endless type ∨
      ∃ followed layers name, naming.Ends type followed layers name :=
    or_iff_not_imp_left.2 exists_ends_of_not_endless
  refine ⟨fun _ _ => step_eq_iff_rule, naming.wellFounded_namingMove, hendless, hends, hcases,
    fun hmixed => ?_, ?_⟩
  · refine hcases.imp_right ?_
    rintro ⟨followed, layers, name, hname⟩
    obtain rfl : name = mixedName := by
      by_contra hne
      rw [hends followed layers name hname, if_neg hne] at hmixed
      exact append_brackets_ne_mixed hne layers hmixed
    exact ⟨followed, layers, hname⟩
  · rintro (h | ⟨followed, layers, hname⟩)
    · exact hendless h
    · rw [hends followed layers mixedName hname, if_pos rfl]

/-- Two declarations that are adapted to each other. -/
def circle : ClientNaming :=
  TypeGraph.naming
    { declarations := ((OrderedMap.empty.insert "A"
        { Declaration.bare "A" with adapter := some ⟨.declared "B" [], none⟩ }).insert "B"
        { Declaration.bare "B" with adapter := some ⟨.declared "A" [], none⟩ })
      packages := ∅
      settings := ⟨"O", ∅, ∅, ∅⟩ }

/-- Where the adapters lead in a circle, the walk has no end. -/
theorem circle_of_adapters_mixed :
    circle.Endless (.declared "A" []) ∧ circle.typeName (.declared "A" []) = mixedName := by
  have hfirst : circle.step (.declared "A" []) = .adapter "A" (.declared "B" []) :=
    step_declared_eq_adapter_iff.2 ⟨rfl, ⟨by cbv, by cbv⟩,
      nameOrTarget_eq_inr_iff.2 ⟨by decide, rfl, by cbv, rfl⟩⟩
  have hsecond : circle.step (.declared "B" []) = .adapter "B" (.declared "A" []) :=
    step_declared_eq_adapter_iff.2 ⟨rfl, ⟨by cbv, by cbv⟩,
      nameOrTarget_eq_inr_iff.2 ⟨by decide, rfl, by cbv, rfl⟩⟩
  have hendless : circle.Endless (.declared "A" []) := by
    refine ⟨fun i => if Even i then .declared "A" [] else .declared "B" [], rfl, fun i => ?_⟩
    by_cases h : Even i
    · simpa [h, Nat.even_add_one] using .inr (.inr ⟨"A", hfirst⟩)
    · simpa [h, Nat.even_add_one] using .inr (.inr ⟨"B", hsecond⟩)
  exact ⟨hendless, (typeName_by_walk circle _).2.2.1 hendless⟩

end ClientNaming

end SchemaTyping
