import Mathlib.Data.List.Basic
import Mathlib.Logic.Function.Iterate
import Mathlib.Tactic.Common
import SchemaTyping.ClientName.Naming

/-!
# Walks to client names

The steps from a type make a walk through layers, to bounds, and to the targets of adapters. Where
the walk ends it has followed no adapter twice, since what comes after an adapter depends on the
name of its declaration alone. So the names that have been visited make no difference: a type is
called by the name in which its walk ends, with a pair of brackets for each layer, and a type whose
walk does not end is called `mixed`.
-/

namespace SchemaTyping

lemma bracketed_mixed : bracketed mixedName = mixedName := if_pos rfl

/-- A name that does not end in a bracket is not made by adding brackets. -/
lemma append_brackets_ne {other : String} (h : other.toList.getLast? ≠ some ']') (name : String) :
    name ++ "[]" ≠ other := by
  rintro rfl
  simp at h

/-- A bracketed name tells which name it was made from. -/
lemma bracketed_injective : Function.Injective bracketed := by
  have hmixed (name : String) : name ++ "[]" ≠ mixedName := append_brackets_ne (by decide) name
  intro name other h
  rw [bracketed, bracketed] at h
  split at h
  · next hname =>
    split at h
    · next hother => rw [hname, hother]
    · exact absurd h.symm (hmixed other)
  · split at h
    · exact absurd h (hmixed name)
    · exact (String.append_left_inj _).1 h

/-- A name other than `mixed` that does not end in a bracket is no bracketed name. -/
lemma bracketed_ne {other : String} (hmixed : other ≠ mixedName)
    (h : other.toList.getLast? ≠ some ']') (name : String) : bracketed name ≠ other := by
  rw [bracketed]
  split
  · exact hmixed.symm
  · exact append_brackets_ne h name

lemma bracketed_ne_arrayName (name : String) : bracketed name ≠ arrayName :=
  bracketed_ne (by decide) (by decide) name

namespace ClientNaming

variable {naming : ClientNaming} {type next component target : TypeUse} {name source : String}
  {followed : List String} {layers : Nat}

/-! ### Steps -/

lemma nameFrom_eq (naming : ClientNaming) (type : TypeUse) (visited : List String) :
    naming.nameFrom type visited =
      match naming.step type with
      | .ends name => name
      | .layer component => bracketed (naming.nameFrom component visited)
      | .bound next => naming.nameFrom next visited
      | .adapter source target =>
        if source ∈ visited then mixedName else naming.nameFrom target (source :: visited) := by
  rw [nameFrom]
  split <;> simp_all

lemma nameOrTarget_eq_inr_iff {declaration : Option Declaration} :
    naming.nameOrTarget name declaration = .inr target ↔
      classNames.lookup name = none ∧ isEnumeration declaration = false ∧
        naming.isRawContainer name = false ∧ adapterTarget? name declaration = some target := by
  rw [nameOrTarget]
  cases classNames.lookup name with
  | some converted => simp
  | none =>
    cases isEnumeration declaration with
    | true => simp
    | false =>
      cases naming.isRawContainer name with
      | true => simp
      | false => cases adapterTarget? name declaration <;> simp

/-- The step from an enumeration ends, whether or not it is also a container. -/
lemma step_of_enumeration (henumeration : isEnumeration (naming.graph.declaration? name) = true)
    (args : List TypeUse) : naming.step (.declared name args) = .ends "string" := by
  rw [step, if_pos henumeration]

/-- The step from a collection or stream is told by its own arguments. -/
lemma step_of_sequence {args : List TypeUse}
    (henumeration : isEnumeration (naming.graph.declaration? name) = false)
    (hsequence : naming.graph.isCollection (.declared name args) ∨
      naming.graph.isStream (.declared name args)) :
    naming.step (.declared name args) = sequenceStep args := by
  rw [step, henumeration, if_pos ((Bool.or_eq_true _ _).mpr hsequence)]
  rfl

/-- When a step leads to the target of an adapter. -/
lemma step_declared_eq_adapter_iff {args : List TypeUse} :
    naming.step (.declared name args) = .adapter source target ↔ name = source ∧
      (naming.graph.isCollection (.declared name args) = false ∧
        naming.graph.isStream (.declared name args) = false) ∧
      naming.nameOrTarget name (naming.graph.declaration? name) = .inr target := by
  rw [step]
  constructor
  · intro h
    split at h
    · cases h
    · split at h
      · unfold sequenceStep at h
        split at h <;> cases h
      · next hsequence =>
        split at h
        · cases h
        · next found hfound =>
          cases h
          exact ⟨rfl, by simpa using hsequence, hfound⟩
  · rintro ⟨rfl, ⟨hcollection, hstream⟩, htarget⟩
    rw [(nameOrTarget_eq_inr_iff.1 htarget).2.1, hcollection, hstream, htarget]
    rfl

/-- The target of an adapter depends on the name of its declaration alone. -/
lemma target_unique {other target' : TypeUse} (h : naming.step type = .adapter source target)
    (hother : naming.step other = .adapter source target') : target = target' := by
  have hnamed {type target : TypeUse} (h : naming.step type = .adapter source target) :
      naming.nameOrTarget source (naming.graph.declaration? source) = .inr target := by
    cases type with
    | declared name args =>
      obtain ⟨rfl, -, htarget⟩ := step_declared_eq_adapter_iff.1 h
      exact htarget
    | primitive | array => cases h
    | var name bound => cases bound <;> cases h
    | wildcard bound => cases bound <;> cases h
  exact Sum.inr.inj ((hnamed h).symm.trans (hnamed hother))

/-! ### Walks that end -/

/-- The walk from a type ends in a name, after so many layers, and follows the adapters of these
declarations on its way. -/
inductive Ends (naming : ClientNaming) : TypeUse → List String → Nat → String → Prop where
  | name {type : TypeUse} {name : String} (hstep : naming.step type = .ends name) :
    Ends naming type [] 0 name
  | layer {type component : TypeUse} {followed : List String} {layers : Nat} {name : String}
    (hstep : naming.step type = .layer component)
    (hends : Ends naming component followed layers name) :
    Ends naming type followed (layers + 1) name
  | bound {type next : TypeUse} {followed : List String} {layers : Nat} {name : String}
    (hstep : naming.step type = .bound next) (hends : Ends naming next followed layers name) :
    Ends naming type followed layers name
  | adapter {type target : TypeUse} {source : String} {followed : List String} {layers : Nat}
    {name : String} (hstep : naming.step type = .adapter source target)
    (hends : Ends naming target followed layers name) :
    Ends naming type (source :: followed) layers name

namespace Ends

lemma unique {followed' : List String} {layers' : Nat} {name' : String}
    (h : naming.Ends type followed layers name) (h' : naming.Ends type followed' layers' name') :
    followed = followed' ∧ layers = layers' ∧ name = name' := by
  induction h generalizing followed' layers' name' with
  | name hstep =>
    cases h' with
    | name hstep' =>
      cases hstep.symm.trans hstep'
      exact ⟨rfl, rfl, rfl⟩
    | layer hstep' | bound hstep' | adapter hstep' => cases hstep.symm.trans hstep'
  | layer hstep _ ih =>
    cases h' with
    | layer hstep' hends' =>
      cases hstep.symm.trans hstep'
      obtain ⟨rfl, rfl, rfl⟩ := ih hends'
      exact ⟨rfl, rfl, rfl⟩
    | name hstep' | bound hstep' | adapter hstep' => cases hstep.symm.trans hstep'
  | bound hstep _ ih =>
    cases h' with
    | bound hstep' hends' =>
      cases hstep.symm.trans hstep'
      exact ih hends'
    | name hstep' | layer hstep' | adapter hstep' => cases hstep.symm.trans hstep'
  | adapter hstep _ ih =>
    cases h' with
    | adapter hstep' hends' =>
      cases hstep.symm.trans hstep'
      obtain ⟨rfl, rfl, rfl⟩ := ih hends'
      exact ⟨rfl, rfl, rfl⟩
    | name hstep' | layer hstep' | bound hstep' => cases hstep.symm.trans hstep'

/-- After an adapter that is followed there is less to follow. -/
lemma exists_after (h : naming.Ends type followed layers name) (hsource : source ∈ followed) :
    ∃ other target rest layers', naming.step other = .adapter source target ∧
      naming.Ends target rest layers' name ∧ rest.length < followed.length := by
  induction h with
  | name hstep => cases hsource
  | layer hstep _ ih => exact ih hsource
  | bound hstep _ ih => exact ih hsource
  | @adapter type target head followed layers name hstep hends ih =>
    rcases List.mem_cons.1 hsource with rfl | hrest
    · exact ⟨type, target, followed, layers, hstep, hends, Nat.lt_succ_self _⟩
    · obtain ⟨other, target', rest, layers', hother, hafter, hlength⟩ := ih hrest
      exact ⟨other, target', rest, layers', hother, hafter, Nat.lt_succ_of_lt hlength⟩

/-- A walk that ends follows the adapter of no declaration twice. -/
lemma nodup (h : naming.Ends type followed layers name) : followed.Nodup := by
  induction h with
  | name hstep => exact List.nodup_nil
  | layer hstep _ ih => exact ih
  | bound hstep _ ih => exact ih
  | adapter hstep hends ih =>
    refine List.nodup_cons.2 ⟨fun hsource => ?_, ih⟩
    -- after the second time the walk would be the same as after the first time
    obtain ⟨other, target', rest, layers', hother, hafter, hlength⟩ := hends.exists_after hsource
    obtain rfl := target_unique hstep hother
    obtain ⟨rfl, -, -⟩ := hends.unique hafter
    exact absurd hlength (Nat.lt_irrefl _)

/-- A walk that ends gives its name, whatever else has been visited. -/
lemma nameFrom_eq (h : naming.Ends type followed layers name) {visited : List String}
    (hvisited : followed.Disjoint visited) :
    naming.nameFrom type visited = bracketed^[layers] name := by
  induction h generalizing visited with
  | name hstep =>
    rw [ClientNaming.nameFrom_eq, hstep]
    rfl
  | layer hstep _ ih =>
    rw [ClientNaming.nameFrom_eq, hstep, Function.iterate_succ_apply']
    exact congrArg bracketed (ih hvisited)
  | bound hstep _ ih =>
    rw [ClientNaming.nameFrom_eq, hstep]
    exact ih hvisited
  | adapter hstep hends ih =>
    obtain ⟨hsource, hrest⟩ := List.disjoint_cons_left.1 hvisited
    rw [ClientNaming.nameFrom_eq, hstep]
    dsimp only
    rw [if_neg hsource]
    exact ih (List.disjoint_cons_right.2 ⟨(List.nodup_cons.1 (hends.adapter hstep).nodup).1, hrest⟩)

end Ends

/-! ### Walks that do not end -/

/-- A type whose walk does not end is called `mixed`, whatever has been visited. -/
lemma nameFrom_of_endless (h : ∀ followed layers name, ¬ naming.Ends type followed layers name)
    (visited : List String) : naming.nameFrom type visited = mixedName := by
  fun_induction nameFrom naming type visited with
  | case1 type visited name hstep => exact absurd (.name hstep) (h [] 0 name)
  | case2 type visited component hstep ih =>
    rw [ih fun followed layers name hends => h followed (layers + 1) name (.layer hstep hends)]
    exact bracketed_mixed
  | case3 type visited next hstep ih =>
    exact ih fun followed layers name hends => h followed layers name (.bound hstep hends)
  | case4 => rfl
  | case5 type visited source target hstep hvisited ih =>
    exact ih fun followed layers name hends =>
      h (source :: followed) layers name (.adapter hstep hends)

/-! ### Names along a walk -/

lemma typeName_of_ends (h : naming.step type = .ends name) : naming.typeName type = name := by
  rw [typeName, nameFrom_eq, h]

lemma typeName_of_layer (h : naming.step type = .layer component) :
    naming.typeName type = bracketed (naming.typeName component) := by
  rw [typeName, nameFrom_eq, h]
  rfl

lemma typeName_of_bound (h : naming.step type = .bound next) :
    naming.typeName type = naming.typeName next := by
  rw [typeName, nameFrom_eq, h]
  rfl

/-- A type that is adapted is called like the type in its place. -/
theorem typeName_of_adapter (h : naming.step type = .adapter source target) :
    naming.typeName type = naming.typeName target := by
  by_cases hends : ∃ followed layers name, naming.Ends target followed layers name
  · obtain ⟨followed, layers, name, hends⟩ := hends
    rw [typeName, typeName, hends.nameFrom_eq (List.disjoint_nil_right _),
      (hends.adapter h).nameFrom_eq (List.disjoint_nil_right _)]
  · have hendless : ∀ followed layers name, ¬ naming.Ends target followed layers name :=
      fun followed layers name h => hends ⟨followed, layers, name, h⟩
    rw [typeName, typeName, nameFrom_of_endless hendless]
    refine nameFrom_of_endless (fun followed layers name hown => ?_) []
    cases hown with
    | adapter hstep htarget =>
      cases h.symm.trans hstep
      exact hendless _ _ _ htarget
    | name hstep | layer hstep | bound hstep => cases h.symm.trans hstep

end ClientNaming

end SchemaTyping
