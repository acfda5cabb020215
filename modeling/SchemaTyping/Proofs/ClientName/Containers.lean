import SchemaTyping.Proofs.ClientName.ClassNames

/-!
# Client names of containers

A collection or stream is taken apart through the arguments of its root, which are carried up to the
root along the supertypes. Its client name looks no further than the arguments of the container
itself. The two see the same element in a use of a root, but not in a container that fixes, renames
or adds a type parameter. This module says when the name of a container is the name of its component
in brackets.
-/

namespace SchemaTyping

namespace ClientNaming

variable {naming : ClientNaming} {name : String} {args : List TypeUse}

/-! ### Names by the container's own arguments -/

/-- The name of a collection or stream with the given arguments. -/
def sequenceName (naming : ClientNaming) : List TypeUse → String
  | [own] => bracketed (naming.typeName own)
  | _ => arrayName

lemma typeName_of_sequence
    (henumeration : isEnumeration (naming.graph.declaration? name) = false)
    (hsequence : naming.graph.isCollection (.declared name args) ∨
      naming.graph.isStream (.declared name args)) :
    naming.typeName (.declared name args) = naming.sequenceName args := by
  have hstep := step_of_sequence henumeration hsequence
  match args with
  | [] => exact typeName_of_ends hstep
  | [own] => exact typeName_of_layer hstep
  | _ :: _ :: _ => exact typeName_of_ends hstep

lemma sequenceName_eq_bracketed_iff {component : TypeUse} :
    naming.sequenceName args = bracketed (naming.typeName component) ↔
      ∃ own, args = [own] ∧ naming.typeName own = naming.typeName component := by
  match args with
  | [own] => simp [sequenceName, bracketed_injective.eq_iff]
  | [] | _ :: _ :: _ => simp [sequenceName, (bracketed_ne_arrayName _).symm]

/-! ### Names of components -/

/-- The only argument of a root is called like the component that it tells, unless it is a wildcard
without a bound. -/
lemma typeName_componentOfArgs_iff (naming : ClientNaming) (arg : TypeUse) :
    naming.typeName arg = naming.typeName (naming.graph.componentOfArgs [arg]) ↔
      (arg = .wildcard none → naming.typeName naming.graph.settings.object = mixedName) := by
  cases arg with
  | wildcard bound =>
    cases bound with
    | none =>
      have hmixed : naming.typeName (.wildcard none) = mixedName := typeName_of_ends rfl
      rw [hmixed]
      exact ⟨fun h _ => h.symm, fun h => (h rfl).symm⟩
    | some bound => exact iff_of_true (typeName_of_bound rfl) (fun h => by cases h)
  | primitive | declared | array | var => exact iff_of_true rfl (fun h => by cases h)

/-- A collection or stream that is no enumeration has a root. If the root has exactly one argument,
and the component that this tells is not narrowed, the name of the container is the name of the
component in brackets if and only if the container has exactly one argument of its own, with the
name of the component. Where the arguments of the container are those of the root, so that both name
the same argument, this fails only for a wildcard without a bound, and only if the object type is
not called `mixed`. -/
theorem typeName_of_container (naming : ClientNaming) (name : String) (args : List TypeUse)
    (henumeration : isEnumeration (naming.graph.declaration? name) = false)
    (hsequence : naming.graph.isCollection (.declared name args) ∨
      naming.graph.isStream (.declared name args)) :
    ∃ root, naming.graph.sequenceRoot? (.declared name args) = some root ∧
      ∀ arg, root.args = [arg] →
        naming.graph.isTransient (naming.graph.componentOfArgs root.args) = false →
          ∃ component, naming.graph.component? (.declared name args) = some component ∧
            (naming.typeName (.declared name args) = bracketed (naming.typeName component) ↔
              ∃ own, args = [own] ∧ naming.typeName own = naming.typeName component) ∧
            (args = root.args →
              (naming.typeName (.declared name args) = bracketed (naming.typeName component) ↔
                (arg = .wildcard none →
                  naming.typeName naming.graph.settings.object = mixedName))) := by
  obtain ⟨root, hroot⟩ :=
    Option.isSome_iff_exists.1 (TypeGraph.isSome_sequenceRoot?_iff.2 hsequence)
  refine ⟨root, hroot, fun arg harg htransient => ?_⟩
  have hnarrow : naming.graph.narrow (naming.graph.componentOfArgs root.args) =
      naming.graph.componentOfArgs [arg] := by
    rw [TypeGraph.narrow, htransient, harg]
    rfl
  rw [typeName_of_sequence henumeration hsequence]
  refine ⟨_, TypeGraph.component?_of_root hroot hnarrow, sequenceName_eq_bracketed_iff,
    fun hargs => ?_⟩
  rw [sequenceName_eq_bracketed_iff, hargs, harg, ← typeName_componentOfArgs_iff]
  simp

/-- Lists `L`, and a list `I` of elements `E` that has no arguments of its own. -/
def fixedList : TypeGraph where
  declarations := OrderedMap.empty.insert "I"
    { Declaration.bare "I" with supertypes := [.declared "L" [.declared "E" []]] }
  packages := ∅
  settings := ⟨"O", .ofList ["L"], ∅, ∅⟩

/-- A use of a list itself has the name of its element in brackets. -/
theorem list_named_after_element :
    fixedList.isCollection (.declared "L" [.declared "E" []]) ∧
      ∃ component,
        fixedList.component? (.declared "L" [.declared "E" []]) = some component ∧
          fixedList.naming.typeName (.declared "L" [.declared "E" []]) =
            bracketed (fixedList.naming.typeName component) := by
  have hcollection : fixedList.isCollection (.declared "L" [.declared "E" []]) := by
    cbv
  obtain ⟨root, hroot, hcontainer⟩ := typeName_of_container fixedList.naming "L" [.declared "E" []]
    rfl (.inl hcollection)
  have hown : fixedList.sequenceRoot? (.declared "L" [.declared "E" []]) =
      some (.declared "L" [.declared "E" []]) :=
    TypeGraph.sequenceRoot?_of_isCollectionRoot rfl _
  obtain rfl := Option.some.inj (hown.symm.trans hroot)
  obtain ⟨component, hcomponent, -, hname⟩ := hcontainer (.declared "E" []) rfl rfl
  exact ⟨hcollection, component, hcomponent, (hname rfl).2 fun h => by cases h⟩

/-- A list that has no arguments of its own is taken apart into elements, but is called after none.
-/
theorem fixed_list_not_named_after_element :
    isEnumeration (fixedList.declaration? "I") = false ∧
      fixedList.sequenceRoot? (.declared "I" []) = some (.declared "L" [.declared "E" []]) ∧
      fixedList.component? (.declared "I" []) = some (.declared "E" []) ∧
      fixedList.naming.typeName (.declared "E" []) = "\\E" ∧
      fixedList.naming.typeName (.declared "I" []) = "array" := by
  have hroot : fixedList.sequenceRoot? (.declared "I" []) =
      some (.declared "L" [.declared "E" []]) := by
    cbv
  have helement : fixedList.naming.typeName (.declared "E" []) = "\\E" := by
    rw [typeName_of_isPlain (.of_undeclared rfl (by decide) (by decide) (by decide) (by decide))]
    decide
  have hsequence := TypeGraph.isSome_sequenceRoot?_iff.1 (Option.isSome_of_eq_some hroot)
  exact ⟨rfl, hroot, TypeGraph.component?_of_root hroot rfl, helement,
    typeName_of_sequence rfl hsequence⟩

end ClientNaming

end SchemaTyping
