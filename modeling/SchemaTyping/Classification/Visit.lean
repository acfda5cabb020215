import SchemaTyping.Adaptation
import SchemaTyping.Classification.Budget
import SchemaTyping.QNameTable
import SchemaTyping.Registry

/-!
# Classification of type uses

A type use is classified by what it is: a primitive type by a table, an array by its component, a
variable or wildcard by its bound, and a declared use by what its declaration is replaced with, by
the container that it is, or by what is known about its name. The context tells whether the use
is the component of an array or collection; whoever is reached through such a layer puts it
around the result.

Declared uses may lead back to themselves, or to ever larger uses of the same name. A use that is
open already, or whose name has too many open uses, is cut short.
-/

namespace SchemaTyping

/-- Through which layers a use was reached. -/
structure Context where
  inArray : Bool
  inCollection : Bool
deriving DecidableEq, Inhabited, Repr

namespace Context

/-- No layer. -/
def plain : Context := ⟨false, false⟩

/-- The component of an array. -/
def array : Context := ⟨true, false⟩

/-- The component of a collection. -/
def collection : Context := ⟨false, true⟩

/-- The context of an element inside a layer. -/
def ofWrapping : Wrapping → Context
  | .none => plain
  | .array => array
  | .collection => collection

/-- Is there a layer? -/
def wraps (context : Context) : Bool :=
  context.inArray || context.inCollection

/-- Put the layer of a context around a schema type; two layers are one. -/
def wrap (context : Context) (type : SchemaType) : SchemaType :=
  type.wrapIf context.wraps

/-- A primitive type in its context. An array of bytes is written as one string. -/
def primitive (context : Context) (kind : PrimitiveKind) : SchemaType :=
  if context.inArray ∧ kind = .byte then .string else context.wrap kind.schemaType

end Context

/-- What a declared use is replaced with. -/
inductive Replacement where
  /-- A serializer whose output is not known. -/
  | unstructured
  /-- Another type use. -/
  | type (use : TypeUse)
deriving DecidableEq, Inhabited

namespace Replacement

/-- The type uses among replacements. -/
def uses (replacements : List Replacement) : List TypeUse :=
  replacements.filterMap fun
    | unstructured => none
    | type use => some use

end Replacement

/-- What a declaration says about the classification of a use of it, from the weakest to the
strongest: a type hint, a serializer of its own, the type that it is serialized as, an adapter. -/
def Declaration.replacements (declaration : Declaration) (use : TypeUse) : List Replacement :=
  declaration.typeHint.toList.map .type ++
    (if declaration.hasCustomSerializer then [.unstructured] else []) ++
    declaration.substitute?.toList.map .type ++
    (TypeGraph.adapting? declaration use).toList.map .type

/-- A use is replaced by uses from its declaration. -/
theorem Declaration.uses_replacements_subset (declaration : Declaration) (use : TypeUse) :
    Replacement.uses (declaration.replacements use) ⊆
      declaration.supertypes ++ declaration.typeHint.toList ++
        declaration.substitute?.toList ++ declaration.target?.toList := by
  intro type htype
  simp only [Replacement.uses, List.mem_filterMap] at htype
  obtain ⟨replacement, hmem, huse⟩ := htype
  cases replacement with
  | unstructured => simp at huse
  | type use =>
    obtain rfl : use = type := by simpa using huse
    simp only [Declaration.replacements, List.mem_append, List.mem_map] at hmem
    rcases hmem with ((⟨hint, hhint, h⟩ | hcustom) | ⟨substitute, hsubstitute, h⟩) |
      ⟨target, htarget, h⟩
    · cases h
      simp_all
    · split at hcustom <;> simp at hcustom
    · cases h
      simp_all
    · cases h
      simp only [TypeGraph.adapting?, Option.mem_toList,
        Option.filter_eq_some_iff] at htarget
      simp [htarget.1]

/-- What classification depends on: the graph of declarations and what is known in advance. -/
structure Classifier where
  graph : TypeGraph
  registry : Registry

/-- The classifier of a model. -/
def Model.classifier (model : Model) : Classifier :=
  ⟨model.graph, .ofModel model⟩

namespace Classifier

/-- The replacements of a declared use; a name without a declaration has none. -/
def replacements (classifier : Classifier) (name : String) (use : TypeUse) : List Replacement :=
  match classifier.graph.declaration? name with
  | some declaration => declaration.replacements use
  | none => []

/-- The schema type of a use that is cut short. -/
def cutShort (classifier : Classifier) (use : TypeUse) : SchemaType :=
  .wrapIf (classifier.graph.isCollection use) .object

/-- What the registry says about a name, or an object. -/
def registered (classifier : Classifier) (name : String) : SchemaType :=
  (classifier.registry.lookup name).getD .object

/-- The schema type of a name by itself. An interface is an object, whatever the registry says,
and an enumeration of qualified names is a string if its table can be made. -/
def named (classifier : Classifier) (name : String) : Except MetadataError SchemaType :=
  match classifier.graph.declaration? name with
  | none => .ok (classifier.registered name)
  | some declaration =>
    match declaration.kind, declaration.qnameInfo with
    | .interface, _ => .ok .object
    | .enumeration, some info =>
      (fun _ => .string) <$>
        declaration.qnameTable info (classifier.graph.package? declaration.package)
    | _, _ => .ok (classifier.registered name)

/-! ### Names of the parts of a declared use -/

/-- Replacements have no names but those of a closed set in which the name lies. -/
theorem within_replacements {classifier : Classifier} {P : String → Prop}
    (h : classifier.graph.Closed P) {name : String} (hname : P name) (use : TypeUse) :
    ∀ replacement ∈ Replacement.uses (classifier.replacements name use),
      replacement.Within P := by
  unfold replacements
  split
  · next declaration hdecl =>
    intro replacement hreplacement
    apply h.within_of_declaration hname hdecl
    exact Declaration.uses_replacements_subset declaration use hreplacement
  · simp [Replacement.uses]

theorem names_replacements_subset (classifier : Classifier) (name : String) (use : TypeUse) :
    TypeUse.namesOfArgs (Replacement.uses (classifier.replacements name use)) ⊆
      classifier.graph.names := by
  intro n hn
  unfold replacements at hn
  split at hn
  · next declaration hdecl =>
    obtain ⟨replacement, hreplacement, hname⟩ := TypeUse.mem_namesOfArgs.1 hn
    exact TypeGraph.names_subset_of_declaration? hdecl (TypeUse.names_subset_namesOfArgs
      (declaration.uses_replacements_subset use hreplacement) hname)
  · simp [Replacement.uses, TypeUse.namesOfArgs] at hn

/-- The names to which the classification of a use may lead. -/
def scope (classifier : Classifier) (type : TypeUse) : List String :=
  classifier.graph.names ++ type.names

/-- The names to which the classification of replacements may lead. -/
def scopeOfReplacements (classifier : Classifier) (replacements : List Replacement) :
    List String :=
  classifier.graph.names ++ TypeUse.namesOfArgs (Replacement.uses replacements)

theorem mem_scope (classifier : Classifier) (name : String) (args : List TypeUse) :
    name ∈ classifier.scope (.declared name args) := by
  simp [scope, TypeUse.names]

theorem scope_subset {classifier : Classifier} {part type : TypeUse}
    (h : part.names ⊆ classifier.graph.names ++ type.names) :
    classifier.scope part ⊆ classifier.scope type := by
  intro n hn
  rcases List.mem_append.1 hn with hgraph | hpart
  · exact List.mem_append_left _ hgraph
  · exact h hpart

theorem scope_replacements_subset (classifier : Classifier) (name : String) (use : TypeUse) :
    classifier.scopeOfReplacements (classifier.replacements name use) ⊆ classifier.scope use := by
  intro n hn
  rcases List.mem_append.1 hn with hgraph | huse
  · exact List.mem_append_left _ hgraph
  · exact List.mem_append_left _ (classifier.names_replacements_subset name use huse)

theorem scope_use_subset (classifier : Classifier) (use : TypeUse) (rest : List Replacement) :
    classifier.scope use ⊆ classifier.scopeOfReplacements (.type use :: rest) := by
  intro n hn
  rcases List.mem_append.1 hn with hgraph | huse
  · exact List.mem_append_left _ hgraph
  · exact List.mem_append_right _ (by simp [Replacement.uses, TypeUse.namesOfArgs, huse])

theorem scope_rest_subset (classifier : Classifier) (use : TypeUse) (rest : List Replacement) :
    classifier.scopeOfReplacements rest ⊆ classifier.scopeOfReplacements (.type use :: rest) := by
  intro n hn
  rcases List.mem_append.1 hn with hgraph | hrest
  · exact List.mem_append_left _ hgraph
  · refine List.mem_append_right _ ?_
    have : Replacement.uses (.type use :: rest) = use :: Replacement.uses rest := rfl
    rw [this, TypeUse.namesOfArgs, List.mem_append]
    exact Or.inr hrest

/-- Whatever a declared use that is not cut short leads to has a smaller budget than the use. -/
theorem budget_lt_of_scope_subset {classifier : Classifier} {name : String}
    {args : List TypeUse} {stack : UseStack} {names : List String}
    (hblocks : ¬stack.blocks name (.declared name args))
    (hnames : names ⊆ classifier.scope (.declared name args)) :
    (stack.enter (TypeUse.declared name args).text).budget names <
      stack.budget (classifier.scope (.declared name args)) :=
  Nat.lt_of_le_of_lt (UseStack.budget_le_of_subset _ hnames)
    (UseStack.budget_enter_lt (classifier.mem_scope name args) (by simpa using hblocks))

/-! ### The visit -/

mutual
/-- Classify a use in a context, while the uses on the stack are open. -/
def visit (classifier : Classifier) (type : TypeUse) (context : Context) (stack : UseStack) :
    Except MetadataError SchemaType :=
  match type with
  | .primitive kind => .ok (context.primitive kind)
  | .array (.array inner) => .array <$> classifier.visit (.array inner) .plain stack
  | .array component => classifier.visit component .array stack
  | .var _ none | .wildcard none => .ok (context.wrap .object)
  | .var _ (some bound) | .wildcard (some bound) =>
    context.wrap <$> classifier.visit bound .plain stack
  | .declared name args =>
    if _hblocks : stack.blocks name (.declared name args) then
      .ok (classifier.cutShort (.declared name args))
    else
      let inner := stack.enter (TypeUse.declared name args).text
      match classifier.visitReplacements
        (classifier.replacements name (.declared name args)) inner with
      | .error error => .error error
      | .ok (some type) => .ok (context.wrap type)
      | .ok none =>
        match _hentry : classifier.graph.keyValue? (.declared name args) with
        | some (key, value) => do
          let key ← classifier.visit key .plain inner
          let value ← classifier.visit value .plain inner
          return context.wrap (.map key value)
        | none =>
          match _hcomponent : classifier.graph.component? (.declared name args) with
          | some component => classifier.visit component .collection inner
          | none => context.wrap <$> classifier.named name
termination_by (stack.budget (classifier.scope type), sizeOf type)
decreasing_by
  · exact Prod.Lex.right' _ (Nat.le_refl _) (by simp)
  · exact Prod.Lex.right' _ (Nat.le_refl _) (by simp)
  · exact Prod.Lex.right' _ (Nat.le_refl _) (by simp; omega)
  · exact Prod.Lex.right' _ (Nat.le_refl _) (by simp; omega)
  · exact Prod.Lex.left _ _
      (budget_lt_of_scope_subset _hblocks (classifier.scope_replacements_subset name _))
  · exact Prod.Lex.left _ _ (budget_lt_of_scope_subset _hblocks
      (scope_subset (TypeGraph.names_keyValue?_subset _hentry).1))
  · exact Prod.Lex.left _ _ (budget_lt_of_scope_subset _hblocks
      (scope_subset (TypeGraph.names_keyValue?_subset _hentry).2))
  · exact Prod.Lex.left _ _ (budget_lt_of_scope_subset _hblocks
      (scope_subset (TypeGraph.names_component?_subset _hcomponent)))

/-- Classify replacements one after the other: the last one counts, but an error in any of
them is an error. -/
def visitReplacements (classifier : Classifier) (replacements : List Replacement)
    (stack : UseStack) : Except MetadataError (Option SchemaType) :=
  match replacements with
  | [] => .ok none
  | .unstructured :: rest => do
    let stronger ← classifier.visitReplacements rest stack
    return some (stronger.getD .object)
  | .type use :: rest => do
    let type ← classifier.visit use .plain stack
    let stronger ← classifier.visitReplacements rest stack
    return some (stronger.getD type)
termination_by (stack.budget (classifier.scopeOfReplacements replacements), sizeOf replacements)
decreasing_by
  · exact Prod.Lex.right' _ (Nat.le_refl _)
      (by simp only [List.cons.sizeOf_spec]; omega)
  · exact Prod.Lex.right' _ (UseStack.budget_le_of_subset _ (classifier.scope_use_subset use rest))
      (by simp; omega)
  · exact Prod.Lex.right' _ (UseStack.budget_le_of_subset _ (classifier.scope_rest_subset use rest))
      (by simp only [List.cons.sizeOf_spec]; omega)
end

/-- Classify a type use on its own. -/
def classify (classifier : Classifier) (type : TypeUse) : Except MetadataError SchemaType :=
  classifier.visit type .plain ∅

end Classifier

end SchemaTyping
