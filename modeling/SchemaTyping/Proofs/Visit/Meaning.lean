import SchemaTyping.Proofs.Guard.Transparency
import SchemaTyping.Proofs.Graph.Search
import SchemaTyping.Proofs.Visit.Parts

/-!
# The meaning of types without declarations

Without declarations a type says all about itself: arrays, collections and maps are put together
from their parts, and any other name is what the registry says about it. Such a type means
something by recursion on its parts, and this is what it is classified as. No use in it is cut
short: what is visited has a shorter text than the uses that are open, apart from the object type,
and only containers stay open.
-/

namespace SchemaTyping

open Run

/-- What a registry says about a name: its known type, else the reference to its definition. A name
about which it says nothing is an object. -/
def Registry.meaning (registry : Registry) (name : String) : SchemaType :=
  match registry.known? name with
  | some type => type
  | none => if name ∈ registry.definitions then .reference name else .object

/-- The schema type of a use without declarations, by recursion on its parts. -/
def TypeUse.meaning (settings : Settings) (registry : Registry) :
    TypeUse → Context → SchemaType
  | .primitive kind, context =>
    if context.inArray ∧ kind = .byte then .string else context.wrap kind.schemaType
  | .array component, _ =>
    SchemaType.array^[component.dimensions] (component.innermost.meaning settings registry .array)
  | .var _ none, context | .wildcard none, context => context.wrap .object
  | .var _ (some bound), context | .wildcard (some bound), context =>
    context.wrap (bound.meaning settings registry .plain)
  | .declared name args, context =>
    if settings.isMapRoot name then
      match args with
      | [key, value] =>
        context.wrap
          (.map (key.meaning settings registry .plain) (value.meaning settings registry .plain))
      | _ =>
        context.wrap
          (.map (registry.meaning settings.objectType) (registry.meaning settings.objectType))
    else if settings.isCollectionRoot name || settings.isStreamRoot name then
      match args with
      | [.wildcard (some bound)] => bound.meaning settings registry .collection
      | [.wildcard none] => .array (registry.meaning settings.objectType)
      | [element] => element.meaning settings registry .collection
      | _ => .array (registry.meaning settings.objectType)
    else context.wrap (registry.meaning name)
termination_by type => sizeOf type
decreasing_by
  · exact Nat.lt_of_le_of_lt component.sizeOf_innermost_le (by simp)
  all_goals
    simp
    try omega

/-- Is this the name of a root of containers? -/
def Settings.isContainerRoot (settings : Settings) (name : String) : Bool :=
  settings.isMapRoot name || settings.isCollectionRoot name || settings.isStreamRoot name

lemma Settings.isContainerRoot_of_map {settings : Settings} {name : String}
    (h : settings.isMapRoot name) : settings.isContainerRoot name := by
  simp [isContainerRoot, h]

lemma Settings.isContainerRoot_of_sequence {settings : Settings} {name : String}
    (h : settings.isCollectionRoot name || settings.isStreamRoot name) :
    settings.isContainerRoot name := by
  rw [isContainerRoot, Bool.or_assoc, h, Bool.or_true]

/-! ### Uses that pass the guard -/

namespace UseStack

variable {settings : Settings} {stack : UseStack} {name : String} {args : List TypeUse}

/-- Only uses of the roots of containers are open. -/
def OnlyContainers (settings : Settings) (stack : UseStack) : Prop :=
  ∀ text ∈ stack, ∃ name args, settings.isContainerRoot name ∧ '<' ∉ name.toList ∧
    text = (TypeUse.declared name args).text

/-- A type has no variables, no name of it can be taken for a use with arguments, all open uses are
containers with longer texts, and there are few enough of each name. -/
structure Admits (settings : Settings) (stack : UseStack) (type : TypeUse) : Prop where
  typeVariables : type.typeVariables = []
  names : type.Within ('<' ∉ ·.toList)
  containers : stack.OnlyContainers settings
  longer : ∀ text ∈ stack, type.text.length < text.length
  few : ∀ name, '<' ∉ name.toList → stack.usesOf name + type.nesting name ≤ maxNestedUses

lemma OnlyContainers.enter (h : stack.OnlyContainers settings)
    (hroot : settings.isContainerRoot name) (hname : '<' ∉ name.toList) (args : List TypeUse) :
    (stack.enter (TypeUse.declared name args).text).OnlyContainers settings := by
  rintro text (_ | ⟨_, htext⟩)
  · exact ⟨name, args, hroot, hname, rfl⟩
  · exact h text htext

/-- What is no container is not open. -/
lemma OnlyContainers.not_blocks (h : stack.OnlyContainers settings)
    (hroot : ¬ settings.isContainerRoot name) (hname : '<' ∉ name.toList) :
    ¬ stack.blocks name (.declared name args) := by
  have hnone : ∀ text ∈ stack, ¬ isUseOf name text := by
    intro text htext huse
    obtain ⟨other, otherArgs, hother, hotherName, rfl⟩ := h text htext
    rw [isUseOf_text_iff hname hotherName] at huse
    exact hroot (huse ▸ hother)
  have htext : (TypeUse.declared name args).text ∉ stack := fun hmem =>
    hnone _ hmem (isUseOf_text name args)
  have hcount : stack.usesOf name = 0 := List.countP_eq_zero.2 hnone
  simp only [blocks, Bool.or_eq_true, decide_eq_true_eq, not_or, hcount]
  exact ⟨htext, by decide⟩

lemma Admits.name_legible (h : stack.Admits settings (.declared name args)) :
    '<' ∉ name.toList :=
  (TypeUse.within_declared.1 h.names).1

lemma Admits.not_blocks (h : stack.Admits settings (.declared name args)) :
    ¬ stack.blocks name (.declared name args) := by
  have htext : (TypeUse.declared name args).text ∉ stack := fun hmem =>
    Nat.lt_irrefl _ (h.longer _ hmem)
  have hfew := h.few name h.name_legible
  rw [TypeUse.nesting, if_pos rfl] at hfew
  simp only [blocks, Bool.or_eq_true, decide_eq_true_eq, not_or]
  exact ⟨htext, by omega⟩

lemma Admits.of_isPart {part type : TypeUse} (h : stack.Admits settings type)
    (hpart : part.IsPart type) : stack.Admits settings part where
  typeVariables := hpart.typeVariables_eq_nil h.typeVariables
  names := hpart.within h.names
  containers := h.containers
  longer := fun text htext => hpart.length_text_lt.trans (h.longer text htext)
  few := fun name hname =>
    (Nat.add_le_add_left (hpart.nesting_le name) _).trans (h.few name hname)

/-- An argument is admitted while the container that it stands in is open. -/
lemma Admits.enter (h : stack.Admits settings (.declared name args))
    (hroot : settings.isContainerRoot name) {arg : TypeUse} (harg : arg ∈ args) :
    (stack.enter (TypeUse.declared name args).text).Admits settings arg where
  typeVariables := (h.of_isPart (.argument name harg)).typeVariables
  names := (h.of_isPart (.argument name harg)).names
  containers := h.containers.enter hroot h.name_legible args
  longer := by
    have hlength := (TypeUse.IsPart.argument name harg).length_text_lt
    rintro text (_ | ⟨_, htext⟩)
    · exact hlength
    · exact hlength.trans (h.longer text htext)
  few := by
    intro other hother
    have hfew := h.few other hother
    have hnesting := TypeUse.nesting_le_nestingOfArgs harg other
    rw [TypeUse.nesting] at hfew
    rw [usesOf_enter]
    simp only [isUseOf_text_iff hother h.name_legible]
    omega

lemma admits_empty {type : TypeUse} (hvariables : type.typeVariables = [])
    (hnames : type.Within ('<' ∉ ·.toList))
    (hnesting : ∀ name, type.nesting name ≤ maxNestedUses) :
    (∅ : UseStack).Admits settings type where
  typeVariables := hvariables
  names := hnames
  containers := by simp [OnlyContainers, mem_iff]
  longer := by simp [mem_iff]
  few := fun name _ => by simpa using hnesting name

end UseStack

namespace Classifier

variable {classifier : Classifier}

/-! ### Free runs -/

/-- A step that does not cut a use short. -/
def FreeStep (classifier : Classifier) (state next : State) : Prop :=
  classifier.step UseStack.blocks state = some next ∧
    ∀ name args context, state.task = .visit (.declared name args) context →
      ¬ state.stack.blocks name (.declared name args)

/-- A run that cuts no use short leads from one state to another. -/
abbrev ReachesFreely (classifier : Classifier) : State → State → Prop :=
  Relation.ReflTransGen classifier.FreeStep

lemma ReachesFreely.reaches {state next : State} (h : classifier.ReachesFreely state next) :
    classifier.Reaches UseStack.blocks state next :=
  h.lift id fun _ _ hstep => hstep.1

/-- If a run can end without cutting a use short, it does not cut one short. -/
lemma ReachesFreely.not_blocks {state reached : State} {result : Except MetadataError SchemaType}
    {stack : UseStack} (h : classifier.ReachesFreely state (.final result stack))
    (hreach : classifier.Reaches UseStack.blocks state reached) :
    ∀ name args context, reached.task = .visit (.declared name args) context →
      ¬ reached.stack.blocks name (.declared name args) := by
  induction h using Relation.ReflTransGen.head_induction_on with
  | refl =>
    obtain rfl := hreach.eq_of_step_eq_none rfl
    exact nofun
  | head hstep _ ih =>
    -- Steps are a function, so the run goes along with the free one.
    rcases Relation.ReflTransGen.cases_head hreach with rfl | ⟨next, hnext, hrest⟩
    · exact hstep.2
    · obtain rfl := Option.some.inj (hstep.1.symm.trans hnext)
      exact ih hrest

/-- A type is classified in a context without cutting a use short. -/
def ClassifiesFreely (classifier : Classifier) (type : TypeUse) (context : Context)
    (stack : UseStack) (result : SchemaType) : Prop :=
  ∀ frames, classifier.ReachesFreely ⟨.visit type context, frames, stack⟩
    ⟨.give (.ok result), frames, stack⟩

variable {type : TypeUse} {context : Context} {stack : UseStack} {result : SchemaType}

/-- A step that does not look at a declared use is free. -/
lemma freeStep_of_step {state next : State}
    (hstep : classifier.step UseStack.blocks state = some next)
    (htask : ∀ name args context, state.task ≠ .visit (.declared name args) context) :
    classifier.FreeStep state next :=
  ⟨hstep, fun name args context heq => absurd heq (htask name args context)⟩

lemma freeStep_settle (entered : Entered) (found : Option SchemaType) (rest : List Replacement)
    (frames : List Frame) (stack : UseStack) :
    classifier.FreeStep ⟨.settle entered found rest, frames, stack⟩
      (classifier.stepSettle entered frames stack found rest) :=
  freeStep_of_step rfl nofun

lemma freeStep_give (result : Except MetadataError SchemaType) (frame : Frame)
    (frames : List Frame) (stack : UseStack) :
    classifier.FreeStep ⟨.give result, frame :: frames, stack⟩
      (frame.resume frames stack result) :=
  freeStep_of_step rfl nofun

lemma classifiesFreely_primitive (kind : PrimitiveKind) (context : Context) (stack : UseStack) :
    classifier.ClassifiesFreely (.primitive kind) context stack (context.primitive kind) :=
  fun _ => .single (freeStep_of_step rfl nofun)

lemma ClassifiesFreely.dimension {inner : TypeUse}
    (h : classifier.ClassifiesFreely (.array inner) .plain stack result) (context : Context) :
    classifier.ClassifiesFreely (.array (.array inner)) context stack (.array result) :=
  fun frames => .head (freeStep_of_step rfl nofun)
    ((h (.dimension :: frames)).tail (freeStep_give _ _ _ _))

lemma ClassifiesFreely.array {component : TypeUse} (hcomponent : ∀ inner, component ≠ .array inner)
    (h : classifier.ClassifiesFreely component .array stack result) (context : Context) :
    classifier.ClassifiesFreely (.array component) context stack result := by
  intro frames
  refine .head (freeStep_of_step ?_ nofun) (h frames)
  rw [step, stepVisit]
  exact hcomponent

/-- An array has a layer for each dimension, and the last one stands around its innermost
component. -/
lemma ClassifiesFreely.innermost {component : TypeUse}
    (h : classifier.ClassifiesFreely component.innermost .array stack result) (context : Context) :
    classifier.ClassifiesFreely (.array component) context stack
      (SchemaType.array^[component.dimensions] result) := by
  induction component generalizing context with
  | array inner ih =>
    rw [TypeUse.dimensions, Function.iterate_succ_apply']
    exact (ih h .plain).dimension context
  | primitive | declared | var | wildcard => exact h.array (fun _ heq => by cases heq) context

lemma classifiesFreely_wildcard_none (context : Context) (stack : UseStack) :
    classifier.ClassifiesFreely (.wildcard none) context stack (context.wrap .object) :=
  fun _ => .single (freeStep_of_step rfl nofun)

lemma ClassifiesFreely.wildcard {bound : TypeUse}
    (h : classifier.ClassifiesFreely bound .plain stack result) (context : Context) :
    classifier.ClassifiesFreely (.wildcard (some bound)) context stack (context.wrap result) :=
  fun frames => .head (freeStep_of_step rfl nofun)
    ((h (.layer context :: frames)).tail (freeStep_give _ _ _ _))

section Declared

variable {name : String} {args : List TypeUse}
  (hundeclared : ∀ name, classifier.graph.declaration? name = none)

include hundeclared

/-- A use that passes is entered, and left with the result of its parts. -/
lemma classifiesFreely_of_parts (hpass : ¬ stack.blocks name (.declared name args))
    (hparts : ∀ frames, classifier.ReachesFreely
      (classifier.stepSettle ⟨name, args, context⟩ frames
        (stack.enter (TypeUse.declared name args).text) none [])
      ⟨.give (.ok result), frames, stack.enter (TypeUse.declared name args).text⟩) :
    classifier.ClassifiesFreely (.declared name args) context stack result := by
  intro frames
  have henter := classifier.step_of_not_blocks hpass context frames
  have hnone : classifier.replacements name (.declared name args) = [] := by
    rw [replacements, hundeclared]
  rw [hnone] at henter
  refine .head ⟨henter, ?_⟩ (.head (freeStep_settle _ _ _ _ _) ((hparts _).tail ?_))
  · rintro _ _ _ ⟨⟩
    exact hpass
  · exact freeStep_give _ (.leave ⟨name, args, context⟩) frames _

lemma ClassifiesFreely.map (hpass : ¬ stack.blocks name (.declared name args))
    (hroot : classifier.graph.settings.isMapRoot name) {key value : TypeUse}
    (hentry : classifier.graph.entryOfArgs args = (key, value)) {keyType valueType : SchemaType}
    (hkey : classifier.ClassifiesFreely key .plain
      (stack.enter (TypeUse.declared name args).text) keyType)
    (hvalue : classifier.ClassifiesFreely value .plain
      (stack.enter (TypeUse.declared name args).text) valueType) :
    classifier.ClassifiesFreely (.declared name args) context stack
      (context.wrap (.map keyType valueType)) := by
  refine classifiesFreely_of_parts hundeclared hpass fun frames => ?_
  have hkeyValue := TypeGraph.keyValue?_of_undeclared (hundeclared name) args
  rw [if_pos hroot, hentry] at hkeyValue
  rw [stepSettle_map hkeyValue]
  exact (hkey _).trans (.head (freeStep_give _ _ _ _) ((hvalue _).tail (freeStep_give _ _ _ _)))

lemma ClassifiesFreely.component (hpass : ¬ stack.blocks name (.declared name args))
    (hmap : ¬ classifier.graph.settings.isMapRoot name)
    (hroot : classifier.graph.settings.isCollectionRoot name ||
      classifier.graph.settings.isStreamRoot name) {component : TypeUse}
    (hpart : classifier.graph.componentOfArgs args = component)
    (hcomponent : classifier.ClassifiesFreely component .collection
      (stack.enter (TypeUse.declared name args).text) result) :
    classifier.ClassifiesFreely (.declared name args) context stack result := by
  refine classifiesFreely_of_parts hundeclared hpass fun frames => ?_
  have hkeyValue := TypeGraph.keyValue?_of_undeclared (hundeclared name) args
  have hfound := TypeGraph.component?_of_undeclared hundeclared name args
  rw [if_neg hmap] at hkeyValue
  rw [if_pos hroot, hpart] at hfound
  rw [stepSettle_component hkeyValue hfound]
  exact hcomponent frames

lemma classifiesFreely_named (hpass : ¬ stack.blocks name (.declared name args))
    (hroot : ¬ classifier.graph.settings.isContainerRoot name) :
    classifier.ClassifiesFreely (.declared name args) context stack
      (context.wrap (classifier.registry.meaning name)) := by
  refine classifiesFreely_of_parts hundeclared hpass fun frames => ?_
  simp only [Settings.isContainerRoot, Bool.or_assoc, Bool.or_eq_true, not_or] at hroot
  have hkeyValue := TypeGraph.keyValue?_of_undeclared (hundeclared name) args
  have hpart := TypeGraph.component?_of_undeclared hundeclared name args
  rw [if_neg hroot.1] at hkeyValue
  rw [if_neg (by simpa using hroot.2)] at hpart
  have hnamed : classifier.named name = .ok (classifier.registry.meaning name) := by
    rw [named, hundeclared, registered, Registry.lookup, Registry.definition?, Registry.meaning]
    cases classifier.registry.known? name with
    | some type => rfl
    | none =>
      dsimp only
      split <;> rfl
  rw [stepSettle_named hkeyValue hpart, hnamed]
  exact .refl

end Declared

/-! ### Types without declarations -/

/-- Nothing is declared, and the object type is a name like others. -/
structure Undeclared (classifier : Classifier) : Prop where
  declarations : ∀ name, classifier.graph.declaration? name = none
  object : ¬ classifier.graph.settings.isContainerRoot classifier.graph.settings.objectType
  objectName : '<' ∉ classifier.graph.settings.objectType.toList

lemma Undeclared.classifiesFreely_object (h : classifier.Undeclared)
    (hstack : stack.OnlyContainers classifier.graph.settings) (context : Context) :
    classifier.ClassifiesFreely classifier.graph.settings.object context stack
      (context.wrap (classifier.registry.meaning classifier.graph.settings.objectType)) :=
  classifiesFreely_named h.declarations (hstack.not_blocks h.object h.objectName) h.object

/-- A type that is admitted is classified as what it means. -/
lemma Undeclared.classifiesFreely_meaning (h : classifier.Undeclared) (type : TypeUse)
    (context : Context) (stack : UseStack)
    (hadmits : stack.Admits classifier.graph.settings type) :
    classifier.ClassifiesFreely type context stack
      (type.meaning classifier.graph.settings classifier.registry context) := by
  fun_induction TypeUse.meaning classifier.graph.settings classifier.registry type context
    generalizing stack with
  | case1 kind context hbyte =>
    have hprimitive := classifier.classifiesFreely_primitive kind context stack
    rwa [Context.primitive, if_pos hbyte] at hprimitive
  | case2 kind context hbyte =>
    have hprimitive := classifier.classifiesFreely_primitive kind context stack
    rwa [Context.primitive, if_neg hbyte] at hprimitive
  | case3 component context ih =>
    have hinner : stack.Admits classifier.graph.settings (TypeUse.array component).innermost :=
      TypeUse.innermost_of_component (fun part h => h.of_isPart (.component part)) hadmits
    exact (ih stack hinner).innermost context
  | case4 name context => cases hadmits.typeVariables
  | case5 context => exact classifiesFreely_wildcard_none context stack
  | case6 name bound context ih => cases hadmits.typeVariables
  | case7 bound context ih => exact (ih stack (hadmits.of_isPart (.bound bound))).wildcard context
  | case8 name context hmap key value ihkey ihvalue =>
    have hroot := Settings.isContainerRoot_of_map hmap
    have hkey := ihkey _ (hadmits.enter hroot (by simp))
    have hvalue := ihvalue _ (hadmits.enter hroot (by simp))
    exact .map h.declarations hadmits.not_blocks hmap rfl hkey hvalue
  | case9 name args context hmap hargs =>
    -- The object type is no part of the type and may have any text; it passes since it is no
    -- container, and nothing else is open.
    have hopen := hadmits.containers.enter (Settings.isContainerRoot_of_map hmap)
      hadmits.name_legible args
    have hobject := h.classifiesFreely_object hopen .plain
    have hentry : classifier.graph.entryOfArgs args =
        (classifier.graph.settings.object, classifier.graph.settings.object) := by
      rw [TypeGraph.entryOfArgs]
      exact hargs
    exact .map h.declarations hadmits.not_blocks hmap hentry hobject hobject
  | case10 name context hmap hsequence bound ih =>
    have hroot := Settings.isContainerRoot_of_sequence hsequence
    have hbound := (hadmits.enter hroot List.mem_cons_self).of_isPart (.bound bound)
    exact .component h.declarations hadmits.not_blocks hmap hsequence rfl (ih _ hbound)
  | case11 name context hmap hsequence =>
    have hopen := hadmits.containers.enter (Settings.isContainerRoot_of_sequence hsequence)
      hadmits.name_legible [.wildcard none]
    exact .component h.declarations hadmits.not_blocks hmap hsequence rfl
      (h.classifiesFreely_object hopen .collection)
  | case12 name context hmap hsequence element hbound hwildcard ih =>
    have hroot := Settings.isContainerRoot_of_sequence hsequence
    have hcomponent : classifier.graph.componentOfArgs [element] = element := by
      rw [TypeGraph.componentOfArgs]
      · exact hbound
      · exact hwildcard
    exact .component h.declarations hadmits.not_blocks hmap hsequence hcomponent
      (ih _ (hadmits.enter hroot List.mem_cons_self))
  | case13 name args context hmap hsequence hbound hwildcard helement =>
    have hopen := hadmits.containers.enter (Settings.isContainerRoot_of_sequence hsequence)
      hadmits.name_legible args
    have hcomponent : classifier.graph.componentOfArgs args = classifier.graph.settings.object := by
      rw [TypeGraph.componentOfArgs]
      · exact hbound
      · exact hwildcard
      · exact helement
    exact .component h.declarations hadmits.not_blocks hmap hsequence hcomponent
      (h.classifiesFreely_object hopen .collection)
  | case14 name args context hmap hsequence =>
    refine classifiesFreely_named h.declarations hadmits.not_blocks ?_
    simpa [Settings.isContainerRoot, Bool.or_assoc] using And.intro hmap hsequence

/-- Without declarations a type is classified as what it means, in every context, and no use is cut
short. The type has no variables, its names have no `<`, and no name is nested deeper than the limit
allows; the object type is no container. -/
theorem visit_eq_meaning (classifier : Classifier)
    (hdeclarations : ∀ name, classifier.graph.declaration? name = none)
    (hobject : ¬ classifier.graph.settings.isContainerRoot classifier.graph.settings.objectType)
    (hobjectName : '<' ∉ classifier.graph.settings.objectType.toList) {type : TypeUse}
    (hvariables : type.typeVariables = []) (hnames : type.Within ('<' ∉ ·.toList))
    (hnesting : ∀ name, type.nesting name ≤ maxNestedUses) :
    ¬ classifier.CutsShort type ∧
      ∀ context, classifier.visit type context ∅ =
        .ok (type.meaning classifier.graph.settings classifier.registry context) := by
  have hundeclared : classifier.Undeclared := ⟨hdeclarations, hobject, hobjectName⟩
  have hfree (context : Context) := hundeclared.classifiesFreely_meaning type context ∅
    (UseStack.admits_empty hvariables hnames hnesting) []
  refine ⟨?_, fun context => visit_eq_of_reaches (hfree context).reaches⟩
  rintro ⟨name, args, context, frames, stack, hreach, hblocks⟩
  exact (hfree .plain).not_blocks hreach name args context rfl hblocks

/-- Nothing is declared; `M` is a map, `L` a collection, `S` a stream, and `O` is defined. -/
def onlyContainers : Classifier where
  graph := .bare ⟨"O", .ofList ["L"], .ofList ["S"], .ofList ["M"]⟩
  registry := Registry.empty.define "O"

/-- The type `M<? extends L<byte[][]>, S<? extends L<L>>[][]>`. -/
def nestedContainers : TypeUse :=
  .declared "M" [.wildcard (some (.declared "L" [.array (.array (.primitive .byte))])),
    .array (.array (.declared "S" [.wildcard (some (.declared "L" [.declared "L" []]))]))]

/-- Nested collections are one layer, arrays one for each dimension, and bytes in an array are a
string. -/
theorem nestedContainers_meaning :
    ¬ onlyContainers.CutsShort nestedContainers ∧
      onlyContainers.classify nestedContainers =
        .ok (.map (.array .string) (.array (.array (.reference "O")))) := by
  have hnesting (name : String) : nestedContainers.nesting name ≤ maxNestedUses :=
    (nestedContainers.nesting_le_length_names name).trans (by decide)
  have hnames : nestedContainers.Within ('<' ∉ ·.toList) := by
    unfold TypeUse.Within
    decide
  obtain ⟨hfree, hvisit⟩ := visit_eq_meaning onlyContainers (fun _ => rfl) (by decide) (by decide)
    rfl hnames hnesting
  refine ⟨hfree, (hvisit .plain).trans ?_⟩
  simp only [nestedContainers, TypeUse.meaning, TypeUse.dimensions, TypeUse.innermost]
  rfl

end Classifier

end SchemaTyping
