import SchemaTyping.Files.Loading
import SchemaTyping.Proofs.Model.Listing
import SchemaTyping.Registry

/-!
# Merging models

Merging is associative, and merging what was merged last once more changes nothing. Every model that
is made by insertions and merges is that of one list of writes, in which a merge appends the writes
of the other model. Its settings are told by the list of all settings that were written. Loading
starts from the model without entries, whose settings are not empty: it may be merged into a loaded
model at any time without a change, so files may be grouped in any way.
-/

namespace SchemaTyping

/-! ### Settings -/

namespace Settings

theorem merge_assoc (a b c : Settings) : (a.merge b).merge c = a.merge (b.merge c) := by
  simp only [merge, OrderedSet.union_assoc, mk.injEq, and_true]
  by_cases hc : c.objectType = defaultObjectType <;> simp [hc]

/-- Merging settings once more changes nothing. -/
theorem merge_merge_self (a b : Settings) : (a.merge b).merge b = a.merge b := by
  simp only [merge, OrderedSet.union_union_self, mk.injEq, and_true]
  by_cases hb : b.objectType = defaultObjectType <;> simp [hb]

theorem merge_self (a : Settings) : a.merge a = a := by
  simp [merge]

/-- The standard settings add nothing to settings that were merged into them. -/
theorem standard_merge_merge_standard (a : Settings) :
    (standard.merge a).merge standard = standard.merge a := by
  have hroots (set other : OrderedSet) : (set.union other).union set = set.union other :=
    OrderedSet.union_of_subset (OrderedSet.subset_union_left set other)
  have htype : standard.objectType = defaultObjectType := rfl
  simp [merge, hroots, htype]

end Settings

/-! ### Models -/

namespace Model

theorem merge_assoc (a b c : Model) : (a.merge b).merge c = a.merge (b.merge c) := by
  simp only [merge, OrderedMap.union_assoc, OrderedSet.union_assoc, Settings.merge_assoc]

/-- Merging a model once more changes nothing. -/
theorem merge_merge_self (a b : Model) : (a.merge b).merge b = a.merge b := by
  simp only [merge, OrderedMap.union_union_self, OrderedSet.union_union_self,
    Settings.merge_merge_self]

theorem merge_self (a : Model) : a.merge a = a := by
  simp only [merge, OrderedMap.union_self, OrderedSet.union_self, Settings.merge_self]

/-- The model without entries adds nothing to a model that was merged into it. -/
theorem empty_merge_merge_empty (a : Model) :
    ((∅ : Model).merge a).merge ∅ = (∅ : Model).merge a := by
  have hsettings := Settings.standard_merge_merge_standard a.settings
  exact congrArg (mk _ _ _ _) hsettings

/-! #### Several models -/

lemma mergeAll_concat (models : List Model) (model : Model) :
    mergeAll (models ++ [model]) = (mergeAll models).merge model :=
  List.foldl_append

lemma empty_merge_mergeAll (models : List Model) :
    (∅ : Model).merge (mergeAll models) = mergeAll models := by
  induction models using List.reverseRecOn with
  | nil => exact merge_self ∅
  | append_singleton models model ih => rw [mergeAll_concat, ← merge_assoc, ih]

lemma mergeAll_merge_empty (models : List Model) :
    (mergeAll models).merge ∅ = mergeAll models := by
  rw [← empty_merge_mergeAll, empty_merge_merge_empty]

/-- Models may be merged group by group. -/
theorem mergeAll_append (models more : List Model) :
    mergeAll (models ++ more) = (mergeAll models).merge (mergeAll more) := by
  induction more using List.reverseRecOn with
  | nil =>
    -- a group without models is not nothing: it has the standard settings
    rw [List.append_nil]
    exact (mergeAll_merge_empty models).symm
  | append_singleton more model ih =>
    rw [← List.append_assoc, mergeAll_concat, ih, mergeAll_concat, merge_assoc]

/-- A name is known as the last model that knows it says. -/
lemma known_mergeAll (models : List Model) (name : String) :
    (mergeAll models).known.get? name =
      models.reverse.findSome? (fun model => model.known.get? name) := by
  induction models using List.reverseRecOn with
  | nil => rfl
  | append_singleton models model ih =>
    rw [mergeAll_concat, List.reverse_append, List.findSome?_append, ← ih]
    refine (OrderedMap.get?_union _ model.known name).trans ?_
    congr 1
    simp

end Model

/-- What is known for a name after models were merged: what the last of them says that knows it,
else what is built in. -/
lemma Registry.known?_ofModel_mergeAll (models : List Model) (name : String) :
    (ofModel (Model.mergeAll models)).known? name =
      (models.reverse.findSome? fun model => model.known.get? name).or (builtins.known? name) := by
  rw [← Model.known_mergeAll]
  exact OrderedMap.get?_union _ _ name

/-! ### Models as lists of writes -/

/-- One listing after the other. -/
def Listing.append (listing other : Listing) : Listing where
  declarations := listing.declarations ++ other.declarations
  packages := listing.packages ++ other.packages
  known := listing.known ++ other.known
  definitions := listing.definitions ++ other.definitions
  settings := listing.settings.merge other.settings

lemma OrderedMap.union_ofNamed {α : Type} (name : α → String) (values more : List α) :
    (ofNamed name values).union (ofNamed name more) = ofNamed name (values ++ more) := by
  rw [ofNamed, ofNamed, union_ofList, ← List.map_append]
  rfl

lemma OrderedMap.insert_ofNamed {α : Type} (name : α → String) (values : List α) (value : α) :
    (ofNamed name values).insert (name value) value = ofNamed name (values ++ [value]) := by
  rw [ofNamed, insert_ofList, ofNamed, List.map_append]
  rfl

lemma Listing.model_append (listing other : Listing) :
    (listing.append other).model = listing.model.merge other.model := by
  simp only [model, append, Model.merge, OrderedMap.union_ofNamed, OrderedMap.union_ofList,
    OrderedSet.union_ofList]

/-- How a model is made. -/
inductive History where
  | empty
  | file (listing : Listing)
  | insert (history : History) (declaration : Declaration)
  | insertPackage (history : History) (package : Package)
  | merge (history other : History)

namespace History

/-- The model that is made. -/
def model : History → Model
  | empty => ∅
  | file listing => listing.model
  | insert history declaration => history.model.insert declaration
  | insertPackage history package => history.model.insertPackage package
  | merge history other => history.model.merge other.model

/-- All that is written, in order. -/
def writes : History → Listing
  | empty => .empty
  | file listing => listing
  | insert history declaration =>
    { history.writes with declarations := history.writes.declarations ++ [declaration] }
  | insertPackage history package =>
    { history.writes with packages := history.writes.packages ++ [package] }
  | merge history other => history.writes.append other.writes

/-- The settings that are written, in order. The model without entries has the standard ones. -/
def writtenSettings : History → List Settings
  | empty => [.standard]
  | file listing => [listing.settings]
  | insert history _ => history.writtenSettings
  | insertPackage history _ => history.writtenSettings
  | merge history other => history.writtenSettings ++ other.writtenSettings

/-- The roots of one sort that are written, each at the place of its first write. -/
def writtenRoots (history : History) (roots : Settings → OrderedSet) : List String :=
  (history.writtenSettings.flatMap fun settings => (roots settings).toList).eraseDups

/-- The object types that are written, but for the default one. -/
def writtenObjectTypes (history : History) : List String :=
  (history.writtenSettings.map Settings.objectType).filter (· ≠ Settings.defaultObjectType)

/-- However a model is made, it is the model of all that was written. -/
theorem model_eq (history : History) : history.model = history.writes.model := by
  induction history with
  | empty => rfl
  | file listing => rfl
  | insert history declaration ih =>
    rw [model, ih, writes, Model.insert, Listing.model, Listing.model,
      OrderedMap.insert_ofNamed]
  | insertPackage history package ih =>
    rw [model, ih, writes, Model.insertPackage, Listing.model, Listing.model,
      OrderedMap.insert_ofNamed]
  | merge history other ih ihother => rw [model, ih, ihother, writes, Listing.model_append]

/-- The roots of one sort are all that were written. -/
lemma toList_roots (history : History) (roots : Settings → OrderedSet)
    (hmerge : ∀ a b : Settings, roots (a.merge b) = (roots a).union (roots b)) :
    (roots history.model.settings).toList = history.writtenRoots roots := by
  have hown (settings : Settings) :
      (roots settings).toList = ([settings].flatMap fun s => (roots s).toList).eraseDups := by
    rw [List.flatMap_singleton, eraseDups_of_nodup (roots settings).nodup]
  induction history with
  | empty => exact hown .standard
  | file listing => exact hown listing.settings
  | insert history declaration ih => exact ih
  | insertPackage history package ih => exact ih
  | merge history other ih ihother =>
    have hunion := congrArg OrderedSet.toList (hmerge history.model.settings other.model.settings)
    rw [OrderedSet.toList_union, ih, ihother] at hunion
    refine hunion.trans ?_
    simp only [writtenRoots, writtenSettings, List.flatMap_append, eraseDups_eraseDups_append,
      eraseDups_append_eraseDups]

/-- The object type is the last one that was written, the default one apart. -/
lemma objectType_eq (history : History) :
    history.model.settings.objectType =
      history.writtenObjectTypes.getLast?.getD Settings.defaultObjectType := by
  have hown (settings : Settings) :
      settings.objectType = (([settings].map Settings.objectType).filter
        (· ≠ Settings.defaultObjectType)).getLast?.getD Settings.defaultObjectType := by
    by_cases h : settings.objectType = Settings.defaultObjectType <;> simp [h]
  induction history with
  | empty => exact hown .standard
  | file listing => exact hown listing.settings
  | insert history declaration ih => exact ih
  | insertPackage history package ih => exact ih
  | merge history other ih ihother =>
    have happend : (merge history other).writtenObjectTypes =
        history.writtenObjectTypes ++ other.writtenObjectTypes := by
      simp [writtenObjectTypes, writtenSettings]
    have hmerge : (merge history other).model.settings.objectType =
        if other.model.settings.objectType = Settings.defaultObjectType
          then history.model.settings.objectType else other.model.settings.objectType := rfl
    rw [hmerge, happend, List.getLast?_append, ih, ihother]
    cases hlast : other.writtenObjectTypes.getLast? with
    | none => simp
    | some objectType =>
      have hother : objectType ≠ Settings.defaultObjectType := by
        simpa using (List.mem_filter.1 (List.mem_of_getLast? hlast)).2
      simp [hother]

end History

/-! ### Loading -/

namespace FileSpace

lemma loadInto_eq (space : FileSpace) (model : Model) (paths : List String) :
    space.loadInto model paths =
      (fun models => models.foldl Model.merge model) <$> paths.mapM space.loadModel := by
  induction paths generalizing model with
  | nil => rfl
  | cons path rest ih =>
    simp only [loadInto, ih, List.mapM_cons, map_bind, map_pure, List.foldl_cons]
    rfl

/-- Files are loaded by merging the models that are in them. -/
lemma loadModels_eq (space : FileSpace) (paths : List String) :
    space.loadModels paths = Model.mergeAll <$> paths.mapM space.loadModel :=
  space.loadInto_eq ∅ paths

/-- Files may be loaded group by group. -/
lemma loadModels_append (space : FileSpace) (paths more : List String) :
    space.loadModels (paths ++ more) = do
      let model ← space.loadModels paths
      let other ← space.loadModels more
      return model.merge other := by
  simp only [loadModels_eq, List.mapM_append, map_bind, bind_map_left, map_pure,
    Model.mergeAll_append]

end FileSpace

/-- Merging is associative and idempotent, and a second merge of one model changes nothing. However
a model is made, its names stand where they were first written, and have the values that were last
written, under their own names; its roots stand where they were first written, and its object type
is the last one that was written and is not the default one. Files may be loaded group by group, and
a name is known as the last file says that lists it, else as it is built in. -/
theorem merging_keeps_first_places_and_last_values :
    (∀ a b c : Model, (a.merge b).merge c = a.merge (b.merge c)) ∧
    (∀ a : Model, a.merge a = a) ∧
    (∀ a b : Model, (a.merge b).merge b = a.merge b) ∧
    (∀ tree, Model.decode tree =
      (fun listing => (History.file listing).model) <$> Listing.decode tree) ∧
    (∀ history : History, history.model.WellNamed ∧
      (history.model.declarations.keys =
          (history.writes.declarations.map Declaration.name).eraseDups ∧
        ∀ name, history.model.declarations.get? name =
          history.writes.declarations.reverse.find? (fun declaration => declaration.name = name)) ∧
      (history.model.packages.keys = (history.writes.packages.map Package.name).eraseDups ∧
        ∀ name, history.model.packages.get? name =
          history.writes.packages.reverse.find? (fun package => package.name = name)) ∧
      (history.model.known.keys = (history.writes.known.map Prod.fst).eraseDups ∧
        ∀ name, history.model.known.get? name =
          history.writes.known.reverse.lookup name) ∧
      history.model.definitions.toList = history.writes.definitions.eraseDups ∧
      history.model.settings.collectionTypes.toList =
        history.writtenRoots Settings.collectionTypes ∧
      history.model.settings.streamTypes.toList = history.writtenRoots Settings.streamTypes ∧
      history.model.settings.mapTypes.toList = history.writtenRoots Settings.mapTypes ∧
      history.model.settings.objectType =
        history.writtenObjectTypes.getLast?.getD Settings.defaultObjectType) ∧
    ∀ space : FileSpace,
      (∀ paths more, space.loadModels (paths ++ more) = do
        let model ← space.loadModels paths
        let other ← space.loadModels more
        return model.merge other) ∧
      ∀ paths name,
        (fun model => (Registry.ofModel model).known? name) <$> space.loadModels paths =
          (fun models => (models.reverse.findSome? fun model => model.known.get? name).or
            (Registry.builtins.known? name)) <$> paths.mapM space.loadModel := by
  refine ⟨Model.merge_assoc, Model.merge_self, Model.merge_merge_self, Listing.decode_eq, ?_, ?_⟩
  · intro history
    have hcollections := history.toList_roots Settings.collectionTypes fun _ _ => rfl
    have hstreams := history.toList_roots Settings.streamTypes fun _ _ => rfl
    have hmaps := history.toList_roots Settings.mapTypes fun _ _ => rfl
    have hobject := history.objectType_eq
    rw [history.model_eq] at hcollections hstreams hmaps hobject ⊢
    refine ⟨Listing.wellNamed_model _, ⟨OrderedMap.keys_ofNamed _, OrderedMap.get?_ofNamed _⟩,
      ⟨OrderedMap.keys_ofNamed _, OrderedMap.get?_ofNamed _⟩, ⟨OrderedMap.keys_ofList _, ?_⟩,
      OrderedSet.toList_ofList _, hcollections, hstreams, hmaps, hobject⟩
    exact fun name => (OrderedMap.get?_ofList _ name).trans (OrderedMap.read_eq_lookup name _)
  · intro space
    refine ⟨space.loadModels_append, fun paths name => ?_⟩
    rw [space.loadModels_eq]
    simp only [Functor.map_map, Registry.known?_ofModel_mergeAll]

end SchemaTyping
