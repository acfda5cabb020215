import SchemaTyping.CommandLine.Arguments
import SchemaTyping.Proofs.ClientName.Endings
import SchemaTyping.Proofs.ClientName.Packages
import SchemaTyping.Proofs.Graph.Search

/-!
# Client names of classes

The name of a class is put together from its package in the client and its simple name, with a
separator before each. The package in the client is segments joined by separators, unless the rule
that counts for it has no target: then nothing is left of the package, or what is left starts with a
separator, and the name starts with two separators.
-/

namespace SchemaTyping

/-! ### Segments -/

/-- Of the segments between separators none is empty. -/
def Segmented (separator : Char) (cs : List Char) : Prop :=
  [] ∉ cs.splitOn separator

instance (separator : Char) (cs : List Char) : Decidable (Segmented separator cs) :=
  inferInstanceAs (Decidable ([] ∉ cs.splitOn separator))

variable {separator : Char} {cs before after : List Char} {name first second text : String}

lemma not_segmented_nil : ¬ Segmented separator [] := fun h => h (by simp)

lemma segmented_of_not_mem (hne : cs ≠ []) (h : separator ∉ cs) : Segmented separator cs := by
  rw [Segmented, List.splitOn_eq_singleton h, List.mem_singleton]
  exact hne.symm

lemma segmented_append_cons : Segmented separator (before ++ separator :: after) ↔
    Segmented separator before ∧ Segmented separator after := by
  rw [Segmented, List.splitOn_append_cons_self, List.mem_append, not_or]
  rfl

/-- In a segmented text with a separator before it no two of them stand side by side. -/
lemma Segmented.not_adjacent (h : Segmented separator cs) :
    ¬ [separator, separator] <:+: separator :: cs := by
  rintro ⟨before, after, heq⟩
  cases before with
  | nil =>
    obtain rfl : separator :: after = cs := by simpa using heq
    exact not_segmented_nil (segmented_append_cons.1 (show Segmented separator ([] ++ _) from h)).1
  | cons c before =>
    obtain ⟨-, rfl⟩ : c = separator ∧ before ++ separator :: ([] ++ separator :: after) = cs := by
      simpa using heq
    exact not_segmented_nil (segmented_append_cons.1 (segmented_append_cons.1 h).2).1

/-- Segments are kept when another separator takes the place of the one between them. -/
lemma splitOn_map_separated (h : clientSeparator ∉ cs) :
    (cs.map PackageRule.separated).splitOn clientSeparator =
      (cs.splitOn '.').map (List.map PackageRule.separated) := by
  induction cs with
  | nil => rfl
  | cons c cs ih =>
    obtain ⟨hc, hcs⟩ := not_or.1 (mt List.mem_cons.2 h)
    obtain ⟨segment, segments, hsegments⟩ := List.exists_cons_of_ne_nil (List.splitOn_ne_nil '.' cs)
    rw [List.map_cons, List.splitOn_cons_eq_if_modifyHead, List.splitOn_cons_eq_if_modifyHead,
      ih hcs, hsegments]
    by_cases hdot : c = '.'
    · simp [hdot, PackageRule.separated]
    · simp [hdot, PackageRule.separated, Ne.symm hc]

/-- Segments that are not empty, joined by dots. -/
structure IsDotted (name : String) : Prop where
  segmented : Segmented '.' name.toList
  separatorless : clientSeparator ∉ name.toList

instance (name : String) : Decidable (IsDotted name) :=
  decidable_of_iff (Segmented '.' name.toList ∧ clientSeparator ∉ name.toList)
    ⟨fun h => ⟨h.1, h.2⟩, fun h => ⟨h.segmented, h.separatorless⟩⟩

/-- Segments that are not empty, with a separator before each. -/
def IsClientPath (name : String) : Prop :=
  ∃ path, name.toList = clientSeparator :: path ∧ Segmented clientSeparator path

lemma IsClientPath.not_adjacent (h : IsClientPath name) :
    ¬ [clientSeparator, clientSeparator] <:+: name.toList := by
  obtain ⟨path, hname, hpath⟩ := h
  rw [hname]
  exact hpath.not_adjacent

/-- A dotted text is segmented when it is joined as in a client. -/
lemma IsDotted.segmented_map (h : IsDotted name) :
    Segmented clientSeparator (name.map PackageRule.separated).toList := by
  have hsegmented := h.segmented
  rw [Segmented] at hsegmented ⊢
  rw [String.toList_map, splitOn_map_separated h.separatorless]
  simpa using hsegmented

/-- A dotted text holds no separator, so it is a single segment. -/
lemma IsDotted.segmented_self (h : IsDotted name) : Segmented clientSeparator name.toList :=
  segmented_of_not_mem (fun hnil => not_segmented_nil (hnil ▸ h.segmented)) h.separatorless

lemma isDotted_append :
    IsDotted (first ++ "." ++ second) ↔ IsDotted first ∧ IsDotted second := by
  have htext : (first ++ "." ++ second).toList = first.toList ++ '.' :: second.toList := by simp
  constructor
  · rintro ⟨hsegmented, hseparator⟩
    rw [htext, segmented_append_cons] at hsegmented
    rw [htext, List.mem_append, List.mem_cons, not_or, not_or] at hseparator
    exact ⟨⟨hsegmented.1, hseparator.1⟩, hsegmented.2, hseparator.2.2⟩
  · rintro ⟨hfirst, hsecond⟩
    refine ⟨?_, ?_⟩
    · rw [htext, segmented_append_cons]
      exact ⟨hfirst.segmented, hsecond.segmented⟩
    · rw [htext, List.mem_append, List.mem_cons, not_or, not_or]
      exact ⟨hfirst.separatorless, by decide, hsecond.separatorless⟩

/-- A dotted name has no package, or a dotted one. -/
lemma IsDotted.package_and_simpleName (h : IsDotted name) :
    (packageOf name = "" ∨ IsDotted (packageOf name)) ∧ IsDotted (simpleNameOf name) := by
  have hqualified : Qualified name (packageOf name) (simpleNameOf name) :=
    qualified_iff.2 ⟨rfl, rfl⟩
  generalize packageOf name = package, simpleNameOf name = simple at hqualified
  cases hqualified with
  | dotted =>
    rw [isDotted_append] at h
    exact ⟨.inr h.1, h.2⟩
  | undotted => exact ⟨.inl rfl, h⟩

namespace PackageRule

variable {rule : PackageRule} {rules : List PackageRule} {package : String}

/-- The package in a client by a rule with a dotted target is segmented. -/
lemma segmented_convert_of_target (hpackage : IsDotted package)
    (hfind : rules.find? (·.holds package) = some rule) (htarget : IsDotted rule.target) :
    Segmented clientSeparator (convert rules package).toList := by
  have hholds := List.find?_some hfind
  rcases holds_iff.1 hholds with hown | ⟨rest, hrest⟩
  · rw [convert_of_find?_eq_some hfind (hown.trans String.append_empty.symm), String.append_empty]
    exact htarget.segmented_map
  · rw [convert_of_find?_eq_some hfind (hrest.trans String.append_assoc), ← String.append_assoc]
    rw [hrest, isDotted_append] at hpackage
    exact (isDotted_append.2 ⟨htarget, hpackage.2⟩).segmented_map

/-- By a rule without a target nothing is left of a package, or a separator comes first. -/
lemma convert_of_target_eq_empty (hfind : rules.find? (·.holds package) = some rule)
    (htarget : rule.target = "") :
    convert rules package = "" ∨
      ∃ rest, convert rules package = clientSeparator.toString ++ rest := by
  have hholds := List.find?_some hfind
  rcases holds_iff.1 hholds with hown | ⟨rest, hrest⟩
  · rw [convert_of_find?_eq_some hfind (hown.trans String.append_empty.symm), htarget]
    exact .inl (by simp)
  · rw [convert_of_find?_eq_some hfind (hrest.trans String.append_assoc), htarget]
    refine .inr ⟨rest.map separated, ?_⟩
    simp [← String.toList_inj, separated, clientSeparator]

lemma source_ne_empty_of_readRule? (h : Invocation.readRule? text = some rule) :
    rule.source ≠ "" := by
  rw [Invocation.readRule?] at h
  split at h
  · cases h
    simp [← String.toList_inj]
  · cases h

/-- No rule with a source holds for the empty package. -/
lemma not_governs_empty (h : rule.source ≠ "") : ¬ rule.Governs "" := by
  rintro (hsource | ⟨rest, hrest⟩)
  · exact h hsource.symm
  · simpa using congrArg String.toList hrest

end PackageRule

/-! ### Classes -/

/-- Nothing is known of a name but that it is the name of a class: it has no entry in the table of
well-known classes, is no container, and its declaration, if there is one, is no enumeration and
has neither a client name nor an adapter. -/
structure TypeGraph.IsPlain (graph : TypeGraph) (name : String) : Prop where
  notConverted : classNames.lookup name = none
  notCollection : ¬ graph.isCollection (.declared name [])
  notStream : ¬ graph.isStream (.declared name [])
  notMap : ¬ graph.isMap (.declared name [])
  declaration : ∀ declaration, graph.declaration? name = some declaration →
    declaration.kind ≠ .enumeration ∧ declaration.clientName = none ∧ declaration.adapter = none

namespace TypeGraph

/-- A name without a declaration is plain unless it has an entry in the table or is a root. -/
lemma IsPlain.of_undeclared {graph : TypeGraph} (hdecl : graph.declaration? name = none)
    (hconverted : classNames.lookup name = none)
    (hcollection : ¬ graph.settings.isCollectionRoot name)
    (hstream : ¬ graph.settings.isStreamRoot name) (hmap : ¬ graph.settings.isMapRoot name) :
    graph.IsPlain name where
  notConverted := hconverted
  notCollection := by
    rw [isCollection, root?_of_undeclared hdecl]
    simpa using hcollection
  notStream := by
    rw [isStream, root?_of_undeclared hdecl]
    simpa using hstream
  notMap := by
    rw [isMap, mapRoot?, root?_of_undeclared hdecl]
    simpa using hmap
  declaration := fun _ hdeclaration => nomatch hdecl.symm.trans hdeclaration

end TypeGraph

namespace ClientNaming

open PackageRule

variable {naming : ClientNaming} {rule : PackageRule} {rules : List PackageRule}

/-- The client name of a plain name, by its package and its simple name. -/
lemma typeName_of_isPlain (h : naming.graph.IsPlain name) :
    naming.typeName (.declared name []) =
      if packageOf name = "" then clientSeparator.toString ++ simpleNameOf name
      else clientSeparator.toString ++ naming.packageName (packageOf name) ++
        clientSeparator.toString ++ simpleNameOf name := by
  have henumeration : ¬ naming.Enumerated name := fun ⟨declaration, hdeclaration, hkind⟩ =>
    (h.declaration declaration hdeclaration).1 hkind
  have hsequence : ¬ naming.Sequence name [] := not_or.2 ⟨h.notCollection, h.notStream⟩
  have hcontainer : ¬ naming.isRawContainer name := by
    simp [isRawContainer, h.notCollection, h.notStream, h.notMap]
  have hadapted : ∀ target, ¬ naming.AdaptedTo name target := by
    rintro target ⟨declaration, hdeclaration, htarget, -⟩
    simp [Declaration.target?, (h.declaration declaration hdeclaration).2.2] at htarget
  have hclient : (naming.graph.declaration? name).bind Declaration.clientName = none :=
    Option.bind_eq_none_iff.2 fun declaration hdeclaration =>
      (h.declaration declaration hdeclaration).2.1
  rw [typeName_of_ends (Rule.named henumeration hsequence h.notConverted hcontainer hadapted
    (calledAs_iff.2 rfl)).step_eq, className, hclient]
  rfl

/-- Where the package in the client is segmented, so is the name. -/
lemma isClientPath_of_segmented (hplain : naming.graph.IsPlain name) (hname : IsDotted name)
    (hpackage : packageOf name ≠ "" →
      Segmented clientSeparator (naming.packageName (packageOf name)).toList) :
    IsClientPath (naming.typeName (.declared name [])) := by
  have hsimple := hname.package_and_simpleName.2.segmented_self
  rw [typeName_of_isPlain hplain]
  split
  · exact ⟨_, by simp, hsimple⟩
  · next hne => exact ⟨_, by simp, segmented_append_cons.2 ⟨hpackage hne, hsimple⟩⟩

/-- Where the rule for a package has no target, the name starts with two separators. -/
lemma adjacent_of_target_eq_empty (hplain : naming.graph.IsPlain name)
    (hpackage : packageOf name ≠ "")
    (hfind : naming.rules.find? (·.holds (packageOf name)) = some rule)
    (htarget : rule.target = "") :
    [clientSeparator, clientSeparator] <+: (naming.typeName (.declared name [])).toList := by
  rw [typeName_of_isPlain hplain, if_neg hpackage, packageName]
  rcases convert_of_target_eq_empty hfind htarget with hnone | ⟨rest, hrest⟩
  · rw [hnone]
    exact ⟨(simpleNameOf name).toList, by simp⟩
  · rw [hrest]
    exact ⟨rest.toList ++ clientSeparator :: (simpleNameOf name).toList, by simp⟩

/-- The name of a class is segments with a separator before each, and has no two separators side by
side, if the rule that counts for its package has a target, or if there is no such rule. A rule
without a target, which is read like any other one, gives names that start with two separators. -/
theorem typeName_isClientPath (graph : TypeGraph) {texts : List String}
    {rules : List PackageRule} (hread : texts.map Invocation.readRule? = rules.map some)
    (htargets : ∀ rule ∈ rules, rule.target = "" ∨ IsDotted rule.target)
    (hname : IsDotted name) (hplain : graph.IsPlain name) :
    ((∀ rule, Decides rules (packageOf name) rule → rule.target ≠ "") →
      IsClientPath ((graph.naming.addRules rules).typeName (.declared name [])) ∧
        ¬ [clientSeparator, clientSeparator] <:+:
          ((graph.naming.addRules rules).typeName (.declared name [])).toList) ∧
    ∀ rule, Decides rules (packageOf name) rule → rule.target = "" →
      [clientSeparator, clientSeparator] <+:
        ((graph.naming.addRules rules).typeName (.declared name [])).toList := by
  have harranged := arranged_addRules graph rules
  constructor
  · intro htarget
    have hpath : IsClientPath ((graph.naming.addRules rules).typeName (.declared name [])) := by
      refine isClientPath_of_segmented hplain hname fun hne => ?_
      have hpackage := hname.package_and_simpleName.1.resolve_left hne
      cases hfind : (graph.naming.addRules rules).rules.find? (·.holds (packageOf name)) with
      | none =>
        rw [packageName, convert_of_find?_eq_none hfind]
        exact hpackage.segmented_map
      | some rule =>
        have hdecides := harranged.decides_of_find? hfind
        exact segmented_convert_of_target hpackage hfind
          ((htargets rule hdecides.mem).resolve_left (htarget rule hdecides))
    exact ⟨hpath, hpath.not_adjacent⟩
  · intro rule hdecides htarget
    obtain ⟨text, -, htext⟩ := List.mem_map.1 (hread ▸ List.mem_map_of_mem hdecides.mem)
    refine adjacent_of_target_eq_empty hplain (fun hnone => ?_)
      (harranged.find?_eq_some_iff.2 hdecides) htarget
    exact not_governs_empty (source_ne_empty_of_readRule? htext) (hnone ▸ hdecides.governs)

/-- A rule for a package, and one without a target for a package inside it. -/
def acmeRules : List PackageRule := [⟨"com.acme", "Acme.Shop"⟩, ⟨"com.acme.old", ""⟩]

/-- The rule without a target gives two separators, but not outside its own package. -/
theorem acme_class_names :
    IsClientPath (((TypeGraph.bare .standard).naming.addRules acmeRules).typeName
        (.declared "com.acme.api.Order" [])) ∧
      [clientSeparator, clientSeparator] <+:
        (((TypeGraph.bare .standard).naming.addRules acmeRules).typeName
          (.declared "com.acme.old.api.Order" [])).toList := by
  have hread : ["com.acme=Acme.Shop", "com.acme.old="].map Invocation.readRule? =
      acmeRules.map some := by
    decide
  have htargets : ∀ rule ∈ acmeRules, rule.target = "" ∨ IsDotted rule.target := by
    decide
  have hplain : (TypeGraph.bare .standard).IsPlain "com.acme.api.Order" :=
    .of_undeclared rfl (by decide) (by decide) (by decide) (by decide)
  have hplain' : (TypeGraph.bare .standard).IsPlain "com.acme.old.api.Order" :=
    .of_undeclared rfl (by decide) (by decide) (by decide) (by decide)
  have hdecides : Decides acmeRules "com.acme.api" ⟨"com.acme", "Acme.Shop"⟩ :=
    ⟨.inr ⟨"api", rfl⟩, [], [⟨"com.acme.old", ""⟩], rfl, by decide, by decide⟩
  have hdecides' : Decides acmeRules "com.acme.old.api" ⟨"com.acme.old", ""⟩ :=
    ⟨.inr ⟨"api", rfl⟩, [⟨"com.acme", "Acme.Shop"⟩], [], rfl, by decide, by decide⟩
  have hpackage : packageOf "com.acme.api.Order" = "com.acme.api" := by decide
  have hpackage' : packageOf "com.acme.old.api.Order" = "com.acme.old.api" := by decide
  obtain ⟨hpath, -⟩ := typeName_isClientPath (.bare .standard) hread htargets (by decide) hplain
  obtain ⟨-, hadjacent⟩ :=
    typeName_isClientPath (.bare .standard) hread htargets (by decide) hplain'
  rw [hpackage] at hpath
  rw [hpackage'] at hadjacent
  refine ⟨(hpath fun rule hrule => ?_).1, hadjacent _ hdecides' rfl⟩
  obtain rfl := hdecides.unique hrule
  decide

/-- In the package of a rule without a target the name is two separators and the simple name. -/
theorem class_of_package_without_target :
    ["com.acme="].map Invocation.readRule? = [⟨"com.acme", ""⟩].map some ∧
      IsDotted "com.acme" ∧ IsDotted "com.acme.Order" ∧
      (TypeGraph.bare .standard).IsPlain "com.acme.Order" ∧
      ((TypeGraph.bare .standard).naming.addRules [⟨"com.acme", ""⟩]).typeName
        (.declared "com.acme.Order" []) = "\\\\Order" ∧
      ¬ IsClientPath "\\\\Order" := by
  have hplain : (TypeGraph.bare .standard).IsPlain "com.acme.Order" :=
    .of_undeclared rfl (by decide) (by decide) (by decide) (by decide)
  refine ⟨by decide, by decide, by decide, hplain, ?_, fun h => ?_⟩
  · rw [typeName_of_isPlain hplain, packageName, addRules, arrange, TypeGraph.naming,
      List.nil_append, List.mergeSort_singleton]
    decide
  · exact h.not_adjacent ⟨[], "Order".toList, by decide⟩

end ClientNaming

end SchemaTyping
