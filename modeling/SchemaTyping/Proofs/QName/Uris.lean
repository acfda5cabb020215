import Mathlib.Data.List.Induction
import SchemaTyping.Proofs.Results
import SchemaTyping.QNameTable

/-!
# URIs of constants

The constants of an enumeration of qualified names are tabulated in one pass, which ends at the
first constant that cannot stand beside those before it: a second one for unknown names, or one with
a URI that another constant has already. If there is none, the table has all constants that are
listed, in order, and then the one for unknown names.
-/

namespace SchemaTyping

/-! ### Constants in a table -/

namespace Constant

/-- Is a constant listed with a URI? One for unknown names has none, even if it is excluded. -/
def isListed (constant : Constant) : Bool :=
  !constant.unknown && !constant.exclude

/-- The URI of a constant of an enumeration: the first namespace among its own, that of the
enumeration and that of the package, and then its local part, or else its name. -/
def uriIn (info : QNameInfo) (package : Option Package) (constant : Constant) : String :=
  ((constant.namespaceUri.or info.namespaceUri).or (package.bind Package.namespaceUri)).getD "" ++
    constant.localPart.getD constant.name

lemma uri_commonNamespace (info : QNameInfo) (package : Option Package) (constant : Constant) :
    constant.uri (info.commonNamespace package) = constant.uriIn info package := by
  rw [uri, uriIn, QNameInfo.commonNamespace]
  cases constant.namespaceUri <;> cases info.namespaceUri <;> rfl

end Constant

/-- The constants that are listed, in order, with their URIs. -/
def listedEntries (uri : Constant → String) (constants : List Constant) : List (String × String) :=
  (constants.filter Constant.isListed).map fun constant => (constant.name, uri constant)

/-- The constants that are listed, in order, with their URIs, and then those for unknown names,
which have none. -/
def entriesIn (uri : Constant → String) (constants : List Constant) :
    List (String × Option String) :=
  (listedEntries uri constants).map (fun entry => (entry.1, some entry.2)) ++
    (constants.filter Constant.unknown).map fun constant => (constant.name, none)

/-- At most one constant stands for unknown names, and no two that are listed have the same URI. -/
structure Unambiguous (uri : Constant → String) (constants : List Constant) : Prop where
  unknown : (constants.filter Constant.unknown).length ≤ 1
  uris : ((constants.filter Constant.isListed).map uri).Nodup

/-- A constant cannot stand beside those before it, and the error that says so. -/
inductive Repeats (name : String) (uri : Constant → String) (before : List Constant)
    (constant : Constant) : MetadataError → Prop where
  | unknown {earlier : Constant} (hmem : earlier ∈ before) (hearlier : earlier.unknown)
    (hunknown : constant.unknown) :
    Repeats name uri before constant (.duplicateUnknownQName name)
  | uri {earlier : Constant} (hmem : earlier ∈ before) (hearlier : earlier.isListed)
    (hlisted : constant.isListed) (huri : uri earlier = uri constant) :
    Repeats name uri before constant (.duplicateQNameValue name (uri constant))

/-- The error of the first constant, in order, that repeats something before it. -/
def FirstRepetition (name : String) (uri : Constant → String) (constants : List Constant)
    (error : MetadataError) : Prop :=
  ∃ before constant after, constants = before ++ constant :: after ∧ Unambiguous uri before ∧
    Repeats name uri before constant error

section Unambiguous

variable {uri : Constant → String} {before constants : List Constant} {constant : Constant}

lemma unambiguous_nil (uri : Constant → String) : Unambiguous uri [] :=
  ⟨Nat.zero_le 1, List.nodup_nil⟩

/-- One more constant does no harm unless it repeats something. -/
lemma unambiguous_concat_iff (name : String) :
    Unambiguous uri (before ++ [constant]) ↔
      Unambiguous uri before ∧ ∀ error, ¬ Repeats name uri before constant error := by
  constructor
  · rintro ⟨hunknown, huris⟩
    rw [List.filter_append, List.length_append] at hunknown
    rw [List.filter_append, List.map_append, List.nodup_append] at huris
    refine ⟨⟨by omega, huris.1⟩, ?_⟩
    rintro _ (⟨hmem, hearlier, hconstant⟩ | ⟨hmem, hearlier, hlisted, huri⟩)
    · have hbefore := List.length_pos_of_mem (List.mem_filter.2 ⟨hmem, hearlier⟩)
      rw [List.filter_cons_of_pos hconstant, List.length_cons] at hunknown
      omega
    · refine huris.2.2 _ (List.mem_map_of_mem (List.mem_filter.2 ⟨hmem, hearlier⟩)) (uri constant)
        ?_ huri
      simp [hlisted]
  · rintro ⟨⟨hunknown, huris⟩, hnew⟩
    constructor
    · rw [List.filter_append, List.length_append]
      cases hconstant : constant.unknown with
      | false => simpa [hconstant] using hunknown
      | true =>
        have hnone : before.filter Constant.unknown = [] :=
          List.filter_eq_nil_iff.2 fun earlier hmem hearlier =>
            hnew _ (.unknown hmem hearlier hconstant)
        simp [hnone, hconstant]
    · rw [List.filter_append, List.map_append, List.nodup_append]
      refine ⟨huris, by cases h : constant.isListed <;> simp [h], fun a ha b hb heq => ?_⟩
      obtain ⟨earlier, hearlier, rfl⟩ := List.mem_map.1 ha
      obtain ⟨hmem, hlisted⟩ := List.mem_filter.1 hearlier
      obtain ⟨last, hlast, rfl⟩ := List.mem_map.1 hb
      obtain ⟨hconstant, hlast⟩ := List.mem_filter.1 hlast
      rw [List.mem_singleton.1 hconstant] at hlast heq
      exact hnew _ (.uri hmem hlisted hlast heq)

/-- Constants that are ambiguous have a first one that repeats something. -/
lemma exists_firstRepetition (name : String) (h : ¬ Unambiguous uri constants) :
    ∃ error, FirstRepetition name uri constants error := by
  induction constants using List.reverseRecOn with
  | nil => exact absurd (unambiguous_nil uri) h
  | append_singleton constants last ih =>
    by_cases hconstants : Unambiguous uri constants
    · rw [unambiguous_concat_iff name, not_and] at h
      obtain ⟨error, hrepeats⟩ := not_forall_not.1 (h hconstants)
      exact ⟨error, constants, last, [], rfl, hconstants, hrepeats⟩
    · obtain ⟨error, before, constant, after, rfl, hbefore, hrepeats⟩ := ih hconstants
      exact ⟨error, before, constant, after ++ [last], by simp, hbefore, hrepeats⟩

end Unambiguous

/-! ### The pass over the constants -/

namespace Declaration

variable {declaration : Declaration} {common : String} {before constants : List Constant}
  {constant : Constant} {error : MetadataError}

section Equations

variable (rest : List Constant) (seen : List String) (unknown : Option String)

lemma tabulate_unknown (h : constant.unknown) :
    declaration.tabulate common (constant :: rest) seen unknown =
      match unknown with
      | some _ => .error (.duplicateUnknownQName declaration.name)
      | none => declaration.tabulate common rest seen (some constant.name) := by
  cases unknown <;> rw [tabulate, if_pos h]

lemma tabulate_excluded (hunknown : constant.unknown = false) (hexclude : constant.exclude) :
    declaration.tabulate common (constant :: rest) seen unknown =
      declaration.tabulate common rest seen unknown := by
  rw [tabulate.eq_def]
  simp only [hunknown, hexclude, Bool.false_eq_true, if_false, if_true]

lemma tabulate_listed (h : constant.isListed) :
    declaration.tabulate common (constant :: rest) seen unknown =
      if constant.uri common ∈ seen then
        .error (.duplicateQNameValue declaration.name (constant.uri common))
      else
        (fun found => ((constant.name, constant.uri common) :: found.1, found.2)) <$>
          declaration.tabulate common rest (constant.uri common :: seen) unknown := by
  simp only [Constant.isListed, Bool.and_eq_true, Bool.not_eq_true'] at h
  rw [tabulate.eq_def]
  simp only [h.1, h.2, Bool.false_eq_true, if_false]
  rfl

end Equations

/-- The pass over further constants, after some that have been tabulated. -/
def tabulateAfter (declaration : Declaration) (common : String) (before rest : List Constant) :
    Except MetadataError (List (String × String) × Option String) :=
  declaration.tabulate common rest
    ((before.filter Constant.isListed).map (·.uri common)).reverse
    ((before.find? Constant.unknown).map Constant.name)

/-- The pass ends at a constant that repeats something. -/
lemma tabulateAfter_of_repeats
    (h : Repeats declaration.name (·.uri common) before constant error)
    (rest : List Constant) :
    declaration.tabulateAfter common before (constant :: rest) = .error error := by
  rw [tabulateAfter]
  cases h with
  | unknown hmem hearlier hunknown =>
    obtain ⟨first, hfirst⟩ := Option.isSome_iff_exists.1 (List.find?_isSome.2 ⟨_, hmem, hearlier⟩)
    rw [tabulate_unknown _ _ _ hunknown, hfirst]
    rfl
  | @uri earlier hmem hearlier hlisted huri =>
    have hseen : constant.uri common ∈
        ((before.filter Constant.isListed).map (·.uri common)).reverse :=
      List.mem_reverse.2 (List.mem_map.2 ⟨earlier, List.mem_filter.2 ⟨hmem, hearlier⟩, huri⟩)
    rw [tabulate_listed _ _ _ hlisted, if_pos hseen]

/-- Any other constant is entered if it is listed, and the pass goes on after it. -/
lemma tabulateAfter_cons
    (h : ∀ error, ¬ Repeats declaration.name (·.uri common) before constant error)
    (rest : List Constant) :
    declaration.tabulateAfter common before (constant :: rest) =
      (fun found => (listedEntries (·.uri common) [constant] ++ found.1, found.2)) <$>
        declaration.tabulateAfter common (before ++ [constant]) rest := by
  rw [tabulateAfter, tabulateAfter]
  cases hunknown : constant.unknown with
  | true =>
    have hnone : before.find? Constant.unknown = none :=
      List.find?_eq_none.2 fun earlier hmem hearlier => h _ (.unknown hmem hearlier hunknown)
    rw [tabulate_unknown _ _ _ hunknown]
    simp [hnone, hunknown, Constant.isListed, listedEntries]
  | false =>
    cases hexclude : constant.exclude with
    | true =>
      rw [tabulate_excluded _ _ _ hunknown hexclude]
      simp [hunknown, hexclude, Constant.isListed, listedEntries]
    | false =>
      have hlisted : constant.isListed := by simp [Constant.isListed, hunknown, hexclude]
      have hnew : constant.uri common ∉
          ((before.filter Constant.isListed).map (·.uri common)).reverse := by
        intro hseen
        obtain ⟨earlier, hearlier, huri⟩ := List.mem_map.1 (List.mem_reverse.1 hseen)
        obtain ⟨hmem, hearlier⟩ := List.mem_filter.1 hearlier
        exact h _ (.uri hmem hearlier hlisted huri)
      rw [tabulate_listed _ _ _ hlisted, if_neg hnew]
      simp [hunknown, hlisted, listedEntries]

/-- Constants that repeat nothing are all entered, before what comes after them. -/
lemma tabulate_append (hbefore : Unambiguous (·.uri common) before) (rest : List Constant) :
    declaration.tabulate common (before ++ rest) [] none =
      (fun found => (listedEntries (·.uri common) before ++ found.1, found.2)) <$>
        declaration.tabulateAfter common before rest := by
  induction before using List.reverseRecOn generalizing rest with
  | nil => simp [tabulateAfter, listedEntries]
  | append_singleton before constant ih =>
    obtain ⟨hbefore, hnew⟩ := (unambiguous_concat_iff declaration.name).1 hbefore
    rw [List.append_assoc, List.singleton_append, ih hbefore, tabulateAfter_cons hnew,
      Functor.map_map]
    simp [listedEntries]

/-- If no constant repeats anything, the pass gives what is listed and the constant for unknown
names. -/
lemma tabulate_of_unambiguous (h : Unambiguous (·.uri common) constants) :
    declaration.tabulate common constants [] none =
      .ok (listedEntries (·.uri common) constants,
        (constants.find? Constant.unknown).map Constant.name) := by
  have happend : declaration.tabulate common (constants ++ []) [] none = _ := tabulate_append h []
  rw [List.append_nil] at happend
  rw [happend]
  simp [tabulateAfter, tabulate]

/-- The first constant that repeats something ends the pass. -/
lemma tabulate_of_firstRepetition
    (h : FirstRepetition declaration.name (·.uri common) constants error) :
    declaration.tabulate common constants [] none = .error error := by
  obtain ⟨before, constant, after, rfl, hbefore, hrepeats⟩ := h
  rw [tabulate_append hbefore, tabulateAfter_of_repeats hrepeats]
  rfl

/-! ### Tables -/

/-- A list with at most one element of some kind has it as the first one. -/
lemma toList_find? {α : Type} {p : α → Bool} {xs : List α} (h : (xs.filter p).length ≤ 1) :
    (xs.find? p).toList = xs.filter p := by
  rw [← List.head?_filter]
  match xs.filter p, h with
  | [], _ | [_], _ => rfl

section Tables

variable {info : QNameInfo} {package : Option Package}

lemma uri_commonNamespace_eq (info : QNameInfo) (package : Option Package) :
    (fun constant : Constant => constant.uri (info.commonNamespace package)) =
      Constant.uriIn info package :=
  funext (Constant.uri_commonNamespace info package)

lemma qnameTable_of_qname (hbase : info.base = .qname) :
    declaration.qnameTable info package = .error (.qnameEnumBase declaration.name "QNAME") := by
  rw [qnameTable, hbase]
  rfl

lemma qnameTable_of_unambiguous (hbase : info.base = .uri)
    (h : Unambiguous (Constant.uriIn info package) declaration.constants) :
    declaration.qnameTable info package =
      .ok (entriesIn (Constant.uriIn info package) declaration.constants) := by
  rw [← uri_commonNamespace_eq] at h ⊢
  rw [qnameTable, hbase]
  dsimp only
  rw [tabulate_of_unambiguous h, entriesIn, ← toList_find? h.unknown]
  simp [Option.toList_map]

lemma qnameTable_of_firstRepetition (hbase : info.base = .uri)
    (h : FirstRepetition declaration.name (Constant.uriIn info package) declaration.constants
      error) :
    declaration.qnameTable info package = .error error := by
  rw [← uri_commonNamespace_eq] at h
  rw [qnameTable, hbase]
  dsimp only
  rw [tabulate_of_firstRepetition h]
  rfl

end Tables

/-- An enumeration has a table if and only if it is written as URIs, at most one of its constants
stands for unknown names, and no two of the listed ones have the same URI. The table has the listed
constants in order with their URIs, and at the end the one for unknown names. Otherwise the error is
that of the base, or else that of the first constant that is a second one for unknown names or
repeats a URI that is listed before it. -/
theorem qnameTable_until_first_repetition (declaration : Declaration) (info : QNameInfo)
    (package : Option Package) :
    (∀ table, declaration.qnameTable info package = .ok table ↔
      info.base = .uri ∧ Unambiguous (Constant.uriIn info package) declaration.constants ∧
        table = entriesIn (Constant.uriIn info package) declaration.constants) ∧
    ∀ error, declaration.qnameTable info package = .error error ↔
      (info.base = .qname ∧ error = .qnameEnumBase declaration.name "QNAME") ∨
      (info.base = .uri ∧ FirstRepetition declaration.name (Constant.uriIn info package)
        declaration.constants error) := by
  cases hbase : info.base with
  | qname => simp [qnameTable_of_qname hbase, eq_comm]
  | uri =>
    simp only [reduceCtorEq, false_and, false_or, true_and]
    by_cases h : Unambiguous (Constant.uriIn info package) declaration.constants
    · have htable := qnameTable_of_unambiguous hbase h
      refine ⟨fun table => by simp [htable, h, eq_comm], fun error => ⟨fun herror => ?_, ?_⟩⟩
      · cases htable.symm.trans herror
      · exact qnameTable_of_firstRepetition hbase
    · obtain ⟨first, hfirst⟩ := exists_firstRepetition declaration.name h
      have htable := qnameTable_of_firstRepetition hbase hfirst
      refine ⟨fun table => by simp [htable, h], fun error => ⟨fun herror => ?_, ?_⟩⟩
      · cases htable.symm.trans herror
        exact hfirst
      · exact qnameTable_of_firstRepetition hbase

/-- Two constants may have one URI though their namespaces and local parts differ. The second one
ends the pass, so the second constant for unknown names after it is not met. -/
example : Declaration.qnameTable
    { Declaration.bare "Q" with
      constants := [⟨"A", some "n:", some "xy", false, false⟩, ⟨"U", none, none, true, true⟩,
        ⟨"B", some "n:x", some "y", false, false⟩, ⟨"V", none, none, false, true⟩] }
    ⟨.uri, none⟩ none = .error (.duplicateQNameValue "Q" "n:xy") := by
  decide

end Declaration

end SchemaTyping
