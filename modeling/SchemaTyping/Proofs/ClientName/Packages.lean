import Mathlib.Data.List.Infix
import Mathlib.Order.Nat
import SchemaTyping.ClientName.Naming

/-!
# Client names of packages

Package rules are sorted again whenever some are added, and the first one that holds for a package
counts. The sources of all rules that hold for a package are beginnings of its name, so the longer
one in bytes is the longer one in characters, and two of one length are the same. Sorting keeps
rules with the same source in their order. So the rule that counts is the one with the longest
source, and of those the one that was added first, whatever the batches were.
-/

namespace SchemaTyping

namespace PackageRule

variable {rule other : PackageRule} {rules added batch : List PackageRule} {package rest : String}

/-! ### Rules that hold -/

/-- A package is the source of a rule, or lies in it. -/
def Governs (rule : PackageRule) (package : String) : Prop :=
  package = rule.source ∨ ∃ rest, package = rule.source ++ "." ++ rest

lemma rest?_eq_some_iff {cs : List Char} :
    rule.rest? package = some cs ↔
      package = rule.source ++ String.ofList cs ∧ (cs = [] ∨ cs.head? = some '.') := by
  rw [rest?, Option.filter_eq_some_iff, afterWord?_eq_some_iff, ← String.toList_inj,
    String.toList_append, String.toList_ofList]
  simp

lemma holds_iff : rule.holds package ↔ rule.Governs package := by
  rw [holds, Option.isSome_iff_exists]
  simp only [rest?_eq_some_iff]
  constructor
  · rintro ⟨cs, hpackage, rfl | hdot⟩
    · exact .inl (by simpa using hpackage)
    · obtain ⟨segments, rfl⟩ := List.head?_eq_some_iff.1 hdot
      refine .inr ⟨String.ofList segments, hpackage.trans ?_⟩
      simp [← String.toList_inj]
  · rintro (hpackage | ⟨rest, hpackage⟩)
    · exact ⟨[], by simpa using hpackage, .inl rfl⟩
    · refine ⟨'.' :: rest.toList, hpackage.trans ?_, .inr rfl⟩
      simp [← String.toList_inj]

instance : Decidable (rule.Governs package) := decidable_of_iff _ holds_iff

/-- What follows the source of a rule that holds. -/
lemma rest?_of_governs (h : rule.Governs package) (hrest : package = rule.source ++ rest) :
    rule.rest? package = some rest.toList := by
  obtain ⟨cs, hcs⟩ := Option.isSome_iff_exists.1 (holds_iff.2 h)
  have hsame := (rest?_eq_some_iff.1 hcs).1.symm.trans hrest
  rw [hcs, ← (String.append_right_inj _).1 hsame, String.toList_ofList]

/-! ### Sources of rules for one package -/

lemma Governs.isPrefix (h : rule.Governs package) : rule.source.toList <+: package.toList := by
  rcases h with rfl | ⟨rest, rfl⟩
  · exact List.prefix_rfl
  · rw [String.append_assoc, String.toList_append]
    exact List.prefix_append _ _

/-- Of two beginnings of one text the one with fewer bytes is a beginning of the other one. -/
lemma isPrefix_of_utf8ByteSize_le {first second text : String}
    (hfirst : first.toList <+: text.toList) (hsecond : second.toList <+: text.toList)
    (hbytes : first.utf8ByteSize ≤ second.utf8ByteSize) : first.toList <+: second.toList := by
  rcases List.prefix_or_prefix_of_prefix hfirst hsecond with h | ⟨tail, htail⟩
  · exact h
  · have heq : first = second ++ String.ofList tail := by
      simp [← String.toList_inj, htail]
    have hnil : String.ofList tail = "" := by
      rw [heq, String.utf8ByteSize_append] at hbytes
      exact String.utf8ByteSize_eq_zero_iff.1 (by omega)
    rw [heq, hnil, String.append_empty]

/-- Where two rules hold, sources of one length are the same. -/
lemma Governs.source_eq (h : rule.Governs package) (hother : other.Governs package)
    (hlength : other.source.length = rule.source.length) : other.source = rule.source := by
  rw [← String.length_toList, ← String.length_toList] at hlength
  exact String.toList_inj.1
    ((List.prefix_of_prefix_length_le hother.isPrefix h.isPrefix hlength.le).eq_of_length hlength)

/-! ### Sorted rules -/

/-- Rules are sorted after they were added one after the other: those with longer sources come
first, and rules with the same source are in the order in which they were added. -/
structure Arranged (added rules : List PackageRule) : Prop where
  sorted : rules.Pairwise fun first second => second.source.utf8ByteSize ≤ first.source.utf8ByteSize
  stable : ∀ source, rules.filter (·.source = source) = added.filter (·.source = source)

lemma Arranged.mem_iff (h : Arranged added rules) : rule ∈ rules ↔ rule ∈ added := by
  have hsource := congrArg (rule ∈ ·) (h.stable rule.source)
  simpa using hsource

lemma mayPrecede_trans (first second third : PackageRule) (h : first.mayPrecede second)
    (h' : second.mayPrecede third) : first.mayPrecede third := by
  simp only [mayPrecede, decide_eq_true_eq] at *
  omega

lemma mayPrecede_total (first second : PackageRule) :
    (first.mayPrecede second || second.mayPrecede first) = true := by
  simp only [mayPrecede, Bool.or_eq_true, decide_eq_true_eq]
  omega

lemma pairwise_arrange (rules : List PackageRule) :
    (arrange rules).Pairwise fun first second =>
      second.source.utf8ByteSize ≤ first.source.utf8ByteSize :=
  (List.pairwise_mergeSort mayPrecede_trans mayPrecede_total rules).imp fun h => of_decide_eq_true h

/-- Sorting keeps the rules with one source as they are. -/
lemma filter_arrange (rules : List PackageRule) (source : String) :
    (arrange rules).filter (·.source = source) = rules.filter (·.source = source) := by
  have hpairwise : (rules.filter (·.source = source)).Pairwise fun first second =>
      first.mayPrecede second := by
    refine List.pairwise_of_forall_mem_list fun first hfirst second hsecond => ?_
    have hfirst : first.source = source := by simpa using (List.mem_filter.1 hfirst).2
    have hsecond : second.source = source := by simpa using (List.mem_filter.1 hsecond).2
    simp [mayPrecede, hfirst, hsecond]
  have hsublist : (rules.filter (·.source = source)).Sublist (arrange rules) :=
    List.sublist_mergeSort mayPrecede_trans mayPrecede_total hpairwise List.filter_sublist
  have hkept := hsublist.filter (·.source = source)
  simp only [List.filter_filter, Bool.and_self] at hkept
  have hlength := ((List.mergeSort_perm rules mayPrecede).filter (·.source = source)).length_eq
  exact (hkept.eq_of_length hlength.symm).symm

lemma Arranged.add (h : Arranged added rules) (batch : List PackageRule) :
    Arranged (added ++ batch) (arrange (rules ++ batch)) where
  sorted := pairwise_arrange _
  stable := fun source => by
    rw [filter_arrange, List.filter_append, List.filter_append, h.stable]

/-! ### The rule that counts -/

/-- A rule counts for a package: of all rules that hold for it none has a longer source, and those
added before have shorter ones. -/
structure Decides (added : List PackageRule) (package : String) (rule : PackageRule) : Prop where
  governs : rule.Governs package
  firstLongest : ∃ earlier later, added = earlier ++ rule :: later ∧
    (∀ other ∈ earlier, other.Governs package → other.source.length < rule.source.length) ∧
    ∀ other ∈ later, other.Governs package → other.source.length ≤ rule.source.length

lemma Decides.mem (h : Decides added package rule) : rule ∈ added := by
  obtain ⟨-, earlier, later, rfl, -⟩ := h
  exact List.mem_append_right earlier List.mem_cons_self

/-- The rule that counts has the longest source, and is the first one with it. -/
lemma decides_iff : Decides added package rule ↔ rule.Governs package ∧
    (∀ other ∈ added, other.Governs package → other.source.length ≤ rule.source.length) ∧
    added.find? (·.source = rule.source) = some rule := by
  constructor
  · rintro ⟨hgoverns, earlier, later, rfl, hearlier, hlater⟩
    refine ⟨hgoverns, fun other hother hgoverns' => ?_, ?_⟩
    · rcases List.mem_append.1 hother with hmem | hmem
      · exact (hearlier other hmem hgoverns').le
      · rcases List.mem_cons.1 hmem with rfl | hmem
        · exact le_rfl
        · exact hlater other hmem hgoverns'
    · refine List.find?_eq_some_iff_append.2 ⟨by simp, earlier, later, rfl, fun other hother => ?_⟩
      have hsource : other.source ≠ rule.source := fun hsource => by
        have hgoverns' : other.Governs package := by
          rwa [Governs, hsource]
        exact (hearlier other hother hgoverns').ne (congrArg String.length hsource)
      simpa using hsource
  · rintro ⟨hgoverns, hlongest, hfirst⟩
    obtain ⟨-, earlier, later, rfl, hearlier⟩ := List.find?_eq_some_iff_append.1 hfirst
    refine ⟨hgoverns, earlier, later, rfl, fun other hother hgoverns' => ?_,
      fun other hother => hlongest other (by simp [hother])⟩
    refine lt_of_le_of_ne (hlongest other (by simp [hother]) hgoverns') fun hlength => ?_
    simpa [hgoverns.source_eq hgoverns' hlength] using hearlier other hother

/-- Only one rule counts for a package. -/
lemma Decides.unique (h : Decides added package rule) (hother : Decides added package other) :
    rule = other := by
  obtain ⟨hgoverns, hlongest, hfirst⟩ := decides_iff.1 h
  obtain ⟨hgoverns', hlongest', hfirst'⟩ := decides_iff.1 hother
  have hlength : other.source.length = rule.source.length :=
    le_antisymm (hlongest other hother.mem hgoverns') (hlongest' rule h.mem hgoverns)
  rw [hgoverns.source_eq hgoverns' hlength] at hfirst'
  exact Option.some.inj (hfirst.symm.trans hfirst')

/-- The first rule that holds among sorted rules is the one that counts. -/
lemma Arranged.decides_of_find? (h : Arranged added rules)
    (hfind : rules.find? (·.holds package) = some rule) : Decides added package rule := by
  obtain ⟨hholds, before, after, hrules, hbefore⟩ := List.find?_eq_some_iff_append.1 hfind
  have hgoverns : rule.Governs package := holds_iff.1 hholds
  have hbefore : ∀ other ∈ before, ¬ other.Governs package := fun other hother hgoverns => by
    simpa [holds_iff.2 hgoverns] using hbefore other hother
  have hsorted := h.sorted
  rw [hrules, List.pairwise_append, List.pairwise_cons] at hsorted
  obtain ⟨-, ⟨hafter, -⟩, -⟩ := hsorted
  refine decides_iff.2 ⟨hgoverns, fun other hother hgoverns' => ?_, ?_⟩
  · have hmem := h.mem_iff.2 hother
    rw [hrules, List.mem_append, List.mem_cons] at hmem
    rcases hmem with hmem | rfl | hmem
    · exact absurd hgoverns' (hbefore other hmem)
    · exact le_rfl
    · rw [← String.length_toList, ← String.length_toList]
      exact (isPrefix_of_utf8ByteSize_le hgoverns'.isPrefix hgoverns.isPrefix
        (hafter other hmem)).length_le
  · -- rules with the source of this one would hold as well, so none of them comes before it
    have hnone : before.filter (·.source = rule.source) = [] := by
      refine List.filter_eq_nil_iff.2 fun other hother hsource => hbefore other hother ?_
      rwa [Governs, of_decide_eq_true hsource]
    rw [← List.head?_filter, ← h.stable, hrules, List.filter_append, hnone,
      List.filter_cons_of_pos (by simp), List.nil_append, List.head?_cons]

/-- Where some rule holds one is found. -/
lemma Arranged.exists_find? (h : Arranged added rules) (hmem : rule ∈ added)
    (hgoverns : rule.Governs package) : ∃ found, rules.find? (·.holds package) = some found := by
  refine Option.isSome_iff_exists.1 (List.find?_isSome.2 ⟨rule, h.mem_iff.2 hmem, ?_⟩)
  exact holds_iff.2 hgoverns

lemma Arranged.find?_eq_some_iff (h : Arranged added rules) :
    rules.find? (·.holds package) = some rule ↔ Decides added package rule := by
  refine ⟨h.decides_of_find?, fun hdecides => ?_⟩
  obtain ⟨found, hfound⟩ := h.exists_find? hdecides.mem hdecides.governs
  rw [hfound, hdecides.unique (h.decides_of_find? hfound)]

lemma Arranged.find?_eq_none_iff (h : Arranged added rules) :
    rules.find? (·.holds package) = none ↔ ∀ rule ∈ added, ¬ rule.Governs package := by
  simp only [List.find?_eq_none, holds_iff, h.mem_iff]

/-! ### Names -/

/-- A separator in the place of a dot. -/
def separated (c : Char) : Char := if c = '.' then clientSeparator else c

lemma convert_of_find?_eq_none (h : rules.find? (·.holds package) = none) :
    convert rules package = package.map separated := by
  rw [convert, h, ← String.toList_inj, String.toList_map, String.toList_ofList]
  rfl

lemma convert_of_find?_eq_some (h : rules.find? (·.holds package) = some rule)
    (hrest : package = rule.source ++ rest) :
    convert rules package = (rule.target ++ rest).map separated := by
  have hholds := List.find?_some h
  have hgoverns : rule.Governs package := holds_iff.1 hholds
  rw [convert, h, ← String.toList_inj, String.toList_map, String.toList_ofList]
  dsimp only
  rw [rest?_of_governs hgoverns hrest, Option.getD_some, String.toList_append]
  rfl

end PackageRule

namespace ClientNaming

open PackageRule

/-- However rules are added, they are sorted after the order in which they were added. -/
lemma arranged_foldl_addRules {naming : ClientNaming} {added : List PackageRule}
    (h : Arranged added naming.rules) (batches : List (List PackageRule)) :
    Arranged (added ++ batches.flatten) (batches.foldl addRules naming).rules := by
  induction batches generalizing naming added with
  | nil => simpa using h
  | cons batch batches ih =>
    rw [List.foldl_cons, List.flatten_cons, ← List.append_assoc]
    exact ih (h.add batch)

lemma arranged_naming (graph : TypeGraph) (batches : List (List PackageRule)) :
    Arranged batches.flatten (batches.foldl addRules graph.naming).rules := by
  have hnone : Arranged [] graph.naming.rules := ⟨.nil, fun _ => rfl⟩
  exact arranged_foldl_addRules hnone batches

lemma arranged_addRules (graph : TypeGraph) (rules : List PackageRule) :
    Arranged rules (graph.naming.addRules rules).rules := by
  simpa using arranged_naming graph [rules]

/-- A package for which no rule holds keeps its segments. Otherwise the source of the rule that
counts, the longest one and of equal ones the one that was added first, is replaced by its target,
and the rest is kept. So what matters is which rules there are and in which order those with the
same source were added, and neither the batches in which this was done nor the order among rules
with different sources. -/
theorem packageName_by_longest_rule (graph : TypeGraph) (batches : List (List PackageRule))
    (package : String) :
    ((∀ rule ∈ batches.flatten, ¬ rule.Governs package) →
      (batches.foldl addRules graph.naming).packageName package = package.map separated) ∧
    ((∃ rule ∈ batches.flatten, rule.Governs package) →
      ∃ rule, Decides batches.flatten package rule) ∧
    (∀ rule rest, Decides batches.flatten package rule → package = rule.source ++ rest →
      (batches.foldl addRules graph.naming).packageName package =
        (rule.target ++ rest).map separated) ∧
    ∀ other : List (List PackageRule),
      (∀ source, other.flatten.filter (·.source = source) =
        batches.flatten.filter (·.source = source)) →
      (other.foldl addRules graph.naming).packageName package =
        (batches.foldl addRules graph.naming).packageName package := by
  have harranged := arranged_naming graph batches
  refine ⟨fun hnone => convert_of_find?_eq_none (harranged.find?_eq_none_iff.2 hnone), ?_,
    fun rule rest hdecides hrest =>
      convert_of_find?_eq_some (harranged.find?_eq_some_iff.2 hdecides) hrest, ?_⟩
  · rintro ⟨rule, hmem, hgoverns⟩
    obtain ⟨found, hfound⟩ := harranged.exists_find? hmem hgoverns
    exact ⟨found, harranged.decides_of_find? hfound⟩
  · intro other hsame
    have hother : Arranged batches.flatten (other.foldl addRules graph.naming).rules :=
      ⟨(arranged_naming graph other).sorted, fun source =>
        ((arranged_naming graph other).stable source).trans (hsame source)⟩
    have hfind : (other.foldl addRules graph.naming).rules.find? (·.holds package) =
        (batches.foldl addRules graph.naming).rules.find? (·.holds package) :=
      Option.ext fun rule => hother.find?_eq_some_iff.trans harranged.find?_eq_some_iff.symm
    rw [packageName, packageName, convert, convert, hfind]

/-- A rule for a package, and later two for a package inside it. -/
def nestedRules : List (List PackageRule) :=
  [[⟨"a", "A"⟩], [⟨"a.b", "B.C"⟩, ⟨"a.b", "D"⟩]]

/-- The rule with the longer source counts although it was added later, and of two with the same
source the first one. -/
theorem nested_package_by_longer_rule :
    Decides nestedRules.flatten "a.b.c" ⟨"a.b", "B.C"⟩ ∧
      (nestedRules.foldl addRules (TypeGraph.bare .standard).naming).packageName "a.b.c" =
        "B\\C\\c" := by
  have hdecides : Decides nestedRules.flatten "a.b.c" ⟨"a.b", "B.C"⟩ :=
    ⟨.inr ⟨"c", rfl⟩, [⟨"a", "A"⟩], [⟨"a.b", "D"⟩], rfl, by decide, by decide⟩
  obtain ⟨-, -, hname, -⟩ := packageName_by_longest_rule (.bare .standard) nestedRules "a.b.c"
  refine ⟨hdecides, (hname ⟨"a.b", "B.C"⟩ ".c" hdecides rfl).trans ?_⟩
  rw [← String.toList_inj, String.toList_map]
  decide

end ClientNaming

end SchemaTyping
