import SchemaTyping.Proofs.Results
import SchemaTyping.Proofs.Visit.Equations

/-!
# Errors of visits

The only errors that a visit comes to are those of enumerations of qualified names. The errors of
tables of adapters belong to the search for an adapter, so they are never errors of a visit.
-/

namespace SchemaTyping

/-- An error that stands for a table of adapters. -/
def MetadataError.OfAdapters : MetadataError → Prop
  | .packageAdapterWithoutType _ | .unadaptableType _ _ => True
  | .qnameEnumBase _ _ | .duplicateUnknownQName _ | .duplicateQNameValue _ _ => False

/-! ### Enumerations -/

lemma Declaration.not_ofAdapters_tabulate {declaration : Declaration} {common : String}
    {constants : List Constant} {seen : List String} {unknown : Option String}
    {error : MetadataError}
    (h : declaration.tabulate common constants seen unknown = .error error) :
    ¬ error.OfAdapters := by
  fun_induction tabulate declaration common constants seen unknown with
  | case1 => cases h
  | case2 => cases h; exact id
  | case3 _ _ _ _ ih => exact ih h
  | case4 _ _ _ _ _ _ ih => exact ih h
  | case5 => cases h; exact id
  | case6 _ _ _ _ _ _ _ _ ih =>
    rcases bind_eq_error_iff.1 h with hrest | ⟨found, -, hfound⟩
    · exact ih hrest
    · cases hfound

lemma Declaration.not_ofAdapters_qnameTable {declaration : Declaration} {info : QNameInfo}
    {package : Option Package} {error : MetadataError}
    (h : declaration.qnameTable info package = .error error) : ¬ error.OfAdapters := by
  rw [qnameTable] at h
  cases hbase : info.base with
  | qname =>
    rw [hbase] at h
    cases h
    exact id
  | uri =>
    rw [hbase] at h
    rcases bind_eq_error_iff.1 h with htable | ⟨found, -, hfound⟩
    · exact not_ofAdapters_tabulate htable
    · cases hfound

namespace TypeGraph

lemma ofAdapters_tabulateAdapters {package : String} {adapters : List Adapter}
    {table : AdapterTable} {error : MetadataError}
    (h : tabulateAdapters package adapters table = .error error) : error.OfAdapters := by
  fun_induction tabulateAdapters package adapters table with
  | case1 => cases h
  | case2 => cases h; trivial
  | case3 => cases h; trivial
  | case4 _ _ _ _ _ _ _ ih => exact ih h

lemma ofAdapters_adapterTable {graph : TypeGraph} {package : String} {error : MetadataError}
    (h : graph.adapterTable package = .error error) : error.OfAdapters := by
  rw [adapterTable] at h
  split at h
  · cases h
  · exact ofAdapters_tabulateAdapters h

end TypeGraph

namespace Classifier

variable {classifier : Classifier} {error : MetadataError}

/-- The error of a table of qualified names of an enumeration of the graph. -/
def EnumerationError (classifier : Classifier) (error : MetadataError) : Prop :=
  ∃ name declaration info, classifier.graph.declaration? name = some declaration ∧
    declaration.kind = .enumeration ∧ declaration.qnameInfo = some info ∧
    declaration.qnameTable info (classifier.graph.package? declaration.package) = .error error

lemma EnumerationError.not_ofAdapters (h : classifier.EnumerationError error) :
    ¬ error.OfAdapters := by
  obtain ⟨_, _, _, _, _, _, htable⟩ := h
  exact Declaration.not_ofAdapters_qnameTable htable

lemma enumerationError_of_named {name : String} (h : classifier.named name = .error error) :
    classifier.EnumerationError error := by
  rw [named] at h
  split at h
  · cases h
  · next declaration hdecl =>
    cases hkind : declaration.kind with
    | plainClass => rw [hkind] at h; cases h
    | interface => rw [hkind] at h; cases h
    | enumeration =>
      cases hinfo : declaration.qnameInfo with
      | none => rw [hkind, hinfo] at h; cases h
      | some info =>
        rw [hkind, hinfo] at h
        exact ⟨name, declaration, info, hdecl, hkind, hinfo, map_eq_error_iff.1 h⟩

/-- An error of a visit is that of an enumeration that was met. -/
theorem enumerationError_of_visit (type : TypeUse) (context : Context) (stack : UseStack)
    (h : classifier.visit type context stack = .error error) :
    classifier.EnumerationError error := by
  induction type, context, stack using classifier.visit_induction
    (Q := fun replacements stack =>
      classifier.visitReplacements replacements stack = .error error →
        classifier.EnumerationError error) with
  | primitive kind context stack => rw [visit_primitive] at h; cases h
  | dimension inner context stack ih =>
    rw [visit_array_array] at h
    exact ih (map_eq_error_iff.1 h)
  | array component context stack hcomponent ih =>
    rw [visit_array classifier hcomponent] at h
    exact ih h
  | varNone name context stack => rw [visit_var_none] at h; cases h
  | wildcardNone context stack => rw [visit_wildcard_none] at h; cases h
  | varSome name bound context stack ih =>
    rw [visit_var_some] at h
    exact ih (map_eq_error_iff.1 h)
  | wildcardSome bound context stack ih =>
    rw [visit_wildcard_some] at h
    exact ih (map_eq_error_iff.1 h)
  | cutShort name args context stack hblocks =>
    rw [visit_of_blocks classifier hblocks] at h
    cases h
  | failed name args context stack error' hpass hreplacements ih =>
    rw [visit_failed hpass hreplacements] at h
    cases h
    exact ih hreplacements
  | replaced name args context stack type hpass hreplacements ih =>
    rw [visit_replaced hpass hreplacements] at h
    cases h
  | map name args context stack key value hpass hreplacements hentry _ ihkey ihvalue =>
    rw [visit_map hpass hreplacements hentry] at h
    rcases bind_eq_error_iff.1 h with hkey | ⟨key', -, hvalue⟩
    · exact ihkey hkey
    · rcases bind_eq_error_iff.1 hvalue with hvalue | ⟨value', -, hmap⟩
      · exact ihvalue hvalue
      · cases hmap
  | component name args context stack component hpass hreplacements hentry hcomponent _ ih =>
    rw [visit_component hpass hreplacements hentry hcomponent] at h
    exact ih h
  | named name args context stack hpass hreplacements hentry hcomponent _ =>
    rw [visit_named hpass hreplacements hentry hcomponent] at h
    exact enumerationError_of_named (map_eq_error_iff.1 h)
  | nil stack hnil => rw [visitReplacements_nil] at hnil; cases hnil
  | unstructured rest stack ih hrest =>
    rw [visitReplacements_unstructured] at hrest
    exact ih (map_eq_error_iff.1 hrest)
  | type use rest stack ihuse ihrest hall =>
    rw [visitReplacements_type] at hall
    rcases bind_eq_error_iff.1 hall with huse | ⟨type, -, hrest⟩
    · exact ihuse huse
    · rcases bind_eq_error_iff.1 hrest with hrest | ⟨later, -, hlater⟩
      · exact ihrest hrest
      · cases hlater

end Classifier

end SchemaTyping
