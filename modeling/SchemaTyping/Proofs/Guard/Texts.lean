import SchemaTyping.Proofs.Run.Termination
import SchemaTyping.Proofs.Visit.Parts

/-!
# What texts tell of uses

The guard knows the open uses by their texts. A text begins with the name of its use, and what
follows the name begins with a mark. For ordinary uses that is enough to take the text apart in one
way only: a name ends where the first mark stands, the brackets of arrays are counted, and an
argument ends where a comma or the closing mark stands. So ordinary uses that have one text are the
same use.
-/

namespace SchemaTyping

open Run

namespace TypeUse

/-! ### Words at the beginning -/

/-- A text that is empty or goes on with one of some characters. -/
def GoesOnWith (allowed rest : List Char) : Prop :=
  ∀ c ∈ rest.head?, c ∈ allowed

@[simp] lemma goesOnWith_nil (allowed : List Char) : GoesOnWith allowed [] := nofun

@[simp] lemma goesOnWith_cons {allowed rest : List Char} {c : Char} :
    GoesOnWith allowed (c :: rest) ↔ c ∈ allowed := by
  simp [GoesOnWith]

lemma GoesOnWith.mono {allowed more rest : List Char} (h : GoesOnWith allowed rest)
    (hsub : allowed ⊆ more) : GoesOnWith more rest := fun c hc => hsub (h c hc)

/-- A word ends where the first character stands that it may not have. -/
lemma takeWhile_word {marks word rest : List Char} (hword : word.Disjoint marks)
    (hrest : GoesOnWith marks rest) : (word ++ rest).takeWhile (· ∉ marks) = word := by
  rw [List.takeWhile_append_of_pos (by simpa using List.disjoint_left.1 hword)]
  cases rest with
  | nil => simp
  | cons c rest => simp [goesOnWith_cons.1 hrest]

lemma word_cancel {marks word word' rest rest' : List Char} (hword : word.Disjoint marks)
    (hword' : word'.Disjoint marks) (hrest : GoesOnWith marks rest)
    (hrest' : GoesOnWith marks rest') (h : word ++ rest = word' ++ rest') :
    word = word' ∧ rest = rest' := by
  have heq : word = word' := by
    rw [← takeWhile_word hword hrest, h, takeWhile_word hword' hrest']
  subst heq
  exact ⟨rfl, List.append_cancel_left h⟩

/-! ### Names -/

/-- The arguments of a use as they follow its name. -/
def argumentsText : List TypeUse → List Char
  | [] => []
  | arg :: rest => '<' :: (arg.text.toList ++ ((textOfArgs rest).toList ++ ['>']))

lemma toList_text_declared (name : String) (args : List TypeUse) :
    (declared name args).text.toList = name.toList ++ argumentsText args := by
  cases args with
  | nil => simp [text, argumentsText]
  | cons arg rest => simp [text, argumentsText]

lemma goesOnWith_argumentsText {allowed rest : List Char} (hmark : '<' ∈ allowed)
    (hrest : GoesOnWith allowed rest) (args : List TypeUse) :
    GoesOnWith allowed (argumentsText args ++ rest) := by
  cases args with
  | nil => exact hrest
  | cons arg args => exact goesOnWith_cons.2 hmark

end TypeUse

open TypeUse

/-- Names without `<` can be read off the texts of their uses. -/
lemma isUseOf_text_iff {name other : String} (hname : '<' ∉ name.toList)
    (hother : '<' ∉ other.toList) (args : List TypeUse) :
    isUseOf name (TypeUse.declared other args).text = true ↔ other = name := by
  constructor
  · intro h
    have hsplit : ∃ rest, (TypeUse.declared other args).text.toList = name.toList ++ rest ∧
        GoesOnWith ['<'] rest := by
      unfold isUseOf at h
      split at h
      · next heq => exact ⟨[], afterWord?_eq_some_iff.1 heq, by simp⟩
      · next tail heq => exact ⟨_, afterWord?_eq_some_iff.1 heq, by simp⟩
      · simp at h
    obtain ⟨rest, htext, hrest⟩ := hsplit
    have hargs : GoesOnWith ['<'] (argumentsText args) := by
      simpa using goesOnWith_argumentsText (by simp) (goesOnWith_nil ['<']) args
    rw [toList_text_declared] at htext
    have hwords := word_cancel (by simpa using hother) (by simpa using hname) hargs hrest htext
    exact String.toList_inj.1 hwords.1
  · rintro rfl
    exact isUseOf_text other args

/-- The stack counts the uses of a name exactly if no name has a `<` in it. -/
lemma UseStack.usesOf_eq_countP {stack : UseStack} {uses : List TypeUse}
    (h : stack.entries = uses.map TypeUse.text) {name : String} (hname : '<' ∉ name.toList)
    (huses : ∀ use ∈ uses, ∃ other ∈ use.declaredName?, '<' ∉ other.toList) :
    stack.usesOf name = uses.countP (·.declaredName? = some name) := by
  rw [usesOf, h, List.countP_map]
  apply List.countP_congr
  intro use huse
  obtain ⟨other, hother, hlegible⟩ := huses use huse
  obtain ⟨args, rfl⟩ := TypeUse.eq_declared_of_declaredName? hother
  simpa [TypeUse.declaredName?] using isUseOf_text_iff hname hlegible args

namespace TypeUse

/-! ### Ordinary uses -/

/-- The marks by which texts are put together. -/
def marks : List Char := ['<', '>', ',', '?', '[', ']', ' ']

/-- A name that can be told from all else in a text: it is not empty, it is no word for a primitive
type, and there is no mark in it. -/
structure OrdinaryName (name : String) : Prop where
  ne_empty : name ≠ ""
  ne_word : ∀ kind : PrimitiveKind, name ≠ kind.name
  noMarks : name.toList.Disjoint marks

lemma disjoint_marks_of_all {word : List Char} (h : word.all (· ∉ marks)) : word.Disjoint marks :=
  List.disjoint_left.2 (by simpa using h)

mutual
/-- Wildcards stand nowhere but directly among arguments. -/
def wildcardsInPlace : TypeUse → Bool
  | .primitive _ => true
  | .declared _ args => wildcardsInPlaceOfArgs args
  | .array component => component.wildcardsInPlace
  | .var _ none => true
  | .var _ (some bound) => bound.wildcardsInPlace
  | .wildcard _ => false

/-- Wildcards in a list of arguments stand nowhere but directly in the list or among arguments. -/
def wildcardsInPlaceOfArgs : List TypeUse → Bool
  | [] => true
  | .wildcard none :: rest => wildcardsInPlaceOfArgs rest
  | .wildcard (some bound) :: rest => bound.wildcardsInPlace && wildcardsInPlaceOfArgs rest
  | arg :: rest => arg.wildcardsInPlace && wildcardsInPlaceOfArgs rest
end

/-- A type without variables, with wildcards as arguments only and with ordinary names. -/
structure Ordinary (type : TypeUse) : Prop where
  typeVariables : type.typeVariables = []
  wildcards : type.wildcardsInPlace
  names : type.Within OrdinaryName

/-- What may be an argument of an ordinary use. -/
inductive OrdinaryArgument : TypeUse → Prop where
  | type {type : TypeUse} (h : type.Ordinary) : OrdinaryArgument type
  | unbounded : OrdinaryArgument (.wildcard none)
  | bounded {bound : TypeUse} (h : bound.Ordinary) : OrdinaryArgument (.wildcard (some bound))

lemma not_ordinary_wildcard (bound : Option TypeUse) : ¬ (wildcard bound).Ordinary := fun h => by
  simpa [wildcardsInPlace] using h.wildcards

lemma not_ordinary_var (name : String) (bound : Option TypeUse) : ¬ (var name bound).Ordinary := by
  intro h
  have hvariables := h.typeVariables
  cases bound <;> simp [TypeUse.typeVariables] at hvariables

lemma Ordinary.component {component : TypeUse} (h : (array component).Ordinary) :
    component.Ordinary where
  typeVariables := h.typeVariables
  wildcards := by simpa [wildcardsInPlace] using h.wildcards
  names := h.names

lemma Ordinary.name {name : String} {args : List TypeUse} (h : (declared name args).Ordinary) :
    OrdinaryName name :=
  (within_declared.1 h.names).1

lemma Ordinary.argument {name : String} {args : List TypeUse} {arg : TypeUse}
    (h : (declared name args).Ordinary) (harg : arg ∈ args) : arg.OrdinaryArgument := by
  have hpart := IsPart.argument name harg
  have hvariables := hpart.typeVariables_eq_nil h.typeVariables
  have hnames := hpart.within h.names
  have hwildcards : wildcardsInPlaceOfArgs args := by simpa [wildcardsInPlace] using h.wildcards
  clear h hpart
  induction args with
  | nil => cases harg
  | cons first rest ih =>
    rcases List.mem_cons.1 harg with rfl | hrest
    · cases arg with
      | wildcard bound =>
        cases bound with
        | none => exact .unbounded
        | some bound =>
          simp only [wildcardsInPlaceOfArgs, Bool.and_eq_true] at hwildcards
          exact .bounded ⟨hvariables, hwildcards.1, hnames⟩
      | primitive | declared | array | var =>
        simp only [wildcardsInPlaceOfArgs, Bool.and_eq_true] at hwildcards
        exact .type ⟨hvariables, hwildcards.1, hnames⟩
    · refine ih hrest ?_
      cases first with
      | wildcard bound => cases bound <;> simp_all [wildcardsInPlaceOfArgs]
      | primitive | declared | array | var => simp_all [wildcardsInPlaceOfArgs]

/-! ### Reading a text -/

/-- The brackets of a number of dimensions. -/
def brackets : Nat → List Char
  | 0 => []
  | dimensions + 1 => '[' :: ']' :: brackets dimensions

lemma toList_text_array (component : TypeUse) (dimensions : Nat) (rest : List Char) :
    (array component).text.toList ++ (brackets dimensions ++ rest) =
      component.text.toList ++ (brackets (dimensions + 1) ++ rest) := by
  simp [text, brackets]

lemma goesOnWith_brackets {rest : List Char} (hrest : GoesOnWith [',', '>'] rest)
    (dimensions : Nat) : GoesOnWith ['[', ',', '>'] (brackets dimensions ++ rest) := by
  cases dimensions with
  | zero => exact hrest.mono (by simp)
  | succ dimensions => simp [brackets]

/-- Brackets are counted up to the end of an argument. -/
lemma brackets_cancel {dimensions dimensions' : Nat} {rest rest' : List Char}
    (hrest : GoesOnWith [',', '>'] rest) (hrest' : GoesOnWith [',', '>'] rest')
    (h : brackets dimensions ++ rest = brackets dimensions' ++ rest') :
    dimensions = dimensions' ∧ rest = rest' := by
  induction dimensions generalizing dimensions' with
  | zero =>
    cases dimensions' with
    | zero => exact ⟨rfl, h⟩
    | succ dimensions' =>
      obtain rfl : rest = '[' :: ']' :: (brackets dimensions' ++ rest') := h
      simp at hrest
  | succ dimensions ih =>
    cases dimensions' with
    | zero =>
      obtain rfl : '[' :: ']' :: (brackets dimensions ++ rest) = rest' := h
      simp at hrest'
    | succ dimensions' =>
      simp only [brackets, List.cons_append, List.cons.injEq, true_and] at h
      obtain ⟨rfl, rfl⟩ := ih h
      exact ⟨rfl, rfl⟩

/-- The text of a type tells the type among ordinary ones, and where it ends, with the brackets of
further dimensions behind it. -/
def Readable (type : TypeUse) : Prop :=
  ∀ other : TypeUse, other.Ordinary → ∀ dimensions dimensions' rest rest',
    GoesOnWith [',', '>'] rest → GoesOnWith [',', '>'] rest' →
    type.text.toList ++ (brackets dimensions ++ rest) =
      other.text.toList ++ (brackets dimensions' ++ rest') →
    array^[dimensions] type = array^[dimensions'] other ∧ rest = rest'

/-- The text of an argument tells the argument, and where it ends. -/
def ReadableArgument (arg : TypeUse) : Prop :=
  ∀ other : TypeUse, other.OrdinaryArgument → ∀ rest rest',
    GoesOnWith [',', '>'] rest → GoesOnWith [',', '>'] rest' →
    arg.text.toList ++ rest = other.text.toList ++ rest' → arg = other ∧ rest = rest'

lemma Readable.array {component : TypeUse} (h : component.Readable) :
    (array component).Readable := by
  intro other hother dimensions dimensions' rest rest' hrest hrest' htext
  rw [toList_text_array] at htext
  exact h other hother (dimensions + 1) dimensions' rest rest' hrest hrest' htext

/-- What is no array is readable if it can be told from all that is no array. -/
lemma Readable.of_base {type : TypeUse}
    (h : ∀ other : TypeUse, other.Ordinary → (∀ component, other ≠ .array component) →
      ∀ rest rest', GoesOnWith ['[', ',', '>'] rest → GoesOnWith ['[', ',', '>'] rest' →
        type.text.toList ++ rest = other.text.toList ++ rest' → type = other ∧ rest = rest') :
    type.Readable := by
  intro other hother dimensions dimensions' rest rest' hrest hrest' htext
  induction other generalizing dimensions' with
  | array component ih =>
    rw [toList_text_array] at htext
    exact ih hother.component (dimensions' + 1) htext
  | primitive | declared | var | wildcard =>
    obtain ⟨rfl, hbrackets⟩ := h _ hother nofun _ _ (goesOnWith_brackets hrest dimensions)
      (goesOnWith_brackets hrest' dimensions') htext
    obtain ⟨rfl, rfl⟩ := brackets_cancel hrest hrest' hbrackets
    exact ⟨rfl, rfl⟩

/-! ### Reading arguments -/

lemma toList_textOfArgs (arg : TypeUse) (args : List TypeUse) :
    (textOfArgs (arg :: args)).toList =
      ',' :: ' ' :: (arg.text.toList ++ (textOfArgs args).toList) := by
  simp [textOfArgs]

lemma goesOnWith_textOfArgs (args : List TypeUse) (rest : List Char) :
    GoesOnWith [',', '>'] ((textOfArgs args).toList ++ '>' :: rest) := by
  cases args with
  | nil => simp [textOfArgs]
  | cons arg args => simp [toList_textOfArgs]

/-- Arguments and their end can be told from the text of the list. -/
lemma textOfArgs_cancel {args args' : List TypeUse} {rest rest' : List Char}
    (hargs : ∀ arg ∈ args, arg.ReadableArgument) (hargs' : ∀ arg ∈ args', arg.OrdinaryArgument)
    (h : (textOfArgs args).toList ++ '>' :: rest = (textOfArgs args').toList ++ '>' :: rest') :
    args = args' ∧ rest = rest' := by
  induction args generalizing args' with
  | nil =>
    cases args' with
    | nil => simpa [textOfArgs] using h
    | cons arg' args' => simp [textOfArgs] at h
  | cons arg args ih =>
    cases args' with
    | nil => simp [textOfArgs] at h
    | cons arg' args' =>
      rw [List.forall_mem_cons] at hargs hargs'
      simp only [toList_textOfArgs, List.cons_append, List.append_assoc, List.cons.injEq,
        true_and] at h
      obtain ⟨rfl, hlater⟩ := hargs.1 arg' hargs'.1 _ _ (goesOnWith_textOfArgs args rest)
        (goesOnWith_textOfArgs args' rest') h
      obtain ⟨rfl, rfl⟩ := ih hargs.2 hargs'.2 hlater
      exact ⟨rfl, rfl⟩

/-- The arguments of a use and where they end can be told from what follows its name. -/
lemma argumentsText_cancel {args args' : List TypeUse} {rest rest' : List Char}
    (hargs : ∀ arg ∈ args, arg.ReadableArgument) (hargs' : ∀ arg ∈ args', arg.OrdinaryArgument)
    (hrest : GoesOnWith ['[', ',', '>'] rest) (hrest' : GoesOnWith ['[', ',', '>'] rest')
    (h : argumentsText args ++ rest = argumentsText args' ++ rest') :
    args = args' ∧ rest = rest' := by
  cases args with
  | nil =>
    cases args' with
    | nil => exact ⟨rfl, h⟩
    | cons arg' args' =>
      obtain rfl : rest = argumentsText (arg' :: args') ++ rest' := h
      simp [argumentsText] at hrest
  | cons arg args =>
    cases args' with
    | nil =>
      obtain rfl : argumentsText (arg :: args) ++ rest = rest' := h
      simp [argumentsText] at hrest'
    | cons arg' args' =>
      -- Behind its opening mark a list of arguments is read like the rest of a longer one.
      have hlist : (textOfArgs (arg :: args)).toList ++ '>' :: rest =
          (textOfArgs (arg' :: args')).toList ++ '>' :: rest' := by
        simpa [argumentsText, toList_textOfArgs] using h
      exact textOfArgs_cancel hargs hargs' hlist

lemma Ordinary.exists_head {type : TypeUse} (h : type.Ordinary) :
    ∃ c tail, type.text.toList = c :: tail ∧ c ∉ marks := by
  induction type with
  | primitive kind => cases kind <;> exact ⟨_, _, rfl, by decide⟩
  | declared name args =>
    rw [toList_text_declared]
    cases hname : name.toList with
    | nil => exact absurd (String.toList_eq_nil_iff.1 hname) h.name.ne_empty
    | cons c tail =>
      exact ⟨c, _, rfl, List.disjoint_left.1 h.name.noMarks (by simp [hname])⟩
  | array component ih =>
    obtain ⟨c, tail, htext, hc⟩ := ih h.component
    exact ⟨c, tail ++ ['[', ']'], by simp [text, htext], hc⟩
  | var name bound => exact absurd h (not_ordinary_var name bound)
  | wildcard bound => exact absurd h (not_ordinary_wildcard bound)

/-- No ordinary type reads like a wildcard. -/
lemma Ordinary.text_ne_wildcard {type : TypeUse} (h : type.Ordinary) (bound : Option TypeUse)
    (rest rest' : List Char) :
    type.text.toList ++ rest ≠ (wildcard bound).text.toList ++ rest' := by
  intro htext
  obtain ⟨c, tail, hhead, hc⟩ := h.exists_head
  have hmark : c = '?' := by
    cases bound <;> simp_all [text]
  exact hc (hmark ▸ by decide)

lemma Readable.argument {type : TypeUse} (htype : type.Ordinary) (h : type.Readable) :
    type.ReadableArgument := by
  intro other hother rest rest' hrest hrest' htext
  cases hother with
  | type hother => exact h other hother 0 0 rest rest' hrest hrest' htext
  | unbounded => exact absurd htext (htype.text_ne_wildcard none rest rest')
  | bounded => exact absurd htext (htype.text_ne_wildcard _ rest rest')

lemma readableArgument_unbounded : (wildcard none).ReadableArgument := by
  intro other hother rest rest' hrest hrest' htext
  cases hother with
  | type hother => exact absurd htext.symm (hother.text_ne_wildcard none rest' rest)
  | unbounded => exact ⟨rfl, List.append_cancel_left htext⟩
  | bounded =>
    obtain rfl : rest = _ := by simpa [text] using htext
    simp at hrest

lemma Readable.bounded {bound : TypeUse} (h : bound.Readable) :
    (wildcard (some bound)).ReadableArgument := by
  intro other hother rest rest' hrest hrest' htext
  cases hother with
  | type hother => exact absurd htext.symm (hother.text_ne_wildcard _ rest' rest)
  | unbounded =>
    obtain rfl : _ = rest' := by simpa [text] using htext
    simp at hrest'
  | @bounded bound' hbound' =>
    have hbounds : bound.text.toList ++ rest = bound'.text.toList ++ rest' := by
      simpa [text] using htext
    obtain ⟨rfl, rfl⟩ := h bound' hbound' 0 0 rest rest' hrest hrest' hbounds
    exact ⟨rfl, rfl⟩

/-! ### Reading types -/

lemma GoesOnWith.marks {rest : List Char} (h : GoesOnWith ['[', ',', '>'] rest) :
    GoesOnWith marks rest :=
  h.mono (by decide)

lemma disjoint_name_marks (kind : PrimitiveKind) : kind.name.toList.Disjoint marks := by
  apply disjoint_marks_of_all
  cases kind <;> decide

lemma primitiveName_injective : Function.Injective PrimitiveKind.name := by
  intro kind other h
  cases kind <;> cases other <;> simp_all [PrimitiveKind.name]

lemma readable_primitive (kind : PrimitiveKind) : (primitive kind).Readable := by
  apply Readable.of_base
  intro other hother hnot rest rest' hrest hrest' htext
  cases other with
  | primitive other =>
    obtain ⟨hname, rfl⟩ := word_cancel (disjoint_name_marks kind) (disjoint_name_marks other)
      hrest.marks hrest'.marks htext
    rw [primitiveName_injective (String.toList_inj.1 hname)]
    exact ⟨rfl, rfl⟩
  | declared name args =>
    rw [toList_text_declared, List.append_assoc] at htext
    obtain ⟨hname, -⟩ := word_cancel (disjoint_name_marks kind) hother.name.noMarks
      hrest.marks (goesOnWith_argumentsText (by decide) hrest'.marks args) htext
    exact absurd (String.toList_inj.1 hname).symm (hother.name.ne_word kind)
  | array component => exact absurd rfl (hnot component)
  | var name bound => exact absurd hother (not_ordinary_var name bound)
  | wildcard bound => exact absurd hother (not_ordinary_wildcard bound)

lemma readable_declared {name : String} {args : List TypeUse}
    (htype : (declared name args).Ordinary) (hargs : ∀ arg ∈ args, arg.ReadableArgument) :
    (declared name args).Readable := by
  apply Readable.of_base
  intro other hother hnot rest rest' hrest hrest' htext
  rw [toList_text_declared, List.append_assoc] at htext
  have hafter := goesOnWith_argumentsText (by decide) hrest.marks args
  cases other with
  | primitive other =>
    obtain ⟨hname, -⟩ := word_cancel htype.name.noMarks (disjoint_name_marks other) hafter
      hrest'.marks htext
    exact absurd (String.toList_inj.1 hname) (htype.name.ne_word other)
  | declared name' args' =>
    rw [toList_text_declared, List.append_assoc] at htext
    obtain ⟨hname, harguments⟩ := word_cancel htype.name.noMarks hother.name.noMarks hafter
      (goesOnWith_argumentsText (by decide) hrest'.marks args') htext
    obtain rfl := String.toList_inj.1 hname
    obtain ⟨rfl, rfl⟩ := argumentsText_cancel hargs (fun _ => hother.argument) hrest hrest'
      harguments
    exact ⟨rfl, rfl⟩
  | array component => exact absurd rfl (hnot component)
  | var name bound => exact absurd hother (not_ordinary_var name bound)
  | wildcard bound => exact absurd hother (not_ordinary_wildcard bound)

/-- Ordinary types and arguments are readable. -/
lemma readable (type : TypeUse) :
    (type.Ordinary → type.Readable) ∧ (type.OrdinaryArgument → type.ReadableArgument) := by
  -- The arguments of a use may be wildcards, so both are proved by one induction.
  induction type with
  | primitive kind =>
    have hreadable := readable_primitive kind
    exact ⟨fun _ => hreadable, fun | .type h => hreadable.argument h⟩
  | declared name args ih =>
    have hreadable (h : (declared name args).Ordinary) : (declared name args).Readable :=
      readable_declared h fun arg harg => (ih arg harg).2 (h.argument harg)
    exact ⟨hreadable, fun | .type h => (hreadable h).argument h⟩
  | array component ih =>
    have hreadable (h : (array component).Ordinary) : (array component).Readable :=
      (ih.1 h.component).array
    exact ⟨hreadable, fun | .type h => (hreadable h).argument h⟩
  | var name bound =>
    have hnot := not_ordinary_var name bound
    exact ⟨fun h => absurd h hnot, fun | .type h => absurd h hnot⟩
  | wildcard bound ih =>
    refine ⟨fun h => absurd h (not_ordinary_wildcard bound), fun h => ?_⟩
    cases h with
    | type h => exact absurd h (not_ordinary_wildcard bound)
    | unbounded => exact readableArgument_unbounded
    | bounded h => exact ((ih _ rfl).1 h).bounded

/-- Ordinary types are told apart by their texts. -/
lemma Ordinary.eq_of_text_eq {type other : TypeUse} (htype : type.Ordinary)
    (hother : other.Ordinary) (htext : type.text = other.text) : type = other :=
  ((readable type).1 htype other hother 0 0 [] [] (by simp) (by simp) (by rw [htext])).1

end TypeUse

namespace Classifier

/-- Ordinary types are the same type if they have one text, so the texts on the stack stand for the
uses themselves: as long as the open uses are ordinary, the text of an ordinary use is on the stack
exactly if that same use is open. -/
theorem texts_tell_ordinary_uses :
    (∀ type other : TypeUse, type.Ordinary → other.Ordinary →
      (type.text = other.text ↔ type = other)) ∧
      ∀ (classifier : Classifier) (type : TypeUse) (context : Context) (state : State),
        classifier.Reaches UseStack.blocks (.initial type context ∅) state →
        (∀ entered ∈ state.opened, entered.use.Ordinary) → ∀ use : TypeUse, use.Ordinary →
          (use.text ∈ state.stack ↔ ∃ entered ∈ state.opened, entered.use = use) := by
  refine ⟨?_, ?_⟩
  · intro type other htype hother
    exact ⟨htype.eq_of_text_eq hother, congrArg TypeUse.text⟩
  · intro classifier type context state hreach hopened use huse
    rw [UseStack.mem_iff, (Bounded.of_reaches hreach).entries, List.mem_map]
    constructor
    · rintro ⟨entered, hentered, htext⟩
      exact ⟨entered, hentered, (hopened entered hentered).eq_of_text_eq huse htext⟩
    · rintro ⟨entered, hentered, rfl⟩
      exact ⟨entered, hentered, rfl⟩

/-- While `L<M<A>, ? extends A[]>` is open, `L<M<A, ? extends A>[]>` is not taken for it, though
both are uses of `L` and their texts have the same words and marks. -/
theorem regrouped_arguments_told_apart :
    let classifier : Classifier := ⟨.bare ⟨"O", .ofList ["L"], ∅, ∅⟩, ∅⟩
    let a := TypeUse.declared "A" []
    let args := [.declared "M" [a], .wildcard (some (.array a))]
    let other := TypeUse.declared "L" [.array (.declared "M" [a, .wildcard (some a)])]
    (TypeUse.declared "L" args).Ordinary ∧ other.Ordinary ∧
      (TypeUse.declared "L" args).text ≠ other.text ∧
      ∃ state, classifier.Reaches UseStack.blocks (.initial (.declared "L" args) .plain ∅) state ∧
        (∀ entered ∈ state.opened, entered.use.Ordinary) ∧
        (TypeUse.declared "L" args).text ∈ state.stack ∧ other.text ∉ state.stack := by
  intro classifier a args other
  have hnames : ∀ name ∈ ["L", "M", "A"], TypeUse.OrdinaryName name := by
    simp only [List.forall_mem_cons]
    refine ⟨?_, ?_, ?_, nofun⟩
    all_goals
      exact ⟨by decide, fun kind => by cases kind <;> decide,
        TypeUse.disjoint_marks_of_all (by decide)⟩
  have hordinary (type : TypeUse) (hvariables : type.typeVariables = [])
      (hwildcards : type.wildcardsInPlace) (hsub : type.names ⊆ ["L", "M", "A"]) :
      type.Ordinary := ⟨hvariables, hwildcards, fun name hname => hnames name (hsub hname)⟩
  have htype : (TypeUse.declared "L" args).Ordinary := hordinary _ rfl rfl (by decide)
  have hother : other.Ordinary := hordinary _ rfl rfl (by decide)
  obtain ⟨htexts, hstack⟩ := texts_tell_ordinary_uses
  have hstep := classifier.step_of_not_blocks (UseStack.not_blocks_empty "L" (.declared "L" args))
    .plain []
  have hopened : ∀ entered ∈ [(⟨"L", args, .plain⟩ : Entered)], entered.use.Ordinary :=
    List.forall_mem_singleton.2 htype
  have hontop := hstack classifier _ .plain _ (.single hstep) hopened
  refine ⟨htype, hother, ?_, _, .single hstep, hopened, ?_, ?_⟩
  · rw [Ne, htexts _ _ htype hother]
    decide
  · rw [hontop _ htype]
    exact ⟨_, List.mem_cons_self, rfl⟩
  · rw [hontop _ hother]
    rintro ⟨entered, hentered, heq⟩
    rw [List.mem_singleton.1 hentered] at heq
    exact absurd heq (by decide)

end Classifier

end SchemaTyping
