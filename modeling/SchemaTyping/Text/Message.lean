import SchemaTyping.Text.Leading

/-!
# Marks in messages

Ticks set off a name in a message, and an arrow sets off the parts of a message from each other.
Where a message is cut, the first arrow counts, also if it stands in a name.
-/

namespace SchemaTyping

/-- A name between the marks that set it off in a message. -/
def ticked (name : String) : String :=
  "`" ++ name ++ "`"

/-- The mark between the parts of a message. -/
def arrow : String := " → "

/-- The text before the first place where a mark stands. -/
def beforeMark (mark : List Char) : List Char → List Char
  | [] => []
  | c :: rest =>
    if (afterWord? mark (c :: rest)).isSome then [] else c :: beforeMark mark rest

theorem isPrefix_beforeMark (mark text : List Char) : beforeMark mark text <+: text := by
  induction text with
  | nil => exact List.prefix_rfl
  | cons c rest ih =>
    unfold beforeMark
    split
    · exact List.nil_prefix
    · exact (List.prefix_cons_inj c).2 ih

/-- A text in which a mark stands nowhere is all before it. -/
theorem beforeMark_eq_self {mark text : List Char} (h : ¬ mark <:+: text) :
    beforeMark mark text = text := by
  induction text with
  | nil => rfl
  | cons c rest ih =>
    unfold beforeMark
    split
    · next hfound =>
      obtain ⟨after, hafter⟩ := Option.isSome_iff_exists.1 hfound
      exact absurd ⟨[], after, (afterWord?_eq_some_iff.1 hafter).symm⟩ h
    · rw [ih fun hrest => h (hrest.trans (List.suffix_cons c rest).isInfix)]

/-- The first part of a message that starts with a text and goes on after an arrow. An arrow in the
text, or one that begins in it, ends the part before the text does. -/
def firstPart (text : String) : String :=
  String.ofList (beforeMark arrow.toList (text ++ arrow).toList)

example : firstPart "known.a" = "known.a" ∧ firstPart "known.a → b" = "known.a" ∧
    firstPart "known.a →" = "known.a" := by decide

end SchemaTyping
