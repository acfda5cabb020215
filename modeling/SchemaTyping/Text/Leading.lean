/-!
# Leading text

Whether a text starts with another one, and what follows then.
-/

namespace SchemaTyping

/-- The text after a word that it starts with. -/
def afterWord? : List Char → List Char → Option (List Char)
  | [], text => some text
  | w :: word, c :: text => if w = c then afterWord? word text else none
  | _ :: _, [] => none

/-- A text starts with a word exactly when it is the word followed by what is found after it. -/
theorem afterWord?_eq_some_iff {word text rest : List Char} :
    afterWord? word text = some rest ↔ text = word ++ rest := by
  fun_induction afterWord? word text with
  | case1 => simp [eq_comm]
  | case2 c word text ih => simp [ih]
  | case3 w word c text hne => simp [Ne.symm hne]
  | case4 => simp

@[simp] theorem afterWord?_append (word rest : List Char) :
    afterWord? word (word ++ rest) = some rest :=
  afterWord?_eq_some_iff.2 rfl

/-- A text that starts with a word does not get longer without it. -/
theorem length_afterWord?_le {word text rest : List Char} (h : afterWord? word text = some rest) :
    rest.length ≤ text.length := by
  rw [afterWord?_eq_some_iff.1 h, List.length_append]
  omega

/-- A text does not get longer without its first characters. -/
theorem length_dropWhile_le {α : Type} (p : α → Bool) (cs : List α) :
    (cs.dropWhile p).length ≤ cs.length :=
  (List.dropWhile_suffix p).length_le

end SchemaTyping
