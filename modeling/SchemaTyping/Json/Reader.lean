import SchemaTyping.Json.Numeral
import SchemaTyping.Json.Quoted
import SchemaTyping.Json.Source

/-!
# Reading JSON text

A text is read from its characters. Every step hands on the characters that are left, with a
proof that they are fewer. What stands after the first value is not looked at, but for the one
character that has to set off a word or a number.
-/

namespace SchemaTyping.JsonSource

/-- The four characters that may stand between the parts of a text. -/
def isBlank (c : Char) : Bool :=
  c = ' ' || c = '\t' || c = '\n' || c = '\r'

/-- The text without the blanks at its head. -/
def skipBlank (cs : List Char) : List Char :=
  cs.dropWhile isBlank

theorem length_skipBlank_le (cs : List Char) : (skipBlank cs).length ≤ cs.length :=
  length_dropWhile_le isBlank cs

/-! ### Words, numbers and strings -/

/-- One of the words `true`, `false` and `null`. -/
def readWord : List Char → Option (JsonSource × List Char)
  | 't' :: rest => (afterWord? ['r', 'u', 'e'] rest).map fun rest => (bool true, rest)
  | 'f' :: rest => (afterWord? ['a', 'l', 's', 'e'] rest).map fun rest => (bool false, rest)
  | 'n' :: rest => (afterWord? ['u', 'l', 'l'] rest).map fun rest => (null, rest)
  | _ => none

/-- What a numeral stands for. -/
def ofNumeral (numeral : Numeral) : JsonSource :=
  if numeral.isOutOfRange then .unusable else .number numeral.text

/-- What the characters between quotes stand for. -/
def ofQuoted : Option (List Char) → JsonSource
  | some text => .string (String.ofList text)
  | none => .unusable

/-- A string, a number or a word. -/
def readScalar : List Char → Option (JsonSource × List Char)
  | '"' :: rest => (Quoted.read (some []) rest).map fun (text, rest) => (ofQuoted text, rest)
  | c :: rest =>
    if c.isDigit ∨ c = '-' then
      (Numeral.read (c :: rest)).map fun (numeral, rest) => (ofNumeral numeral, rest)
    else readWord (c :: rest)
  | [] => none

theorem length_readWord_lt {cs rest : List Char} {value : JsonSource}
    (h : readWord cs = some (value, rest)) : rest.length < cs.length := by
  unfold readWord at h
  split at h <;> try
    · simp only [Option.map_eq_some_iff, Prod.mk.injEq] at h
      obtain ⟨_, hword, _, rfl⟩ := h
      have := length_afterWord?_le hword
      simp
      omega
  simp at h

theorem length_readScalar_lt {cs rest : List Char} {value : JsonSource}
    (h : readScalar cs = some (value, rest)) : rest.length < cs.length := by
  unfold readScalar at h
  split at h
  · simp only [Option.map_eq_some_iff, Prod.mk.injEq, Prod.exists] at h
    obtain ⟨_, _, hquoted, _, rfl⟩ := h
    have := Quoted.length_read_lt hquoted
    simp
    omega
  · split at h
    · simp only [Option.map_eq_some_iff, Prod.mk.injEq, Prod.exists] at h
      obtain ⟨_, _, hnumber, _, rfl⟩ := h
      exact Numeral.length_read_lt hnumber
    · exact length_readWord_lt h
  · simp at h

/-! ### Lists and objects -/

/-- What was read at the head of a text of a given length: a complete value and fewer characters
after it, or as much of a value as there is before the text goes wrong. -/
inductive Reading (α : Type) (length : Nat) where
  | complete (value : α) (rest : List Char) (shorter : rest.length < length)
  | broken (value : α)

namespace Reading

variable {α : Type} {m n : Nat}

/-- The same reading as part of a longer text. -/
def widen (h : m ≤ n) : Reading α m → Reading α n
  | complete value rest shorter => complete value rest (Nat.lt_of_lt_of_le shorter h)
  | broken value => broken value

end Reading

/-- A list or object that may still hold `room` levels: without room for its own it has no
value. -/
def fitting (room : Nat) (value : JsonSource) : JsonSource :=
  if room = 0 then .unusable else value

/-- A list or object that is not closed. Without room for its own level it is lost as a whole. -/
def fittingBroken (room : Nat) (value : JsonSource) : JsonSource :=
  if room = 0 then .missing else value

/-- The members that are there before a key that cannot be read. -/
def endingUnread (members : List (Option String × JsonSource)) :
    List (Option String × JsonSource) :=
  ((none, .missing) :: members).reverse

mutual
/-- The value at the head of a text, after blanks. At most `room` levels of lists and objects may
stand one in the other. -/
def readValue (room : Nat) (cs : List Char) : Reading JsonSource cs.length :=
  match h : skipBlank cs with
  | '[' :: rest =>
    have hrest : rest.length < cs.length := by
      have := length_skipBlank_le cs
      simp [h] at this
      omega
    match hitems : skipBlank rest with
    | ']' :: after =>
      .complete (fitting room (.array [] true)) after (by
        have := length_skipBlank_le rest
        simp [hitems] at this
        omega)
    | _ =>
      match readItems (room - 1) [] rest with
      | .complete items after shorter =>
        .complete (fitting room (.array items true)) after (Nat.lt_trans shorter hrest)
      | .broken items => .broken (fittingBroken room (.array items false))
  | '{' :: rest =>
    have hrest : rest.length < cs.length := by
      have := length_skipBlank_le cs
      simp [h] at this
      omega
    match hmembers : skipBlank rest with
    | '}' :: after =>
      .complete (fitting room (.object [] true)) after (by
        have := length_skipBlank_le rest
        simp [hmembers] at this
        omega)
    | _ =>
      match readMembers (room - 1) [] rest with
      | .complete members after shorter =>
        .complete (fitting room (.object members true)) after (Nat.lt_trans shorter hrest)
      | .broken members => .broken (fittingBroken room (.object members false))
  | start =>
    match hscalar : readScalar start with
    | some (value, rest) =>
      .complete value rest (by
        have := length_readScalar_lt hscalar
        have := length_skipBlank_le cs
        rw [h] at this
        omega)
    | none => .broken .missing
termination_by (cs.length, 0)

/-- One or more items up to the bracket that ends them. Where the text ends before an item, or the
bracket follows a comma, there is no further item. -/
def readItems (room : Nat) (items : List JsonSource) (cs : List Char) :
    Reading (List JsonSource) cs.length :=
  match skipBlank cs with
  | [] | ']' :: _ => .broken items.reverse
  | _ =>
    match readValue room cs with
    | .broken value => .broken (value :: items).reverse
    | .complete value rest shorter =>
      match h : skipBlank rest with
      | ',' :: after =>
        have hafter : after.length < cs.length := by
          have := length_skipBlank_le rest
          simp [h] at this
          omega
        (readItems room (value :: items) after).widen (Nat.le_of_lt hafter)
      | ']' :: after =>
        .complete (value :: items).reverse after (by
          have := length_skipBlank_le rest
          simp [h] at this
          omega)
      | _ => .broken (value :: items).reverse
termination_by (cs.length, 1)

/-- One or more members up to the brace that ends them. Where no key can be read, or neither a comma
nor the brace follows a member, the members end with an unreadable key. A key without its colon is
no member. -/
def readMembers (room : Nat) (members : List (Option String × JsonSource)) (cs : List Char) :
    Reading (List (Option String × JsonSource)) cs.length :=
  match h : skipBlank cs with
  | '"' :: quoted =>
    match hkey : Quoted.read (some []) quoted with
    | some (key, rest) =>
      have hrest : rest.length < cs.length := by
        have := Quoted.length_read_lt hkey
        have := length_skipBlank_le cs
        simp [h] at this
        omega
      match hcolon : skipBlank rest with
      | ':' :: text =>
        have htext : text.length < cs.length := by
          have := length_skipBlank_le rest
          simp [hcolon] at this
          omega
        match readValue room text with
        | .broken value => .broken ((key.map String.ofList, value) :: members).reverse
        | .complete value rest shorter =>
          match hend : skipBlank rest with
          | ',' :: after =>
            have hafter : after.length < cs.length := by
              have := length_skipBlank_le rest
              simp [hend] at this
              omega
            (readMembers room ((key.map String.ofList, value) :: members) after).widen
              (Nat.le_of_lt hafter)
          | '}' :: after =>
            .complete ((key.map String.ofList, value) :: members).reverse after (by
              have := length_skipBlank_le rest
              simp [hend] at this
              omega)
          | _ => .broken (endingUnread ((key.map String.ofList, value) :: members))
      | _ => .broken (if key.isSome then members.reverse else endingUnread members)
    | none => .broken (endingUnread members)
  | _ => .broken (endingUnread members)
termination_by (cs.length, 1)
end

/-- How many lists and objects may stand one in the other. -/
def maxDepth : Nat := 127

/-- Does a value end only where something else sets it off? Lists, objects and strings end by
themselves. -/
def isOpenEnded : JsonSource → Bool
  | .null | .bool _ | .number _ => true
  | _ => false

/-- The characters that set off the value before them: blanks, and all that has a part in the form
of a text. -/
def isDelimiter (c : Char) : Bool :=
  isBlank c || ['"', '[', ']', '\x7b', '\x7d', ',', ':'].contains c

/-- What a text says, up to the end of its first value. A word or a number has to be set off from
what follows. -/
def ofText (text : String) : JsonSource :=
  match readValue maxDepth text.toList with
  | .complete value rest _ =>
    if value.isOpenEnded && !rest.head?.all isDelimiter then .missing else value
  | .broken value => value

end SchemaTyping.JsonSource
