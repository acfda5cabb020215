/-!
# Quoted text

How a text stands between quotes, and how it is read from there.
-/

namespace SchemaTyping.Quoted

/-! ### Writing -/

/-- The hexadecimal digit of a number below 16, in lower case. -/
def hexDigit (n : Nat) : Char :=
  if n < 10 then Char.ofNat ('0'.toNat + n) else Char.ofNat ('a'.toNat + (n - 10))

/-- How a character stands in a string: the two delimiters and the control characters are
escaped, with a letter where there is one. -/
def escape (c : Char) : List Char :=
  match c with
  | '"' => ['\\', '"']
  | '\\' => ['\\', '\\']
  | '\x08' => ['\\', 'b']
  | '\x0c' => ['\\', 'f']
  | '\n' => ['\\', 'n']
  | '\r' => ['\\', 'r']
  | '\t' => ['\\', 't']
  | c =>
    if c.toNat < 0x20 then ['\\', 'u', '0', '0', hexDigit (c.toNat / 16), hexDigit (c.toNat % 16)]
    else [c]

/-- A text between its quotes. -/
def encode (text : String) : String :=
  String.ofList ('"' :: text.toList.flatMap escape ++ ['"'])

/-! ### Reading -/

/-- The value of a hexadecimal digit. -/
def hexDigit? (c : Char) : Option Nat :=
  if c.isDigit then some (c.toNat - '0'.toNat)
  else if 'a' ≤ c ∧ c ≤ 'f' then some (c.toNat - 'a'.toNat + 10)
  else if 'A' ≤ c ∧ c ≤ 'F' then some (c.toNat - 'A'.toNat + 10)
  else none

/-- The value of four hexadecimal digits. -/
def hexUnit? (a b c d : Char) : Option Nat := do
  let a ← hexDigit? a
  let b ← hexDigit? b
  let c ← hexDigit? c
  let d ← hexDigit? d
  return ((a * 16 + b) * 16 + c) * 16 + d

/-- The character that a one-letter escape stands for. -/
def escaped? : Char → Option Char
  | '"' => some '"'
  | '\\' => some '\\'
  | '/' => some '/'
  | 'b' => some '\x08'
  | 'f' => some '\x0c'
  | 'n' => some '\n'
  | 'r' => some '\r'
  | 't' => some '\t'
  | _ => none

/-- Four hexadecimal digits at the head of a text, and what follows. -/
def readUnit : List Char → Option (Nat × List Char)
  | a :: b :: c :: d :: rest => (hexUnit? a b c d).map fun unit => (unit, rest)
  | _ => none

/-- The character of a surrogate pair. -/
def ofSurrogates (high low : Nat) : Char :=
  Char.ofNat (0x10000 + (high - 0xD800) * 0x400 + (low - 0xDC00))

/-- The second half of a surrogate pair at the head of a text: `some none` when the text goes on
without one, and `none` when it is no JSON. -/
def readLowSurrogate : List Char → Option (Option Nat × List Char)
  | '\\' :: 'u' :: rest =>
    match readUnit rest with
    | none => none
    | some (low, after) =>
      if 0xDC00 ≤ low ∧ low < 0xE000 then some (some low, after)
      else some (none, '\\' :: 'u' :: rest)
  | cs => some (none, cs)

/-- What stands after a backslash, and what follows. Half of a surrogate pair that stands alone
is of JSON form but gives no character. -/
def readEscape : List Char → Option (Option Char × List Char)
  | 'u' :: rest =>
    match readUnit rest with
    | none => none
    | some (unit, after) =>
      if 0xD800 ≤ unit ∧ unit < 0xDC00 then
        (readLowSurrogate after).map fun (low, after) => (low.map (ofSurrogates unit), after)
      else if 0xDC00 ≤ unit ∧ unit < 0xE000 then some (none, after)
      else some (some (Char.ofNat unit), after)
  | c :: rest => (escaped? c).map fun c => (some c, rest)
  | [] => none

theorem length_readUnit_lt {cs rest : List Char} {unit : Nat}
    (h : readUnit cs = some (unit, rest)) : rest.length < cs.length := by
  unfold readUnit at h
  split at h
  · simp only [Option.map_eq_some_iff, Prod.mk.injEq] at h
    obtain ⟨_, _, _, rfl⟩ := h
    simp
    omega
  · simp at h

theorem length_readLowSurrogate_le {cs rest : List Char} {low : Option Nat}
    (h : readLowSurrogate cs = some (low, rest)) : rest.length ≤ cs.length := by
  unfold readLowSurrogate at h
  split at h
  · split at h
    · simp at h
    · next hunit =>
      have := length_readUnit_lt hunit
      split at h
      · simp at h
        simp [← h.2]
        omega
      · simp at h
        simp [← h.2]
  · simp at h
    simp [h.2]

theorem length_readEscape_lt {cs rest : List Char} {c : Option Char}
    (h : readEscape cs = some (c, rest)) : rest.length < cs.length := by
  unfold readEscape at h
  split at h
  · split at h
    · simp at h
    · next hunit =>
      have := length_readUnit_lt hunit
      split at h
      · simp only [Option.map_eq_some_iff, Prod.mk.injEq, Prod.exists] at h
        obtain ⟨_, _, hlow, _, rfl⟩ := h
        have := length_readLowSurrogate_le hlow
        simp
        omega
      · split at h <;>
        · simp at h
          simp [← h.2]
          omega
  · simp only [Option.map_eq_some_iff, Prod.mk.injEq] at h
    obtain ⟨_, _, _, rfl⟩ := h
    simp
  · simp at h

/-- The text up to the quote that ends it, and what follows. The text is `none` when one of its
escapes gives no character. -/
def read (text : Option (List Char)) : List Char → Option (Option (List Char) × List Char)
  | [] => none
  | c :: rest =>
    if c = '"' then some (text.map List.reverse, rest)
    else if c = '\\' then
      match _h : readEscape rest with
      | none => none
      | some (escaped, after) =>
        read (text.bind fun text => escaped.map (· :: text)) after
    else if c.toNat < 0x20 then none
    else read (text.map (c :: ·)) rest
termination_by cs => cs.length
decreasing_by
  · have := length_readEscape_lt _h
    simp
    omega
  · simp

theorem length_read_lt {text content : Option (List Char)} {cs rest : List Char}
    (h : read text cs = some (content, rest)) : rest.length < cs.length := by
  fun_induction read text cs with
  | case1 => simp at h
  | case2 => simp_all
  | case3 => simp at h
  | case4 text rest' escaped after hescape _ ih =>
    have := ih h
    have := length_readEscape_lt hescape
    simp
    omega
  | case5 => simp at h
  | case6 text c rest' _ _ _ ih =>
    have := ih h
    simp
    omega

end SchemaTyping.Quoted
