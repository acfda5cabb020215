import SchemaTyping.Text.Leading

/-!
# Numerals

A numeral is a whole part, a fraction and an exponent, each as it is written. It stands for a
floating-point number of 64 bits, and one that is too large for that has no value.
-/

namespace SchemaTyping

/-- A numeral: its sign, its digits before the point, those after it, and its exponent with its
letter. -/
structure Numeral where
  negative : Bool
  whole : List Char
  fraction : List Char
  exponent : List Char
deriving DecidableEq, Inhabited, Repr

namespace Numeral

/-! ### Reading -/

/-- One or more digits at the head of a text, and what follows them. -/
def readDigits (cs : List Char) : Option (List Char × List Char) :=
  match cs.takeWhile Char.isDigit with
  | [] => none
  | digits => some (digits, cs.dropWhile Char.isDigit)

/-- The digits before a point: a lone zero, or digits that do not start with one. -/
def readWhole : List Char → Option (List Char × List Char)
  | '0' :: rest =>
    match rest with
    | c :: _ => if c.isDigit then none else some (['0'], rest)
    | [] => some (['0'], [])
  | cs => readDigits cs

/-- The digits after a point, if a point comes first. -/
def readFraction : List Char → Option (List Char × List Char)
  | '.' :: rest => readDigits rest
  | cs => some ([], cs)

/-- An exponent, if its letter comes first. -/
def readExponent : List Char → Option (List Char × List Char)
  | c :: rest =>
    if c = 'e' ∨ c = 'E' then
      match rest with
      | s :: digits =>
        if s = '+' ∨ s = '-' then
          (readDigits digits).map fun (digits, rest) => (c :: s :: digits, rest)
        else (readDigits rest).map fun (digits, rest) => (c :: digits, rest)
      | [] => none
    else some ([], c :: rest)
  | [] => some ([], [])

/-- A numeral without a sign of its own, at the head of a text. -/
def readUnsigned (negative : Bool) (cs : List Char) : Option (Numeral × List Char) := do
  let (whole, cs) ← readWhole cs
  let (fraction, cs) ← readFraction cs
  let (exponent, cs) ← readExponent cs
  return (⟨negative, whole, fraction, exponent⟩, cs)

/-- A numeral at the head of a text, and what follows it. -/
def read : List Char → Option (Numeral × List Char)
  | '-' :: rest => readUnsigned true rest
  | cs => readUnsigned false cs

theorem length_readDigits_lt {cs digits rest : List Char}
    (h : readDigits cs = some (digits, rest)) : rest.length < cs.length := by
  cases cs with
  | nil => simp [readDigits] at h
  | cons c cs =>
    have := length_dropWhile_le Char.isDigit cs
    by_cases hc : c.isDigit
    · simp [readDigits, hc] at h
      rw [← h.2, List.length_cons]
      omega
    · simp [readDigits, hc] at h

theorem length_readWhole_lt {cs digits rest : List Char}
    (h : readWhole cs = some (digits, rest)) : rest.length < cs.length := by
  unfold readWhole at h
  split at h
  · split at h
    · split at h
      · simp at h
      · simp at h
        simp [← h.2]
    · simp at h
      simp [← h.2]
  · exact length_readDigits_lt h

theorem length_readFraction_le {cs digits rest : List Char}
    (h : readFraction cs = some (digits, rest)) : rest.length ≤ cs.length := by
  unfold readFraction at h
  split at h
  · have := length_readDigits_lt h
    simp
    omega
  · simp at h
    simp [h.2]

theorem length_readExponent_le {cs digits rest : List Char}
    (h : readExponent cs = some (digits, rest)) : rest.length ≤ cs.length := by
  unfold readExponent at h
  split at h
  · split at h
    · split at h
      · split at h <;>
        · simp only [Option.map_eq_some_iff, Prod.mk.injEq, Prod.exists] at h
          obtain ⟨_, _, hread, _, rfl⟩ := h
          have := length_readDigits_lt hread
          simp at this ⊢
          omega
      · simp at h
    · simp at h
      simp [← h.2]
  · simp at h
    simp [h.2]

theorem length_readUnsigned_lt {negative : Bool} {cs rest : List Char} {numeral : Numeral}
    (h : readUnsigned negative cs = some (numeral, rest)) : rest.length < cs.length := by
  simp only [readUnsigned, Option.bind_eq_bind, Option.bind_eq_some_iff, Prod.exists,
    Option.pure_def, Option.some.injEq, Prod.mk.injEq] at h
  obtain ⟨_, _, hwhole, _, _, hfraction, _, _, hexponent, _, rfl⟩ := h
  have := length_readWhole_lt hwhole
  have := length_readFraction_le hfraction
  have := length_readExponent_le hexponent
  omega

theorem length_read_lt {cs rest : List Char} {numeral : Numeral}
    (h : read cs = some (numeral, rest)) : rest.length < cs.length := by
  unfold read at h
  split at h
  · have := length_readUnsigned_lt h
    simp
    omega
  · exact length_readUnsigned_lt h

/-! ### Text and range -/

/-- The text of a numeral. -/
def text (numeral : Numeral) : String :=
  String.ofList ((if numeral.negative then ['-'] else []) ++ numeral.whole ++
    (if numeral.fraction.isEmpty then [] else '.' :: numeral.fraction) ++ numeral.exponent)

/-- The value of a decimal digit. -/
def digitValue (c : Char) : Nat :=
  c.toNat - '0'.toNat

/-- Put digits behind a number as long as it stays below a limit: the number that is reached, and
the digits that are left. -/
def gather (limit : Nat) : Nat → List Char → Nat × List Char
  | n, [] => (n, [])
  | n, digit :: digits =>
    let next := 10 * n + digitValue digit
    if next < limit then gather limit next digits else (n, digit :: digits)

/-- The natural number that digits stand for. -/
def ofDigits (digits : List Char) : Nat :=
  digits.foldl (fun n digit => 10 * n + digitValue digit) 0

/-- By how many places an exponent moves the point to the right. -/
def shiftOf : List Char → Int
  | _ :: '-' :: digits => -(ofDigits digits : Int)
  | _ :: '+' :: digits => ofDigits digits
  | _ :: digits => ofDigits digits
  | [] => 0

/-- The end of the numbers that fit in 64 bits. -/
def wordEnd : Nat := Nat.pow 2 64

/-- The first digits of a numeral as a number that fits in 64 bits, and the power of ten that it is
to be multiplied with. The digits that do not fit count only by their places. -/
def scaled (numeral : Numeral) : Nat × Int :=
  let (whole, wholeLeft) := gather wordEnd 0 numeral.whole
  let (significand, fractionLeft) := gather wordEnd whole numeral.fraction
  (significand,
    wholeLeft.length - (numeral.fraction.length - fractionLeft.length) +
      shiftOf numeral.exponent)

/-- The nearest number with at most 53 binary places; of two equally near ones, the one whose last
place is even. -/
def roundToDouble (n : Nat) : Nat :=
  let unit := Nat.pow 2 (Nat.log2 n - 52)
  let below := n / unit
  let rest := n % unit
  if 2 * rest < unit ∨ 2 * rest = unit ∧ below % 2 = 0 then below * unit else (below + 1) * unit

/-- The end of the range of finite numbers of 64 bits. -/
def rangeEnd : Nat := Nat.pow 2 1024

/-- The largest power of ten in the range. -/
def maxShift : Int := 308

/-- Is a numeral too large? Its first digits and the power of ten are rounded, and so is their
product. -/
def isOutOfRange (numeral : Numeral) : Bool :=
  let (significand, shift) := numeral.scaled
  significand ≠ 0 && 0 ≤ shift && (maxShift < shift ||
    rangeEnd ≤ roundToDouble (roundToDouble significand * roundToDouble (Nat.pow 10 shift.toNat)))

end Numeral

end SchemaTyping
