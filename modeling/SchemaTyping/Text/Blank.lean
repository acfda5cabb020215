/-!
# Blank characters

The characters with the property White_Space of the character database, and texts without such
characters at their end.
-/

namespace SchemaTyping

/-- The code points of blank characters, as ranges with both ends. -/
def blankRanges : List (Nat × Nat) :=
  [(0x09, 0x0D), (0x20, 0x20), (0x85, 0x85), (0xA0, 0xA0), (0x1680, 0x1680), (0x2000, 0x200A),
    (0x2028, 0x2029), (0x202F, 0x202F), (0x205F, 0x205F), (0x3000, 0x3000)]

/-- Is a character blank? -/
def isBlankChar (c : Char) : Bool :=
  blankRanges.any fun (first, last) => first ≤ c.toNat && c.toNat ≤ last

/-- A text without blank characters at its end. -/
def trimBlankEnd (text : String) : String :=
  String.ofList (text.toList.reverse.dropWhile isBlankChar).reverse

example : isBlankChar ' ' ∧ isBlankChar '\t' ∧ isBlankChar '\n' ∧ isBlankChar '\r' := by decide

end SchemaTyping
