import SchemaTyping.Json.Decoding
import SchemaTyping.Json.Reader

/-!
# Values from JSON text

A value is decoded from the head of a text. If that fails, and the text is faulty as JSON anywhere
in its first value, then that is the cause, wherever the fault was met.
-/

namespace SchemaTyping.JsonSource

variable {α : Type}

/-- Decode what the head of a text says. -/
def decodeText (decode : JsonSource → Decoded α) (text : String) : Decoded α :=
  let tree := ofText text
  match decode tree with
  | .ok value => .ok value
  | .error fault =>
    if tree.unreadableAt?.isSome then .error { fault with cause := .unreadable }
    else .error fault

end SchemaTyping.JsonSource
