import SchemaTyping.Text.Leading
import SchemaTyping.TypeUse.Basic

/-!
# The stack of open uses

While a declared use is being classified its text stands on a stack. A use whose text is there
already, or whose name has too many uses there, is cut short.
-/

namespace SchemaTyping

/-- How many uses of one name may stand on the stack. -/
def maxNestedUses : Nat := 16

/-- Is a text the name itself, or the name followed by arguments? -/
def isUseOf (name text : String) : Bool :=
  match afterWord? name.toList text.toList with
  | some [] | some ('<' :: _) => true
  | _ => false

/-- The texts of the uses that are being classified, innermost first. -/
structure UseStack where
  entries : List String
deriving DecidableEq, Inhabited

namespace UseStack

/-- The stack without entries. -/
def empty : UseStack := ⟨[]⟩

instance : EmptyCollection UseStack := ⟨empty⟩

instance : Membership String UseStack := ⟨fun stack text => text ∈ stack.entries⟩

instance (text : String) (stack : UseStack) : Decidable (text ∈ stack) :=
  inferInstanceAs (Decidable (text ∈ stack.entries))

/-- Put a text on the stack. -/
def enter (stack : UseStack) (text : String) : UseStack :=
  ⟨text :: stack.entries⟩

/-- Put a text on the stack unless it is there. -/
def enterNew (stack : UseStack) (text : String) : UseStack :=
  if text ∈ stack then stack else stack.enter text

/-- Take the innermost text off the stack. -/
def release (stack : UseStack) : UseStack :=
  ⟨stack.entries.tail⟩

/-- The number of texts on the stack. -/
def length (stack : UseStack) : Nat :=
  stack.entries.length

/-- How many texts on the stack are uses of a name. -/
def usesOf (stack : UseStack) (name : String) : Nat :=
  stack.entries.countP (isUseOf name)

/-- Is a use cut short: is its text on the stack, or has its name too many uses there? -/
def blocks (stack : UseStack) (name : String) (use : TypeUse) : Bool :=
  use.text ∈ stack || maxNestedUses ≤ stack.usesOf name

theorem mem_iff {text : String} {stack : UseStack} : text ∈ stack ↔ text ∈ stack.entries := Iff.rfl

@[simp] theorem entries_empty : (∅ : UseStack).entries = [] := rfl

@[simp] theorem usesOf_empty (name : String) : (∅ : UseStack).usesOf name = 0 := rfl

@[simp] theorem entries_enter (stack : UseStack) (text : String) :
    (stack.enter text).entries = text :: stack.entries := rfl

@[simp] theorem release_enter (stack : UseStack) (text : String) :
    (stack.enter text).release = stack := rfl

theorem usesOf_enter (stack : UseStack) (name text : String) :
    (stack.enter text).usesOf name =
      stack.usesOf name + if isUseOf name text then 1 else 0 := by
  rw [usesOf, entries_enter, List.countP_cons, usesOf]

end UseStack

/-- The text of a declared use is the text of a use of its name. -/
theorem isUseOf_text (name : String) (args : List TypeUse) :
    isUseOf name (TypeUse.declared name args).text = true := by
  cases args with
  | nil =>
    have := afterWord?_append name.toList []
    rw [List.append_nil] at this
    simp only [isUseOf, TypeUse.text, this]
  | cons arg rest =>
    simp only [isUseOf, TypeUse.text, String.toList_append, List.append_assoc,
      afterWord?_append]
    rfl

/-- Every use whose text is on a stack counts as a use of its name. -/
theorem UseStack.countP_le_usesOf {stack : UseStack} {uses : List TypeUse} {base : List String}
    (h : stack.entries = uses.map TypeUse.text ++ base) (name : String) :
    uses.countP (·.declaredName? = some name) ≤ stack.usesOf name := by
  rw [usesOf, h, List.countP_append, List.countP_map]
  refine Nat.le_add_right_of_le (List.countP_mono_left fun use _ huse => ?_)
  obtain ⟨args, rfl⟩ := TypeUse.eq_declared_of_declaredName? (of_decide_eq_true huse)
  exact isUseOf_text name args

end SchemaTyping
