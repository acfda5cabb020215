import SchemaTyping.Json.Source
import SchemaTyping.Text.Message

/-!
# Decoding JSON

A decoder turns what a text says into a value or into a `Fault`: the path to the place where the
text does not have the expected form, and what is wrong there. Everything is decoded in text order,
so the first fault of a text is the one that is reported.

A record is read from an object, whose members may stand in any order, or from an array that
lists the values of its fields.
-/

namespace SchemaTyping

/-! ### Faults -/

/-- One step from a tree to a part of it. -/
inductive PathStep where
  | key (name : String)
  | unreadableKey
  | index (position : Nat)
deriving DecidableEq

/-- What is wrong with a tree. -/
inductive FaultCause where
  | missingField (name : String)
  | duplicateField (name : String)
  | unknownVariant (given : String) (choices : List String)
  /-- A value of another form than the expected one. -/
  | invalid
  /-- Text that is not JSON, or that has no value. -/
  | unreadable
deriving DecidableEq

/-- Where a tree is wrong, and what is wrong there. -/
structure Fault where
  path : List PathStep
  cause : FaultCause
deriving DecidableEq

namespace Fault

/-- The text of a step: a question mark stands for a key that cannot be read. -/
def stepText : PathStep → String
  | .key name => name
  | .unreadableKey => "?"
  | .index position => "[" ++ Nat.repr position ++ "]"

/-- Further steps of a path: a point stands before a key and none before a position. -/
def pathTail : List PathStep → String
  | [] => ""
  | .index position :: rest => stepText (.index position) ++ pathTail rest
  | step :: rest => "." ++ stepText step ++ pathTail rest

/-- The text of a path; the whole tree is a point. -/
def pathText : List PathStep → String
  | [] => "."
  | step :: rest => stepText step ++ pathTail rest

end Fault

/-- The wording of a list of choices. -/
def choicesText : List String → String
  | [] => "there are no variants"
  | [choice] => "expected " ++ ticked choice
  | [first, second] => "expected " ++ ticked first ++ " or " ++ ticked second
  | choices => "expected one of " ++ ", ".intercalate (choices.map ticked)

/-- The wording of a cause. -/
def FaultCause.message : FaultCause → String
  | missingField name => "missing field " ++ ticked name
  | duplicateField name => "duplicate field " ++ ticked name
  | unknownVariant given choices =>
    "unknown variant " ++ ticked given ++ ", " ++ choicesText choices
  | invalid => "invalid"
  | unreadable => "syntax"

namespace Fault

/-- The place of a fault in a report, in which an arrow stands between the place and the cause. -/
def place (fault : Fault) : String :=
  firstPart (pathText fault.path)

/-- What a report on a fault says of the cause. That is told only by the text right after the place,
so nothing more is known where an arrow stands in the path. -/
def detail (fault : Fault) : String :=
  if fault.place = pathText fault.path then fault.cause.message else FaultCause.invalid.message

end Fault

/-- The result of decoding a tree. -/
abbrev Decoded (α : Type) := Except Fault α

namespace Decoded

variable {α : Type}

/-- A fault at the tree that is being decoded. -/
def fail (cause : FaultCause) : Decoded α :=
  .error ⟨[], cause⟩

/-- The result of decoding a part of a tree, as a result on the whole. -/
def within (step : PathStep) (result : Decoded α) : Decoded α :=
  result.mapError fun fault => ⟨step :: fault.path, fault.cause⟩

/-- The same result with every fault at the whole tree. -/
def withoutPath (result : Decoded α) : Decoded α :=
  result.mapError fun fault => ⟨[], fault.cause⟩

@[simp] theorem within_ok (step : PathStep) (value : α) :
    within step (.ok value) = .ok value := rfl

@[simp] theorem withoutPath_ok (value : α) :
    withoutPath (.ok value) = .ok value := rfl

end Decoded

namespace JsonSource

open Decoded

variable {α ρ : Type}

/-- Refuse a tree that has another form than the expected one. -/
def refuse : JsonSource → Decoded α
  | .unusable | .missing => fail .unreadable
  | _ => fail .invalid

/-- Where a list or an object ends: it has to be closed. -/
def requireClosed (closed : Bool) : Decoded Unit :=
  if closed then .ok () else fail .unreadable

mutual
/-- The path to the first part of a tree that cannot be read. A list or an object that is not
closed is wrong at its end, after all its parts. -/
def unreadableAt? : JsonSource → Option (List PathStep)
  | .unusable | .missing => some []
  | .array items closed => unreadableItem? closed 0 items
  | .object members closed => unreadableMember? closed members
  | _ => none

/-- The same for the items of an array, counted from a position. -/
def unreadableItem? (closed : Bool) (position : Nat) : List JsonSource → Option (List PathStep)
  | [] => if closed then none else some []
  | item :: rest =>
    match item.unreadableAt? with
    | some path => some (.index position :: path)
    | none => unreadableItem? closed (position + 1) rest

/-- The same for the members of an object. -/
def unreadableMember? (closed : Bool) : List (Option String × JsonSource) → Option (List PathStep)
  | [] => if closed then none else some []
  | (none, _) :: _ => some [.unreadableKey]
  | (some key, value) :: rest =>
    match value.unreadableAt? with
    | some path => some (.key key :: path)
    | none => unreadableMember? closed rest
end

/-! ### Scalars and lists -/

/-- A string. -/
def asString : JsonSource → Decoded String
  | .string text => .ok text
  | tree => tree.refuse

/-- A truth value. -/
def asBool : JsonSource → Decoded Bool
  | .bool value => .ok value
  | tree => tree.refuse

/-- A value, or `null` for none. -/
def asOptional (read : JsonSource → Decoded α) : JsonSource → Decoded (Option α)
  | .null => .ok none
  | tree => some <$> read tree

/-- Items that are smaller than a bound, counted from a position. -/
def readItemsBelow (bound : Nat) (read : (item : JsonSource) → sizeOf item < bound → Decoded α) :
    Nat → (items : List JsonSource) → (∀ item ∈ items, sizeOf item < bound) → Decoded (List α)
  | _, [], _ => .ok []
  | position, item :: rest, h => do
    let value ← within (.index position) (read item (h item List.mem_cons_self))
    let values ← readItemsBelow bound read (position + 1) rest
      fun item hitem => h item (List.mem_cons_of_mem _ hitem)
    return value :: values

/-- An array whose items are read knowing that they are smaller than a bound on the whole. -/
def asListBelow (bound : Nat) (read : (item : JsonSource) → sizeOf item < bound → Decoded α) :
    (tree : JsonSource) → sizeOf tree ≤ bound → Decoded (List α)
  | .array items closed, h => do
    let values ← readItemsBelow bound read 0 items
      fun _ hitem => Nat.lt_of_lt_of_le (sizeOf_lt_of_mem_items hitem) h
    requireClosed closed
    return values
  | tree, _ => tree.refuse

/-- An array. -/
def asList (read : JsonSource → Decoded α) (tree : JsonSource) : Decoded (List α) :=
  asListBelow (sizeOf tree) (fun item _ => read item) tree (Nat.le_refl _)

/-- An object with one member, whose key is one of several words that tell how its content is to be
read. What is wrong with the key, or after the member, is wrong with the object. -/
def asTagged {σ : Type} (choices : List (String × σ)) (key : Option String) (closed : Bool)
    (more : List (Option String × JsonSource)) (read : σ → Decoded α) : Decoded α :=
  match key with
  | none => fail .unreadable
  | some key =>
    match choices.lookup key with
    | none => fail (.unknownVariant key (choices.map Prod.fst))
    | some choice => do
      let value ← within (.key key) (read choice)
      if more.isEmpty then
        requireClosed closed
        return value
      else fail .invalid

/-- One of several words, as a string or as the only key of an object with the value `null`. -/
def asChoice (choices : List (String × α)) : JsonSource → Decoded α
  | .string word =>
    match choices.lookup word with
    | some value => .ok value
    | none => fail (.unknownVariant word (choices.map Prod.fst))
  | .object ((key, content) :: more) closed =>
    asTagged choices key closed more fun value =>
      match content with
      | .null => .ok value
      | content => content.refuse
  | tree => tree.refuse

/-! ### Records -/

/-- A field of a record: its name, whether it has to be there, and how its value is entered in
the record. The value may be taken to be smaller than a bound. -/
structure Field (ρ : Type) (bound : Nat) where
  name : String
  required : Bool
  enter : (value : JsonSource) → sizeOf value < bound → ρ → Decoded ρ

/-- A field that is read by a decoder and entered by a setter. -/
def field (bound : Nat) (name : String) (required : Bool) (read : JsonSource → Decoded α)
    (set : α → ρ → ρ) : Field ρ bound :=
  ⟨name, required, fun value _ record => (set · record) <$> read value⟩

/-- Enter members in a record, one after the other, and list the fields that were there. The value
of an unknown key is passed over. -/
def enterMembers {bound : Nat} (fields : List (Field ρ bound)) :
    (members : List (Option String × JsonSource)) → (∀ m ∈ members, sizeOf m.2 < bound) →
      List String → ρ → Decoded (ρ × List String)
  | [], _, seen, record => .ok (record, seen)
  | (none, _) :: _, _, _, _ => within .unreadableKey (fail .unreadable)
  | (some key, value) :: rest, h, seen, record =>
    have hrest : ∀ m ∈ rest, sizeOf m.2 < bound := fun m hm => h m (List.mem_cons_of_mem _ hm)
    match fields.find? (·.name = key) with
    | some field =>
      if key ∈ seen then fail (.duplicateField key)
      else do
        let record ← within (.key key) (field.enter value (h _ List.mem_cons_self) record)
        enterMembers fields rest hrest (key :: seen) record
    | none =>
      if value.isMalformed then within (.key key) (fail .unreadable)
      else enterMembers fields rest hrest seen record

/-- Enter the items of an array in the fields of a record, in their order. -/
def enterItems {bound : Nat} (closed : Bool) :
    (fields : List (Field ρ bound)) → (items : List JsonSource) →
      (∀ item ∈ items, sizeOf item < bound) → Nat → ρ → Decoded ρ
  | fields, [], _, _, record => do
    requireClosed closed
    if fields.any Field.required then fail .invalid else return record
  | [], _ :: _, _, _, _ => fail .invalid
  | field :: fields, item :: items, h, position, record => do
    let record ←
      within (.index position) (field.enter item (h item List.mem_cons_self) record)
    enterItems closed fields items (fun item hitem => h item (List.mem_cons_of_mem _ hitem))
      (position + 1) record

/-- A record that is smaller than a bound: an object, or an array of the fields' values. A field
that is not there keeps the value that it has in `start`. -/
def asRecordBelow (bound : Nat) (fields : List (Field ρ bound)) (start : ρ) :
    (tree : JsonSource) → sizeOf tree ≤ bound → Decoded ρ
  | .object members closed, h => do
    let (record, seen) ← enterMembers fields members
      (fun _ hm => Nat.lt_of_lt_of_le (sizeOf_lt_of_mem_members hm) h) [] start
    requireClosed closed
    match fields.find? fun field => field.required && field.name ∉ seen with
    | some field => fail (.missingField field.name)
    | none => return record
  | .array items closed, h =>
    enterItems closed fields items
      (fun _ hitem => Nat.lt_of_lt_of_le (sizeOf_lt_of_mem_items hitem) h) 0 start
  | tree, _ => tree.refuse

/-- A record. -/
def asRecord (tree : JsonSource) (fields : List (Field ρ (sizeOf tree))) (start : ρ) : Decoded ρ :=
  asRecordBelow (sizeOf tree) fields start tree (Nat.le_refl _)

end JsonSource

end SchemaTyping
