import ScimDirectory.Json.Fault

/-!
# Decoding drafts

Decoders turn a draft into a value of the domain and stop at the first problem from the left.
Arrays and objects may be nested to a fixed depth only; a decoder that enters one is given the room
that is left.

A record is written as an object, in any order of its fields, or as an array of them in the order of
their declaration. The two readings of a record are put together field by field.

## Main definitions

* `Decoder.text`, `Decoder.flag`, `Decoder.optional`, `Decoder.list`, `Decoder.named`: the decoders
  of single values.
* `Record`: how the fields of a record are read, with `required` and `defaulted` for one field.
* `Record.decoder`: the decoder of a record.
-/

namespace ScimDirectory

/-- Decoders of values of type `α`. -/
abbrev Decoder (α : Type) :=
  Draft → Except Fault α

/-- The depth to which arrays and objects may be nested. -/
def maxDepth : Nat :=
  127

namespace Decoder

variable {α : Type}

/-- Decode a string. -/
def text : Decoder String
  | .string (some value) => return value
  | draft => throw (draft.mismatch "a string")

/-- Decode a truth value. -/
def flag : Decoder Bool
  | .bool value => return value
  | draft => throw (draft.mismatch "a boolean")

/-- Decode nothing but `null`. -/
def unit : Decoder Unit
  | .null => return
  | draft => throw (draft.mismatch "unit")

/-- Decode a value or `null`. -/
def optional (value : Decoder α) : Decoder (Option α)
  | .null => return none
  | draft => some <$> value draft

/-- Decode an array, its items with one level less. -/
def list (room : Nat) (item : Decoder α) : Decoder (List α)
  | .array items closed => do
      if room = 0 then throw .malformed
      let values ← items.mapM item
      if !closed then throw .malformed
      return values
  | draft => throw (draft.mismatch "a sequence")

/-- Decode one of a number of names, given as a string or as the only key of an object, with the
value `null`. -/
def named (room : Nat) (known : List String) (ofName? : String → Option α) : Decoder α :=
  let ofName (name : String) : Except Fault α :=
    match ofName? name with
    | some value => return value
    | none => throw (.mismatch (.unknownVariant name known))
  fun
    | .string (some name) => ofName name
    | .object ((some key, value) :: more) closed => do
        if room = 0 then throw .malformed
        let chosen ← ofName key
        unit value
        if !more.isEmpty || !closed then throw .malformed
        return chosen
    | _ => throw .malformed

end Decoder

/-! ### Records -/

/-- What the members of an object give for some fields of a record. -/
structure Reading (α : Type) where
  /-- The value, if every field has one. -/
  value : Option α
  /-- The fields without a member that cannot do without, in the order of their declaration. -/
  missing : List String := []
  /-- The faults of the members of those fields, by name. -/
  faults : List (String × Fault) := []

/-- The items of an array that are still to be read as fields of a record. -/
structure Remaining where
  items : List Draft
  closed : Bool
  /-- The number of fields that were read or left to their default. -/
  position : Nat := 0

/-- How some fields of a record are read. -/
structure Record (α : Type) where
  /-- The names of the fields in the order of their declaration. -/
  names : List String
  /-- Read the fields from the members of an object, given the first member of each name. -/
  ofMembers : (String → Option Draft) → Reading α
  /-- Read the fields from the items of an array. A missing item gives the fault of its position. -/
  ofItems : (Nat → Fault) → Remaining → Except Fault (α × Remaining)

namespace Record

variable {α β : Type}

/-- A field that has the value `absent` where it is left out, if any. -/
def field (name : String) (absent : Option α) (decode : Decoder α) : Record α where
  names := [name]
  ofMembers member? :=
    match member? name with
    | some draft =>
        match decode draft with
        | .ok value => { value := some value }
        | .error fault => { value := none, faults := [(name, fault)] }
    | none => { value := absent, missing := if absent.isSome then [] else [name] }
  ofItems missing remaining :=
    match remaining.items with
    | draft :: items => do
        return (← decode draft, { remaining with items, position := remaining.position + 1 })
    | [] =>
        if !remaining.closed then throw .malformed
        else
          match absent with
          | some value => return (value, { remaining with position := remaining.position + 1 })
          | none => throw (missing remaining.position)

/-- A field that cannot be left out. -/
def required (name : String) (decode : Decoder α) : Record α :=
  field name none decode

/-- A field that may be left out. -/
def defaulted (name : String) (absent : α) (decode : Decoder α) : Record α :=
  field name (some absent) decode

/-- The fields of two records, one after the other. -/
def ap (f : Record (α → β)) (x : Record α) : Record β where
  names := f.names ++ x.names
  ofMembers member? :=
    let first := f.ofMembers member?
    let second := x.ofMembers member?
    { value := first.value <*> second.value
      missing := first.missing ++ second.missing
      faults := first.faults ++ second.faults }
  ofItems missing remaining := do
    let (make, remaining) ← f.ofItems missing remaining
    let (value, remaining) ← x.ofItems missing remaining
    return (make value, remaining)

instance : Applicative Record where
  pure value :=
    { names := [], ofMembers := fun _ => { value := some value },
      ofItems := fun _ remaining => return (value, remaining) }
  seq f x := f.ap (x ())

/-- The first member of an object with that key. -/
def member? (members : List (Option String × Draft)) (name : String) : Option Draft :=
  members.lookup (some name)

/-- **The first problem of an object**, walking its members from the left: a key with half of a pair,
the second member of a field, the fault of a member, a text that stops being JSON. `seen` are the
fields whose member was passed. -/
def checkMembers (names : List String) (faults : List (String × Fault)) (closed : Bool) :
    List String → List (Option String × Draft) → Except Fault Unit
  | _, [] => if closed then return else throw .malformed
  | seen, (some key, value) :: more => do
      if key ∈ names then
        if key ∈ seen then throw (.mismatch (.duplicateField key))
        if let some fault := faults.lookup key then throw fault
        checkMembers names faults closed (key :: seen) more
      else
        if !value.isComplete then throw .malformed
        checkMembers names faults closed seen more
  | _, (none, _) :: _ => throw .malformed

/-- **The decoder of a record** called `type` in messages. Of the fields left out of an object, the
first in the order of declaration is told, after all members were read. -/
def decoder (type : String) (record : Record α) (room : Nat) : Decoder α
  | .object members closed => do
      if room = 0 then throw .malformed
      let reading := record.ofMembers (member? members)
      checkMembers record.names reading.faults closed [] members
      match reading.missing, reading.value with
      | name :: _, _ => throw (.mismatch (.missingField name))
      | [], some value => return value
      | [], none => throw .malformed
  | .array items closed => do
      if room = 0 then throw .malformed
      let missing (length : Nat) : Fault :=
        .mismatch (.wrongLength length type record.names.length)
      let (value, remaining) ← record.ofItems missing { items, closed }
      if !remaining.items.isEmpty || !closed then throw .malformed
      return value
  | draft => throw (draft.mismatch s!"struct {type}")

end Record

end ScimDirectory
