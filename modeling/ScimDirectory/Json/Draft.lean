import ScimDirectory.Json.Number

/-!
# Texts as far as they are JSON

A reader that stops at the first problem of a text, be it a fault of the text or a value of the
wrong kind, must know what stands before the fault. A draft is a JSON value with the place marked
at which its text stops being JSON. Everything before that place is there, in its order.
-/

namespace ScimDirectory

/-- A JSON value as far as its text follows the grammar. -/
inductive Draft where
  | null
  | bool (value : Bool)
  | number (value : Numeral)
  /-- A string; `none` when its escapes name half of a surrogate pair. -/
  | string (value : Option String)
  /-- The items that were begun; the last may be broken. -/
  | array (items : List Draft) (closed : Bool)
  /-- The members whose key was read, as strings are; the last may be broken. -/
  | object (members : List (Option String × Draft)) (closed : Bool)
  /-- The text stops being JSON before this value ends. -/
  | broken
deriving Repr, Inhabited

namespace Draft

mutual

/-- The text of the value was JSON to its end. -/
def isComplete : Draft → Bool
  | null | bool _ | number _ | string _ => true
  | array items closed => itemsComplete items && closed
  | object members closed => membersComplete members && closed
  | broken => false

/-- The items are complete. -/
def itemsComplete : List Draft → Bool
  | [] => true
  | item :: more => item.isComplete && itemsComplete more

/-- The members are complete. -/
def membersComplete : List (Option String × Draft) → Bool
  | [] => true
  | (_, value) :: more => value.isComplete && membersComplete more

end

mutual

/-- The draft is a **sound** value: complete, with strings and numbers that have a value, and
nested no deeper than `room` allows. -/
def isSound (room : Nat) : Draft → Bool
  | null | bool _ => true
  | number value => value.value?.isSome
  | string value => value.isSome
  | array items closed => room ≠ 0 && itemsSound (room - 1) items && closed
  | object members closed => room ≠ 0 && membersSound (room - 1) members && closed
  | broken => false

/-- The items are sound. -/
def itemsSound (room : Nat) : List Draft → Bool
  | [] => true
  | item :: more => item.isSound room && itemsSound room more

/-- The members are sound. -/
def membersSound (room : Nat) : List (Option String × Draft) → Bool
  | [] => true
  | (key, value) :: more => key.isSome && value.isSound room && membersSound room more

end

mutual

/-- A JSON value as a draft. -/
def ofJson : Json → Draft
  | .null => null
  | .bool value => bool value
  | .number value => number value
  | .string value => string (some value)
  | .array items => array (ofItems items) true
  | .object members => object (ofMembers members) true

/-- The items of an array as drafts. -/
def ofItems : List Json → List Draft
  | [] => []
  | item :: more => ofJson item :: ofItems more

/-- The members of an object as drafts. -/
def ofMembers : List (String × Json) → List (Option String × Draft)
  | [] => []
  | (key, value) :: more => (some key, ofJson value) :: ofMembers more

end

end Draft

end ScimDirectory
