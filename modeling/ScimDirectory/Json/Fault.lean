import ScimDirectory.Json.Draft
import ScimDirectory.Text.Quoted

/-!
# What is wrong with a text

A text is either no JSON, or the JSON in it is not of the kind that is asked for. In the second case
the first mismatch from the left is told.
-/

namespace ScimDirectory

/-- What stands where a value of another kind is asked for. -/
inductive Found where
  | null
  | boolean (value : Bool)
  | integer (value : Int)
  | float (text : String)
  | string (value : String)
  | sequence
  | map
deriving DecidableEq, Repr

/-- The words for what was found. -/
def Found.text : Found → String
  | null => "null"
  | boolean value => s!"boolean `{value}`"
  | integer value => s!"integer `{value}`"
  | float text => s!"floating point `{text}`"
  | string value => s!"string {quoted value}"
  | sequence => "sequence"
  | map => "map"

/-- How a value differs from the kind that is asked for. -/
inductive Mismatch where
  | wrongType (found : Found) (wanted : String)
  | missingField (name : String)
  | duplicateField (name : String)
  | unknownVariant (name : String) (known : List String)
  /-- A record that is written as an array lacks a field it cannot do without. -/
  | wrongLength (length : Nat) (record : String) (fields : Nat)
deriving DecidableEq, Repr

namespace Mismatch

/-- A name between back quotes. -/
def ticked (name : String) : String :=
  "`" ++ name ++ "`"

/-- The words for a choice between names. -/
def choice : List String → String
  | [first, second] => ticked first ++ " or " ++ ticked second
  | names => "one of " ++ ", ".intercalate (names.map ticked)

/-- The text shown for a mismatch. -/
def message : Mismatch → String
  | wrongType found wanted => s!"invalid type: {found.text}, expected {wanted}"
  | missingField name => s!"missing field {ticked name}"
  | duplicateField name => s!"duplicate field {ticked name}"
  | unknownVariant name known => s!"unknown variant {ticked name}, expected {choice known}"
  | wrongLength length record fields =>
      s!"invalid length {length}, expected struct {record} with {fields} elements"

end Mismatch

/-- Why a text does not decode. -/
inductive Fault where
  /-- The text is no JSON. -/
  | malformed
  | mismatch (mismatch : Mismatch)
deriving DecidableEq, Repr

namespace Draft

/-- What a draft shows where a value of another kind is asked for, unless its text is no JSON as far
as it has to be read to tell. -/
def found? : Draft → Option Found
  | null => some .null
  | bool value => some (.boolean value)
  | number value =>
      value.value?.map fun
        | .integer value => .integer value
        | .float value => .float (shortestText value)
  | string value => value.map .string
  | array _ _ => some .sequence
  | object _ _ => some .map
  | broken => none

/-- The fault of a draft where `wanted` is asked for. -/
def mismatch (draft : Draft) (wanted : String) : Fault :=
  match draft.found? with
  | some found => .mismatch (.wrongType found wanted)
  | none => .malformed

end Draft

end ScimDirectory
