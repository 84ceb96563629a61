import ScimDirectory.Filter.Operator

/-!
# Matching inside serialized fragments

A carrier attribute stores each value of a complex attribute as a JSON text such as
`{"value":"inum=123","display":"Jane"}`. A comparison on one part of it becomes a substring match on
the key of that part, in quotes, and the value behind it.
-/

namespace ScimDirectory.Fragment

/-- The operators that a substring match can express. -/
def supports : Operator → Bool
  | .equal | .contains | .startsWith | .endsWith => true
  | _ => false

/-- What the carrier is compared with for `subKey op value`. The stars that the operator itself
places around a value are left to it. Equality asks for the value right behind the key, in quotes;
the other operators let any text stand between the key and the value. -/
def assertion? (subKey : String) (op : Operator) (value : String) : Option String :=
  if supports op then
    some <|
      (if op.opensBefore then "" else "*") ++ "\"" ++ subKey ++
        (if op = .equal then "\":\"" else "\":*") ++ value ++
        (if op.opensAfter then "" else "\"*")
  else none

/-- The carrier is present, and one of its values holds some text under the key. -/
def present (carrier subKey : String) : DirectoryFilter :=
  .and (.present carrier) (.item carrier .equal ("*\"" ++ subKey ++ "\":\"*"))

end ScimDirectory.Fragment
