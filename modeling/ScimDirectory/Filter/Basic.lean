/-!
# Filters

The tree of a parsed SCIM filter. The operator of a comparison is the token that was read; it is
checked only when the filter is compiled. A grouping `emails[...]` makes the simple paths inside it
relative to its carrier.
-/

namespace ScimDirectory

/-- A parsed SCIM filter. -/
inductive Filter where
  /-- The attribute is present. -/
  | present (path : String)
  /-- A comparison of an attribute with a literal. -/
  | compare (path token value : String)
  /-- A filter on the parts of the attribute `carrier`. -/
  | grouping (carrier : String) (operand : Filter)
  | and (left right : Filter)
  | or (left right : Filter)
  | not (operand : Filter)
deriving DecidableEq, Repr

namespace Filter

/-- The text of a filter in the filter language. Literals stand in it as they are. -/
def text : Filter → String
  | present path => path ++ " pr"
  | compare path token value => path ++ " " ++ token ++ " \"" ++ value ++ "\""
  | grouping carrier operand => carrier ++ "[" ++ operand.text ++ "]"
  | and left right => "(" ++ left.text ++ " and " ++ right.text ++ ")"
  | or left right => "(" ++ left.text ++ " or " ++ right.text ++ ")"
  | not operand => "not (" ++ operand.text ++ ")"

end Filter

end ScimDirectory
