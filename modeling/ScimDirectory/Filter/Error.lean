import ScimDirectory.Filter.Operator

/-!
# Why a filter does not compile
-/

namespace ScimDirectory

/-- Why a filter does not compile, or a path does not resolve. -/
inductive FilterError where
  /-- The registry has no such resource type. -/
  | unknownResourceType (name : String)
  /-- The path names nothing in the schema it belongs to. -/
  | unknownAttribute (path resource : String)
  /-- The path has more than two segments. -/
  | pathTooDeep (path : String)
  /-- The filter language has no such operator. -/
  | unknownOperator (token : String)
  /-- A serialized fragment cannot be matched by this operator. -/
  | unsupportedOnFragment (op : Operator) (path : String)
deriving DecidableEq, Repr

namespace FilterError

/-- The text shown for an error. -/
def message : FilterError → String
  | unknownResourceType name => s!"Unknown resource type: {name}"
  | unknownAttribute path resource =>
      s!"Unknown attribute '{path}' for resource type '{resource}'"
  | pathTooDeep path =>
      s!"Attribute path '{path}' exceeds the supported depth of two segments"
  | unknownOperator token => s!"Unknown filter operator: {token}"
  | unsupportedOnFragment op path =>
      s!"Operator '{op.token}' is not supported on complex attribute path '{path}'"

end FilterError

end ScimDirectory
