/-!
# Directory filters

The filters that the backend understands: items that compare one attribute with an assertion, and
their conjunctions, disjunctions and negations. An assertion is kept as the text that is sent: a
star in it stands for any text, and a star alone asks for presence.
-/

namespace ScimDirectory

/-- How an item compares the values of its attribute with its assertion. -/
inductive Relation where
  | equal
  | atLeast
  | atMost
deriving DecidableEq, Repr

/-- The sign of a relation. -/
def Relation.sign : Relation → String
  | equal => "="
  | atLeast => ">="
  | atMost => "<="

/-- A filter in the syntax of the directory. -/
inductive DirectoryFilter where
  | item (name : String) (relation : Relation) (assertion : String)
  | and (left right : DirectoryFilter)
  | or (left right : DirectoryFilter)
  | not (operand : DirectoryFilter)
deriving DecidableEq, Repr

namespace DirectoryFilter

/-- The attribute is present: it has a value of any text. -/
def present (name : String) : DirectoryFilter :=
  item name .equal "*"

/-- The text of a filter. Operands stand in parentheses; the filter as a whole does not. -/
def text : DirectoryFilter → String
  | item name relation assertion => name ++ relation.sign ++ assertion
  | and left right => "&(" ++ left.text ++ ")(" ++ right.text ++ ")"
  | or left right => "|(" ++ left.text ++ ")(" ++ right.text ++ ")"
  | not operand => "!(" ++ operand.text ++ ")"

end DirectoryFilter

end ScimDirectory
