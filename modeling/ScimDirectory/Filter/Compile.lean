import ScimDirectory.Filter.Basic
import ScimDirectory.Filter.Escaping
import ScimDirectory.Filter.Fragment
import ScimDirectory.Schema.Resolve

/-!
# Compiling filters

A filter compiles to a directory filter of the same shape, groupings apart: they leave only the
paths that they make relative to their carrier. Either the whole filter compiles or the first error
from the left is reported.
-/

namespace ScimDirectory

/-- How a compiler works. -/
structure CompilerConfig where
  /-- How literals are embedded. -/
  escaping : Escaping := .preserve
deriving DecidableEq, Repr, Inhabited

/-- A path as it reads inside the innermost grouping: a single name is a part of the carrier,
unless it is qualified by a URN. -/
def scopedPath (scope : Option String) (path : String) : String :=
  match scope with
  | none => path
  | some carrier =>
      if '.' ∈ path.toList || isUrnQualified path.toList then path else carrier ++ "." ++ path

namespace Resource

/-- The filter for the presence of what a path names. -/
def presenceFilter (resource : Resource) (path : String) : Except FilterError DirectoryFilter := do
  match ← resource.resolve path with
  | .plain name _ _ => return .present name
  | .fragment carrier key => return Fragment.present carrier key

/-- The filter for a comparison of what a path names with a literal. -/
def comparisonFilter (resource : Resource) (escaping : Escaping) (path : String) (op : Operator)
    (literal : String) : Except FilterError DirectoryFilter := do
  match ← resource.resolve path with
  | .plain name _ _ => return op.toFilter name (escaping.apply literal)
  | .fragment carrier key =>
      match Fragment.assertion? key op (escaping.apply literal) with
      | none => throw (.unsupportedOnFragment op path)
      | some assertion => return op.toFilter carrier assertion

end Resource

namespace Filter

/-- **Compile a filter** for a resource type. `scope` is the carrier of the innermost grouping. -/
def compile (resource : Resource) (escaping : Escaping) (scope : Option String) :
    Filter → Except FilterError DirectoryFilter
  | present path => resource.presenceFilter (scopedPath scope path)
  | compare path token value =>
      match Operator.ofToken? token with
      | none => throw (.unknownOperator token)
      | some .present => resource.presenceFilter (scopedPath scope path)
      | some op => resource.comparisonFilter escaping (scopedPath scope path) op value
  | grouping carrier operand => operand.compile resource escaping (some carrier)
  | and left right => do
      let left ← left.compile resource escaping scope
      let right ← right.compile resource escaping scope
      return .and left right
  | or left right => do
      let left ← left.compile resource escaping scope
      let right ← right.compile resource escaping scope
      return .or left right
  | not operand => do
      let operand ← operand.compile resource escaping scope
      return .not operand

end Filter

namespace Registry

/-- **Compile a filter** for the resource type of that name to the text of a directory filter. -/
def compile (registry : Registry) (config : CompilerConfig) (filter : Filter) (name : String) :
    Except FilterError String := do
  let resource ← registry.require name
  let compiled ← filter.compile resource config.escaping none
  return compiled.text

end Registry

end ScimDirectory
