import ScimDirectory.Proofs.Filter.Compilation
import ScimDirectory.Proofs.Path

/-!
# Filters without groupings

A grouping is a way of writing: each simple path inside it could be written out with the carrier and
a dot in front. `Filter.flatten` does that for a whole filter, and writes a comparison under the
token `pr` as the presence that it is. Of nested groupings the innermost alone counts, also where
its carrier is dotted, empty or qualified by a URN, and a grouping does not reach beyond its operand.

Nothing is lost or gained that way, errors included: the compiler tells a filter from its flattened
form neither by the text nor by the error that it gives.

## Main results

* `Filter.isFlat_flatten`: a flattened filter has no groupings left.
* `Filter.compile_flattenIn`: under the scope that was written out, the compiled tree is the same.
* `Registry.compile_flatten`: **flattening preserves compilation**, of every filter.
-/

namespace ScimDirectory

namespace Filter

/-- A path as it reads outside the innermost grouping: a name behind the carrier and a dot. A dotted
path, and one that begins with `urn:` in any letter case, stays as it is. -/
def pathOutside : Option String → String → String
  | none, path => path
  | some carrier, path =>
      if '.' ∈ path.toList ∨ Alike (String.ofList (path.toList.take 4)) "urn:" then path
      else dotted carrier path

/-- The filter without its groupings, of which `scope` is the innermost around it. -/
def flattenIn (scope : Option String) : Filter → Filter
  | present path => present (pathOutside scope path)
  | compare path token value =>
      if Alike token "pr" then present (pathOutside scope path)
      else compare (pathOutside scope path) token value
  | grouping carrier operand => operand.flattenIn (some carrier)
  | and left right => and (left.flattenIn scope) (right.flattenIn scope)
  | or left right => or (left.flattenIn scope) (right.flattenIn scope)
  | not operand => not (operand.flattenIn scope)

/-- **The filter without its groupings.** -/
def flatten (filter : Filter) : Filter :=
  filter.flattenIn none

/-- The filter has no groupings, and no presence is written as a comparison in it. -/
def IsFlat : Filter → Prop
  | present _ => True
  | compare _ token _ => ¬ Alike token "pr"
  | grouping _ _ => False
  | and left right => left.IsFlat ∧ right.IsFlat
  | or left right => left.IsFlat ∧ right.IsFlat
  | not operand => operand.IsFlat

theorem isFlat_flattenIn (filter : Filter) (scope : Option String) :
    (filter.flattenIn scope).IsFlat := by
  induction filter generalizing scope with
  | present path => trivial
  | compare path token value =>
      rw [flattenIn]
      split
      · trivial
      · next htoken => exact htoken
  | grouping carrier operand ih => exact ih (some carrier)
  | and left right ihl ihr => exact ⟨ihl scope, ihr scope⟩
  | or left right ihl ihr => exact ⟨ihl scope, ihr scope⟩
  | not operand ih => exact ih scope

/-- A flattened filter has no groupings left. -/
theorem isFlat_flatten (filter : Filter) : filter.flatten.IsFlat :=
  isFlat_flattenIn filter none

/-- What is written out is what the compiler reads inside the grouping. -/
theorem pathOutside_eq_scopedPath (scope : Option String) (path : String) :
    pathOutside scope path = scopedPath scope path := by
  cases scope with
  | none => rfl
  | some carrier =>
      simp only [pathOutside, scopedPath, dotted, Bool.or_eq_true, decide_eq_true_eq,
        isUrnQualified_iff]

/-- A token names the presence operator when it is `pr` in any letter case. -/
theorem ofToken?_eq_present {token : String} (h : Alike token "pr") :
    Operator.ofToken? token = some .present :=
  Operator.ofToken?_eq_some_iff.mpr h.symm

/-- **Writing a scope out** compiles to the same tree, or fails with the same error. Induction on
the filter; a grouping replaces the scope, so that is generalised. -/
theorem compile_flattenIn {resource : Resource} {escaping : Escaping} (filter : Filter)
    (scope : Option String) :
    (filter.flattenIn scope).compile resource escaping none =
      filter.compile resource escaping scope := by
  induction filter generalizing scope with
  | present path =>
      rw [flattenIn, compile_present _ "", compile_present _ "", pathOutside_eq_scopedPath]
      rfl
  | compare path token value =>
      rw [flattenIn, pathOutside_eq_scopedPath, compile_compare]
      split
      · next htoken =>
          rw [compile_present _ (escaping.apply value), ofToken?_eq_present htoken]
          rfl
      · rw [compile_compare]
        rfl
  | grouping carrier operand ih =>
      rw [flattenIn, compile_grouping]
      exact ih (some carrier)
  | and left right ihl ihr => rw [flattenIn, compile_and, compile_and, ihl, ihr]
  | or left right ihl ihr => rw [flattenIn, compile_or, compile_or, ihl, ihr]
  | not operand ih => rw [flattenIn, compile_not, compile_not, ih]

end Filter

namespace Registry

/-- **Flattening preserves compilation**: for every registry, resource type and way of escaping, a
filter with any groupings in it compiles to the same text as its flattened form, which has none, or
is refused with the same error. -/
theorem compile_flatten (registry : Registry) (config : CompilerConfig) (filter : Filter)
    (name : String) :
    filter.flatten.IsFlat ∧
      registry.compile config filter.flatten name = registry.compile config filter name := by
  refine ⟨filter.isFlat_flatten, ?_⟩
  refine bind_congr fun resource => ?_
  rw [Filter.flatten, Filter.compile_flattenIn]

end Registry

end ScimDirectory
