import ScimDirectory.Filter.Compile
import ScimDirectory.Proofs.Schema.Targets

/-!
# What compiles, and to what

One lemma for each node of a filter says when it compiles and what it compiles to, so that no later
proof opens the compiler. A leaf, be it a presence or a comparison, compiles when its token names
an operator, its path as it reads inside the grouping resolves, and the target found there has a
filter for that operator (`Target.leaf?`). Where the error counts as well, both kinds of leaves are
one function of the operator, the path and the value (`Resource.leafFilter`).

## Main results

* `Filter.compile_compare`, `Filter.compile_present`: the leaves, errors included.
* `Filter.compile_compare_eq_ok_iff`, `Filter.compile_present_eq_ok_iff`: when a leaf compiles.
* `Filter.compile_and`, `Filter.compile_and_eq_ok_iff` and their companions: the inner nodes.
* `Registry.compile_eq_ok_iff`: the text of a compiled filter.
* `Registry.compile_compare_fragment`, `Registry.compile_present_fragment`: that of a comparison and
  of a presence of a key inside the text of a carrier.
-/

namespace ScimDirectory

/-- The filter of a leaf on a target, where there is one. The value stands in it as it is given. -/
def Target.leaf? (op : Operator) (value : String) : Target → Option DirectoryFilter
  | plain name _ _ => some (op.toFilter name value)
  | fragment carrier key =>
      if op = .present then some (Fragment.present carrier key)
      else (Fragment.assertion? key op value).map (op.toFilter carrier)

/-- What a carrier is compared with for a key, an operator and a value, the stars of the operator
included. -/
def Fragment.wholeAssertion? (key : String) (op : Operator) (value : String) : Option String :=
  match op with
  | .equal => some ("*\"" ++ key ++ "\":\"" ++ value ++ "\"*")
  | .contains | .startsWith => some ("*\"" ++ key ++ "\":*" ++ value ++ "*")
  | .endsWith => some ("*\"" ++ key ++ "\":*" ++ value ++ "\"*")
  | _ => none

/-- The stars of the operator and those of the pattern make one assertion. -/
theorem Target.leaf?_fragment {op : Operator} (hop : op ≠ .present) (value carrier key : String) :
    (fragment carrier key).leaf? op value =
      (Fragment.wholeAssertion? key op value).map (.item carrier .equal) := by
  rw [leaf?, if_neg hop]
  cases op <;>
    simp [Fragment.assertion?, Fragment.supports, Operator.toFilter, Fragment.wholeAssertion?,
      Operator.opensBefore, Operator.opensAfter, ← String.toList_inj]

namespace Resource

/-- The filter of a leaf, or why there is none: the path may not resolve, and the text of a carrier
cannot be matched by every operator. The value stands in the filter as it is given. -/
def leafFilter (resource : Resource) (op : Operator) (path value : String) :
    Except FilterError DirectoryFilter := do
  let target ← resource.resolve path
  match target.leaf? op value with
  | some d => return d
  | none => throw (.unsupportedOnFragment op path)

/-- The presence filter is the leaf of the presence operator, whatever the value. -/
theorem presenceFilter_eq_leafFilter (resource : Resource) (path value : String) :
    resource.presenceFilter path = resource.leafFilter .present path value := by
  refine bind_congr fun target => ?_
  cases target with
  | plain name complex space => rfl
  | fragment carrier key => rfl

/-- The comparison filter is the leaf of its operator, with the literal escaped. -/
theorem comparisonFilter_eq_leafFilter (resource : Resource) {op : Operator}
    (hop : op ≠ .present) {escaping : Escaping} (path literal : String) :
    resource.comparisonFilter escaping path op literal =
      resource.leafFilter op path (escaping.apply literal) := by
  refine bind_congr fun target => ?_
  cases target with
  | plain name complex space => rfl
  | fragment carrier key =>
      simp only [Target.leaf?, if_neg hop]
      cases Fragment.assertion? key op (escaping.apply literal) <;> rfl

/-- A leaf compiles when its path resolves and the target has a filter for the operator. -/
theorem leafFilter_eq_ok_iff {resource : Resource} {op : Operator} {path value : String}
    {d : DirectoryFilter} :
    resource.leafFilter op path value = .ok d ↔
      ∃ target, resource.resolve path = .ok target ∧ target.leaf? op value = some d := by
  rw [leafFilter, bind_eq_ok_iff]
  refine exists_congr fun target => and_congr_right fun _ => ?_
  cases target.leaf? op value <;> simp [pure, Except.pure, throw, throwThe, MonadExceptOf.throw]

end Resource

namespace Filter

variable {resource : Resource} {escaping : Escaping} {scope : Option String}

/-- **A presence compiles to the leaf** of the presence operator, whatever the value. -/
theorem compile_present (path value : String) :
    (present path).compile resource escaping scope =
      resource.leafFilter .present (scopedPath scope path) value :=
  Resource.presenceFilter_eq_leafFilter resource (scopedPath scope path) value

/-- **A comparison compiles to the leaf** of the operator that its token names, with the literal
escaped; the token is looked up before the path. -/
theorem compile_compare (path token value : String) :
    (compare path token value).compile resource escaping scope =
      match Operator.ofToken? token with
      | none => .error (.unknownOperator token)
      | some op => resource.leafFilter op (scopedPath scope path) (escaping.apply value) := by
  rw [compile]
  split
  · next hop => rw [hop]; rfl
  · next hop => rw [hop]; exact Resource.presenceFilter_eq_leafFilter resource _ _
  · next op hne hop => rw [hop]; exact Resource.comparisonFilter_eq_leafFilter resource hne _ _

/-- A presence compiles when its path resolves. -/
theorem compile_present_eq_ok_iff {path : String} {d : DirectoryFilter} (value : String) :
    (present path).compile resource escaping scope = .ok d ↔
      ∃ target, resource.resolve (scopedPath scope path) = .ok target ∧
        target.leaf? .present value = some d := by
  rw [compile_present path value, Resource.leafFilter_eq_ok_iff]

/-- **A comparison compiles** when its token names an operator, its path resolves, and the target
has a filter for that operator. -/
theorem compile_compare_eq_ok_iff {path token value : String} {d : DirectoryFilter} :
    (compare path token value).compile resource escaping scope = .ok d ↔
      ∃ op target, Operator.ofToken? token = some op ∧
        resource.resolve (scopedPath scope path) = .ok target ∧
        target.leaf? op (escaping.apply value) = some d := by
  rw [compile_compare]
  cases Operator.ofToken? token with
  | none => simp
  | some op => simp [Resource.leafFilter_eq_ok_iff]

/-- A grouping compiles as its operand does under the carrier of the grouping. -/
theorem compile_grouping (carrier : String) (operand : Filter) :
    (grouping carrier operand).compile resource escaping scope =
      operand.compile resource escaping (some carrier) :=
  rfl

/-- The operands of a conjunction are compiled from the left. -/
theorem compile_and (left right : Filter) :
    (and left right).compile resource escaping scope = do
      let a ← left.compile resource escaping scope
      let b ← right.compile resource escaping scope
      return .and a b :=
  rfl

/-- The operands of a disjunction are compiled from the left. -/
theorem compile_or (left right : Filter) :
    (or left right).compile resource escaping scope = do
      let a ← left.compile resource escaping scope
      let b ← right.compile resource escaping scope
      return .or a b :=
  rfl

/-- The operand of a negation is compiled as it stands. -/
theorem compile_not (operand : Filter) :
    (not operand).compile resource escaping scope = do
      let a ← operand.compile resource escaping scope
      return .not a :=
  rfl

/-- A conjunction compiles when both of its operands do. -/
theorem compile_and_eq_ok_iff {left right : Filter} {d : DirectoryFilter} :
    (and left right).compile resource escaping scope = .ok d ↔
      ∃ a b, left.compile resource escaping scope = .ok a ∧
        right.compile resource escaping scope = .ok b ∧ .and a b = d := by
  simp [compile_and, bind_eq_ok_iff, pure, Except.pure]

/-- A disjunction compiles when both of its operands do. -/
theorem compile_or_eq_ok_iff {left right : Filter} {d : DirectoryFilter} :
    (or left right).compile resource escaping scope = .ok d ↔
      ∃ a b, left.compile resource escaping scope = .ok a ∧
        right.compile resource escaping scope = .ok b ∧ .or a b = d := by
  simp [compile_or, bind_eq_ok_iff, pure, Except.pure]

/-- A negation compiles when its operand does. -/
theorem compile_not_eq_ok_iff {operand : Filter} {d : DirectoryFilter} :
    (not operand).compile resource escaping scope = .ok d ↔
      ∃ a, operand.compile resource escaping scope = .ok a ∧ .not a = d := by
  simp [compile_not, bind_eq_ok_iff, pure, Except.pure]

end Filter

namespace Registry

/-- **The text of a compiled filter** is that of the tree it compiles to for the resource type. -/
theorem compile_eq_ok_iff {registry : Registry} {config : CompilerConfig} {filter : Filter}
    {name text : String} :
    registry.compile config filter name = .ok text ↔
      ∃ resource d, registry.resource? name = some resource ∧
        filter.compile resource config.escaping none = .ok d ∧ d.text = text := by
  simp [compile, bind_eq_ok_iff, require_eq_ok_iff, pure, Except.pure]

section Fragment

variable {registry : Registry} {name path carrier key : String}

/-- A comparison of a key compiles to one item on the carrier, if its operator has an assertion. -/
theorem compile_compare_fragment (h : registry.resolve path name = .ok (.fragment carrier key))
    {token : String} {op : Operator} (htoken : Operator.ofToken? token = some op)
    {config : CompilerConfig} {literal assertion : String}
    (hassertion : Fragment.wholeAssertion? key op (config.escaping.apply literal) =
      some assertion) :
    registry.compile config (.compare path token literal) name =
      .ok (carrier ++ "=" ++ assertion) := by
  obtain ⟨resource, hresource, hresolve⟩ := resolve_eq_ok_iff.mp h
  have hop : op ≠ .present := by
    rintro rfl
    cases hassertion
  have hleaf : (Target.fragment carrier key).leaf? op (config.escaping.apply literal) =
      some (.item carrier .equal assertion) := by
    rw [Target.leaf?_fragment hop, hassertion, Option.map_some]
  exact compile_eq_ok_iff.mpr ⟨resource, _, hresource,
    Filter.compile_compare_eq_ok_iff.mpr ⟨op, _, htoken, hresolve, hleaf⟩, rfl⟩

/-- Equality on a key compiles to one item on the carrier. -/
theorem compile_equal_fragment (h : registry.resolve path name = .ok (.fragment carrier key))
    {token : String} (htoken : Operator.ofToken? token = some .equal) (config : CompilerConfig)
    (literal : String) :
    registry.compile config (.compare path token literal) name = .ok (carrier ++ "=" ++
      ("*\"" ++ key ++ "\":\"" ++ config.escaping.apply literal ++ "\"*")) :=
  compile_compare_fragment h htoken rfl

/-- Presence of a key compiles to the presence of the carrier and an item on it. -/
theorem compile_present_fragment (h : registry.resolve path name = .ok (.fragment carrier key))
    (config : CompilerConfig) :
    registry.compile config (.present path) name =
      .ok ("&(" ++ carrier ++ "=*)(" ++ carrier ++ "=" ++ ("*\"" ++ key ++ "\":\"*") ++ ")") := by
  obtain ⟨resource, hresource, hresolve⟩ := resolve_eq_ok_iff.mp h
  refine compile_eq_ok_iff.mpr ⟨resource, _, hresource,
    (Filter.compile_present_eq_ok_iff "").mpr ⟨_, hresolve, rfl⟩, ?_⟩
  simp [Fragment.present, DirectoryFilter.present, DirectoryFilter.text, Relation.sign,
    ← String.toList_inj]

end Fragment

end Registry

end ScimDirectory
