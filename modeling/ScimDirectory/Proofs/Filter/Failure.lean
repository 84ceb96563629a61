import ScimDirectory.Proofs.Filter.Compilation

/-!
# All or nothing

A filter that has several faults is refused for one of them, and callers report that one. Which one
it is follows from the order of the leaves: a compiler goes through them from the left, whatever
conjunctions, disjunctions, negations and groupings stand around them, and stops at the first leaf
that does not compile. A leaf takes nothing from its surroundings but the carrier of its innermost
grouping. So a filter compiles when each of its leaves does, and fails as the first one that does
not (`FailsFirst`).

A single leaf is refused for its token, for its path, or because the text of a carrier cannot be
matched by its operator, in this order of precedence (`Filter.LeafError`).

## Main results

* `Filter.exists_compile_iff`, `Filter.compile_eq_error_iff`: filters and their leaves.
* `Filter.compile_leaf_eq_error_iff`: why a leaf fails.
* `Registry.compile_all_or_nothing`: **the answer to any filter, by its leaves**.
-/

namespace ScimDirectory

/-! ### Leaves -/

/-- The tokens of the filter language, in small letters. -/
def operatorTokens : List String :=
  ["eq", "ne", "co", "sw", "ew", "pr", "gt", "ge", "lt", "le"]

/-- The tokens of the operators that the text of a carrier can be matched by. -/
def fragmentTokens : List String :=
  ["eq", "co", "sw", "ew", "pr"]

theorem Operator.fold_token (op : Operator) : fold op.token = op.token := by
  cases op <;> decide +kernel

/-- A token names the operator that has it for its own token once its letters are small. -/
theorem Operator.ofToken?_eq_some_iff_token {token : String} {op : Operator} :
    ofToken? token = some op ↔ op.token = fold token := by
  rw [ofToken?_eq_some_iff, Alike, fold_token]

/-- The listed tokens are those of the operators. -/
theorem mem_operatorTokens_iff {token : String} :
    token ∈ operatorTokens ↔ ∃ op : Operator, op.token = token := by
  constructor
  · intro h
    have hall : ∀ known ∈ operatorTokens, ∃ op ∈ Operator.all, op.token = known := by
      decide +kernel
    obtain ⟨op, -, htoken⟩ := hall token h
    exact ⟨op, htoken⟩
  · rintro ⟨op, rfl⟩
    cases op <;> decide +kernel

namespace Filter

/-- **The leaves of a filter** from the left, each with its path as it reads inside the innermost
grouping, of which `scope` is the one around the filter. -/
def leaves (scope : Option String) : Filter → List Filter
  | present path => [present (scopedPath scope path)]
  | compare path token value => [compare (scopedPath scope path) token value]
  | grouping carrier operand => operand.leaves (some carrier)
  | and left right | or left right => left.leaves scope ++ right.leaves scope
  | not operand => operand.leaves scope

/-- **Why a leaf is refused**: its token is none of the filter language; or else its path does not
resolve; or else that leads into the text of a carrier, which this operator cannot match. The last
error shows the token of the operator in small letters. -/
inductive LeafError (resource : Resource) : Filter → FilterError → Prop
  | token {path token value : String} (hunknown : fold token ∉ operatorTokens) :
      LeafError resource (compare path token value) (.unknownOperator token)
  | path {path token value : String} {e : FilterError} (hknown : fold token ∈ operatorTokens)
      (hresolve : resource.resolve path = .error e) :
      LeafError resource (compare path token value) e
  | presence {path : String} {e : FilterError} (hresolve : resource.resolve path = .error e) :
      LeafError resource (present path) e
  | fragment {path token value carrier key : String} {op : Operator}
      (htoken : op.token = fold token) (hop : op.token ∉ fragmentTokens)
      (hresolve : resource.resolve path = .ok (.fragment carrier key)) :
      LeafError resource (compare path token value) (.unsupportedOnFragment op path)

end Filter

/-- A target has no filter for an operator exactly when it lies in the text of a carrier and the
operator is none of those that can match there. -/
theorem Target.leaf?_eq_none_iff {op : Operator} {value : String} {target : Target} :
    target.leaf? op value = none ↔
      op.token ∉ fragmentTokens ∧ ∃ carrier key, target = .fragment carrier key := by
  cases target with
  | plain name complex space => simp [leaf?]
  | fragment carrier key =>
      by_cases hop : op = .present
      · subst hop
        simp [leaf?, fragmentTokens, Operator.token]
      · rw [leaf?_fragment hop]
        cases op <;> simp_all [Fragment.wholeAssertion?, fragmentTokens, Operator.token]

/-- A leaf fails where its path does not resolve, or where the target has no filter for it. -/
theorem Resource.leafFilter_eq_error_iff {resource : Resource} {op : Operator}
    {path value : String} {e : FilterError} :
    resource.leafFilter op path value = .error e ↔
      resource.resolve path = .error e ∨
        op.token ∉ fragmentTokens ∧ e = .unsupportedOnFragment op path ∧
          ∃ carrier key, resource.resolve path = .ok (.fragment carrier key) := by
  rw [leafFilter, bind_eq_error_iff]
  refine or_congr_right ?_
  constructor
  · rintro ⟨target, hresolve, hfails⟩
    cases hleaf : target.leaf? op value with
    | none =>
        rw [hleaf] at hfails
        obtain ⟨hop, carrier, key, rfl⟩ := Target.leaf?_eq_none_iff.mp hleaf
        exact ⟨hop, (Except.error.inj hfails).symm, carrier, key, hresolve⟩
    | some d =>
        rw [hleaf] at hfails
        cases hfails
  · rintro ⟨hop, rfl, carrier, key, hresolve⟩
    refine ⟨_, hresolve, ?_⟩
    rw [Target.leaf?_eq_none_iff.mpr ⟨hop, carrier, key, rfl⟩]
    rfl

namespace Filter

variable {resource : Resource} {escaping : Escaping} {scope : Option String} {e : FilterError}

/-- **A presence fails** as the resolution of its path does. -/
theorem compile_present_eq_error_iff {path : String} :
    (present path).compile resource escaping none = .error e ↔
      LeafError resource (present path) e := by
  rw [compile_present path "", Resource.leafFilter_eq_error_iff]
  constructor
  · rintro (hresolve | ⟨hop, -⟩)
    · exact .presence hresolve
    · exact absurd (by decide) hop
  · rintro ⟨⟩
    next hresolve => exact .inl hresolve

/-- **A comparison fails** for its token, its path or its operator, in that order. -/
theorem compile_compare_eq_error_iff {path token value : String} :
    (compare path token value).compile resource escaping none = .error e ↔
      LeafError resource (compare path token value) e := by
  rw [compile_compare]
  constructor
  · intro h
    cases hop : Operator.ofToken? token with
    | none =>
        rw [hop] at h
        obtain rfl := Except.error.inj h
        refine .token fun hmem => ?_
        obtain ⟨op, htoken⟩ := mem_operatorTokens_iff.mp hmem
        rw [Operator.ofToken?_eq_some_iff_token.mpr htoken] at hop
        cases hop
    | some op =>
        rw [hop] at h
        have htoken := Operator.ofToken?_eq_some_iff_token.mp hop
        rcases Resource.leafFilter_eq_error_iff.mp h with hresolve | ⟨hfragment, rfl, carrier, key,
          hresolve⟩
        · exact .path (mem_operatorTokens_iff.mpr ⟨op, htoken⟩) hresolve
        · exact .fragment htoken hfragment hresolve
  · intro h
    cases h with
    | token hunknown =>
        cases hop : Operator.ofToken? token with
        | none => rfl
        | some op =>
            have htoken := Operator.ofToken?_eq_some_iff_token.mp hop
            exact absurd (mem_operatorTokens_iff.mpr ⟨op, htoken⟩) hunknown
    | path hknown hresolve =>
        obtain ⟨op, htoken⟩ := mem_operatorTokens_iff.mp hknown
        rw [Operator.ofToken?_eq_some_iff_token.mpr htoken]
        exact Resource.leafFilter_eq_error_iff.mpr (.inl hresolve)
    | fragment htoken hop hresolve =>
        rw [Operator.ofToken?_eq_some_iff_token.mpr htoken]
        exact Resource.leafFilter_eq_error_iff.mpr (.inr ⟨hop, rfl, _, _, hresolve⟩)

/-- **Why a leaf of a filter fails.** -/
theorem compile_leaf_eq_error_iff {filter leaf : Filter} (hleaf : leaf ∈ filter.leaves scope) :
    leaf.compile resource escaping none = .error e ↔ LeafError resource leaf e := by
  induction filter generalizing scope with
  | present path =>
      obtain rfl := List.mem_singleton.mp hleaf
      exact compile_present_eq_error_iff
  | compare path token value =>
      obtain rfl := List.mem_singleton.mp hleaf
      exact compile_compare_eq_error_iff
  | grouping carrier operand ih => exact ih hleaf
  | and left right ihl ihr | or left right ihl ihr =>
      exact (List.mem_append.mp hleaf).elim ihl ihr
  | not operand ih => exact ih hleaf

/-! ### Filters -/

section Operands

variable {x y : Except FilterError DirectoryFilter}
  {join : DirectoryFilter → DirectoryFilter → DirectoryFilter}

/-- Two operands compiled one after the other succeed when both do. -/
theorem exists_operands_iff :
    (∃ d, (do let a ← x; let b ← y; return join a b) = Except.ok d) ↔
      (∃ a, x = .ok a) ∧ ∃ b, y = .ok b := by
  simp only [bind_eq_ok_iff, pure_eq_ok_iff]
  constructor
  · rintro ⟨_, a, ha, b, hb, -⟩
    exact ⟨⟨a, ha⟩, b, hb⟩
  · rintro ⟨⟨a, ha⟩, b, hb⟩
    exact ⟨_, a, ha, b, hb, rfl⟩

/-- Two operands compiled one after the other fail as the first one does, or as the second one after
it. -/
theorem operands_eq_error_iff :
    (do let a ← x; let b ← y; return join a b) = .error e ↔
      x = .error e ∨ (∃ a, x = .ok a) ∧ y = .error e := by
  rw [bind_eq_error_iff]
  refine or_congr_right ?_
  constructor
  · rintro ⟨a, ha, hfails⟩
    rcases bind_eq_error_iff.mp hfails with hy | ⟨b, -, hreturn⟩
    · exact ⟨⟨a, ha⟩, hy⟩
    · cases hreturn
  · rintro ⟨⟨a, ha⟩, hy⟩
    exact ⟨a, ha, bind_eq_error_iff.mpr (.inl hy)⟩

end Operands

/-- **A filter compiles** exactly when each of its leaves does. Induction on the filter; the scope
is generalised, because a grouping replaces it. -/
theorem exists_compile_iff {filter : Filter} :
    (∃ d, filter.compile resource escaping scope = .ok d) ↔
      ∀ leaf ∈ filter.leaves scope, ∃ d, leaf.compile resource escaping none = .ok d := by
  induction filter generalizing scope with
  | present path | compare path token value => rw [leaves, List.forall_mem_singleton]; rfl
  | grouping carrier operand ih => exact ih
  | and left right ihl ihr =>
      rw [compile_and, exists_operands_iff, leaves, List.forall_mem_append, ihl, ihr]
  | or left right ihl ihr =>
      rw [compile_or, exists_operands_iff, leaves, List.forall_mem_append, ihl, ihr]
  | not operand ih =>
      simp only [compile_not_eq_ok_iff, leaves, ← ih]
      constructor
      · rintro ⟨_, a, ha, -⟩
        exact ⟨a, ha⟩
      · rintro ⟨a, ha⟩
        exact ⟨_, a, ha, rfl⟩

/-- **A filter fails as the first of its leaves that does not compile.** Induction on the filter; of
two operands the second one counts where all leaves of the first compile. -/
theorem compile_eq_error_iff {filter : Filter} :
    filter.compile resource escaping scope = .error e ↔
      FailsFirst (fun leaf => leaf.compile resource escaping none) (filter.leaves scope) e := by
  induction filter generalizing scope with
  | present path | compare path token value => rw [leaves, failsFirst_singleton]; rfl
  | grouping carrier operand ih => exact ih
  | and left right ihl ihr =>
      rw [compile_and, operands_eq_error_iff, leaves, failsFirst_append, ihl, ihr,
        exists_compile_iff]
  | or left right ihl ihr =>
      rw [compile_or, operands_eq_error_iff, leaves, failsFirst_append, ihl, ihr,
        exists_compile_iff]
  | not operand ih =>
      rw [compile_not, bind_eq_error_iff, leaves, ← ih]
      exact or_iff_left (by rintro ⟨_, -, ⟨⟩⟩)

end Filter

/-- A filter with two faults: an order is asked of a key, inside a grouping, and after that stands a
token that is none. -/
def Sample.faultyFilter : Filter :=
  .and (.present "label")
    (.or (.grouping "members" (.compare "value" "gt" "a")) (.compare "level" "xx" "a"))

namespace Registry

/-- The resource type of a name is missing where none has a name alike to it. -/
theorem require_eq_error {registry : Registry} {name : String}
    (h : ∀ resource ∈ registry.resourceTypes, ¬ Alike resource.name name) :
    registry.require name = .error (.unknownResourceType name) := by
  have hnone : registry.resource? name = none := by
    rw [resource?_eq_find?, Named.find?, List.find?_eq_none]
    intro resource hmem
    exact decide_eq_true_iff.not.mpr (h resource hmem)
  rw [require, hnone]
  rfl

section Compile

variable {registry : Registry} {config : CompilerConfig} {filter : Filter} {name : String}
  {resource : Resource}

/-- For a resource type that is found, a text is compiled where the tree is. -/
theorem exists_compile_iff (h : registry.resource? name = some resource) :
    (∃ text, registry.compile config filter name = .ok text) ↔
      ∃ d, filter.compile resource config.escaping none = .ok d := by
  simp only [compile_eq_ok_iff, h]
  constructor
  · rintro ⟨_, _, d, ⟨⟩, hd, -⟩
    exact ⟨d, hd⟩
  · rintro ⟨d, hd⟩
    exact ⟨_, _, d, rfl, hd, rfl⟩

/-- For a resource type that is found, the errors are those of the tree. -/
theorem compile_eq_error_iff (h : registry.resource? name = some resource) {e : FilterError} :
    registry.compile config filter name = .error e ↔
      filter.compile resource config.escaping none = .error e := by
  rw [compile, require_eq_ok_iff.mpr h]
  change (do return (← filter.compile resource config.escaping none).text) = .error e ↔ _
  rw [bind_eq_error_iff]
  exact or_iff_left (by rintro ⟨_, -, ⟨⟩⟩)

end Compile

/-- **The answer to any filter, by its leaves.** For a resource type that is not registered it is
that error, whatever the filter. For any other one, the filter compiles exactly when each leaf,
taken alone with its path as it reads inside its grouping, compiles; it fails exactly as the first
leaf from the left that does not; and a leaf that is taken alone fails for its token, its path or
its operator, in that order. -/
theorem compile_all_or_nothing (registry : Registry) (config : CompilerConfig) (filter : Filter)
    (name : String) :
    ((∀ resource ∈ registry.resourceTypes, ¬ Alike resource.name name) →
      registry.compile config filter name = .error (.unknownResourceType name)) ∧
    ∀ resource, registry.resource? name = some resource →
      ((∃ text, registry.compile config filter name = .ok text) ↔
        ∀ leaf ∈ filter.leaves none, ∃ text, registry.compile config leaf name = .ok text) ∧
      (∀ e, registry.compile config filter name = .error e ↔
        FailsFirst (fun leaf => registry.compile config leaf name) (filter.leaves none) e) ∧
      ∀ leaf ∈ filter.leaves none, ∀ e,
        registry.compile config leaf name = .error e ↔ leaf.LeafError resource e := by
  constructor
  · intro h
    rw [compile, require_eq_error h]
    rfl
  · intro resource hresource
    refine ⟨?_, fun e => ?_, fun leaf hleaf e => ?_⟩
    · simp only [exists_compile_iff hresource]
      exact Filter.exists_compile_iff
    · simp only [FailsFirst, exists_compile_iff hresource, compile_eq_error_iff hresource]
      exact Filter.compile_eq_error_iff
    · rw [compile_eq_error_iff hresource]
      exact Filter.compile_leaf_eq_error_iff hleaf

/-- Of its two faults a filter is refused for the one on the left. -/
theorem compile_all_or_nothing_team :
    ∃ registry, build [Sample.team] = .ok registry ∧
      registry.compile {} Sample.faultyFilter "team" =
        .error (.unsupportedOnFragment .greater "members.value") ∧
      registry.compile {} Sample.faultyFilter "crew" = .error (.unknownResourceType "crew") := by
  have hsample : ∃ registry, build [Sample.team] = .ok registry ∧
      registry.resolve "members.value" "team" = .ok (.fragment "member" "value") ∧
      (registry.compile {} (.present "label") "team").isOk = true ∧
      ∀ resource ∈ registry.resourceTypes, ¬ Alike resource.name "crew" := by
    apply exists_ok_of_decide
    decide +kernel
  obtain ⟨registry, hbuild, hresolve, hlabel, hmissing⟩ := hsample
  obtain ⟨resource, hresource, hvalue⟩ := resolve_eq_ok_iff.mp hresolve
  obtain ⟨hunknown, -⟩ := compile_all_or_nothing registry {} Sample.faultyFilter "crew"
  obtain ⟨-, hknown⟩ := compile_all_or_nothing registry {} Sample.faultyFilter "team"
  obtain ⟨-, hfirst, hleaf⟩ := hknown resource hresource
  have hleaves : Sample.faultyFilter.leaves none =
      [.present "label", .compare "members.value" "gt" "a", .compare "level" "xx" "a"] := by
    decide +kernel
  have horder : registry.compile {} (.compare "members.value" "gt" "a") "team" =
      .error (.unsupportedOnFragment .greater "members.value") :=
    (hleaf _ (by simp [hleaves]) _).mpr
      (.fragment (by decide +kernel) (by decide +kernel) hvalue)
  refine ⟨registry, hbuild, (hfirst _).mpr ⟨[.present "label"], _, _, hleaves, ?_, horder⟩,
    hunknown hmissing⟩
  exact List.forall_mem_singleton.mpr (exists_ok_of_isOk hlabel)

end Registry

end ScimDirectory
