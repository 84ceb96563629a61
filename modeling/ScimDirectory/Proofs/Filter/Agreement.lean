import ScimDirectory.Proofs.Agreement
import ScimDirectory.Proofs.Filter.Compilation

/-!
# Compiling two filters side by side

Two filters of one shape, with related names and related literals at each of their places, are
compiled node by node in step: a carrier that the one enters, the other enters as well, and where
the one fails first, so does the other. What is left to show of a particular relation concerns the
leaves (`Filter.Related.agree_compile`).

## Main results

* `Filter.Related.agree_compile`: **related filters compile in agreement, if their leaves do**.
* `Filter.Related.agree_compile_of_eq`: so do filters that differ in their literals only.
-/

namespace ScimDirectory

/-- The relation between directory filters is kept when related filters are combined. -/
structure DirectoryFilter.IsCongruence (Results : DirectoryFilter → DirectoryFilter → Prop) :
    Prop where
  and : ∀ a a' b b', Results a a' → Results b b' → Results (.and a b) (.and a' b')
  or : ∀ a a' b b', Results a a' → Results b b' → Results (.or a b) (.or a' b')
  not : ∀ a a', Results a a' → Results (.not a) (.not a')

theorem DirectoryFilter.isCongruence_eq : IsCongruence Eq where
  and := fun _ _ _ _ ha hb => congrArg₂ DirectoryFilter.and ha hb
  or := fun _ _ _ _ ha hb => congrArg₂ DirectoryFilter.or ha hb
  not := fun _ _ ha => congrArg DirectoryFilter.not ha

namespace Filter

/-- Two filters of one shape: their paths, carriers and tokens are related by `Names`, and their
literals by `Literals`, place by place. -/
inductive Related (Names Literals : String → String → Prop) : Filter → Filter → Prop
  | present {p q : String} (hpath : Names p q) : Related Names Literals (.present p) (.present q)
  | compare {p q s t v w : String} (hpath : Names p q) (htoken : Names s t)
      (hliteral : Literals v w) : Related Names Literals (.compare p s v) (.compare q t w)
  | grouping {c d : String} {f g : Filter} (hcarrier : Names c d)
      (hoperand : Related Names Literals f g) :
      Related Names Literals (.grouping c f) (.grouping d g)
  | and {f f' g g' : Filter} (hleft : Related Names Literals f f')
      (hright : Related Names Literals g g') : Related Names Literals (.and f g) (.and f' g')
  | or {f f' g g' : Filter} (hleft : Related Names Literals f f')
      (hright : Related Names Literals g g') : Related Names Literals (.or f g) (.or f' g')
  | not {f g : Filter} (hoperand : Related Names Literals f g) :
      Related Names Literals (.not f) (.not g)

variable {Names Literals Values : String → String → Prop}

/-- A filter is related to itself, if its names and its literals are. -/
theorem Related.refl (hnames : ∀ name, Names name name) (hliterals : ∀ v, Literals v v)
    (filter : Filter) : Related Names Literals filter filter := by
  induction filter with
  | present path => exact .present (hnames path)
  | compare path token value => exact .compare (hnames path) (hnames token) (hliterals value)
  | grouping carrier operand ih => exact .grouping (hnames carrier) ih
  | and left right ihl ihr => exact .and ihl ihr
  | or left right ihl ihr => exact .or ihl ihr
  | not operand ih => exact .not ih

variable {Errors : FilterError → FilterError → Prop}
  {Results : DirectoryFilter → DirectoryFilter → Prop}
  {resource resource' : Resource} {escaping escaping' : Escaping}

/-- **Related filters compile in agreement**, if related names are scoped alike and looked up alike,
related literals are escaped alike, and the leaves on them agree. Induction on the relation; the
scopes are generalised, because a grouping replaces them. -/
theorem Related.agree_compile
    (hscoped : ∀ {scope scope' p q}, Option.Rel Names scope scope' → Names p q →
      Names (scopedPath scope p) (scopedPath scope' q))
    (htoken : ∀ {s t}, Names s t → Operator.ofToken? s = Operator.ofToken? t ∧
      Errors (.unknownOperator s) (.unknownOperator t))
    (hescape : ∀ {v w}, Literals v w → Values (escaping.apply v) (escaping'.apply w))
    (hvalue : ∀ v, Values v v)
    (hleaf : ∀ op {p q v w}, Names p q → Values v w →
      Agree Errors Results (resource.leafFilter op p v) (resource'.leafFilter op q w))
    (hresults : DirectoryFilter.IsCongruence Results) {f g : Filter}
    (h : Related Names Literals f g) : ∀ {scope scope' : Option String},
    Option.Rel Names scope scope' →
      Agree Errors Results (f.compile resource escaping scope)
        (g.compile resource' escaping' scope') := by
  induction h with
  | present hpath =>
      intro scope scope' hscope
      rw [compile_present _ "", compile_present _ ""]
      exact hleaf .present (hscoped hscope hpath) (hvalue "")
  | @compare p q s t v w hpath hname hliteral =>
      intro scope scope' hscope
      obtain ⟨hsame, hunknown⟩ := htoken hname
      rw [compile_compare, compile_compare, hsame]
      cases Operator.ofToken? t with
      | none => exact .error hunknown
      | some op => exact hleaf op (hscoped hscope hpath) (hescape hliteral)
  | grouping hcarrier _ ih =>
      intro scope scope' _
      rw [compile_grouping, compile_grouping]
      exact ih (.some hcarrier)
  | and _ _ ihl ihr =>
      intro scope scope' hscope
      rw [compile_and, compile_and]
      refine (ihl hscope).bind fun a a' ha => (ihr hscope).bind fun b b' hb => ?_
      exact .ok (hresults.and a a' b b' ha hb)
  | or _ _ ihl ihr =>
      intro scope scope' hscope
      rw [compile_or, compile_or]
      refine (ihl hscope).bind fun a a' ha => (ihr hscope).bind fun b b' hb => ?_
      exact .ok (hresults.or a a' b b' ha hb)
  | not _ ih =>
      intro scope scope' hscope
      rw [compile_not, compile_not]
      exact (ih hscope).bind fun a a' ha => .ok (hresults.not a a' ha)

/-- **Filters that differ in their literals only** compile in agreement, if the leaves on one path
do. -/
theorem Related.agree_compile_of_eq
    (hescape : ∀ {v w}, Literals v w → Values (escaping.apply v) (escaping'.apply w))
    (hvalue : ∀ v, Values v v)
    (hleaf : ∀ op path {v w}, Values v w →
      Agree Eq Results (resource.leafFilter op path v) (resource'.leafFilter op path w))
    (hresults : DirectoryFilter.IsCongruence Results) {f g : Filter}
    (h : Related Eq Literals f g) (scope : Option String) :
    Agree Eq Results (f.compile resource escaping scope) (g.compile resource' escaping' scope) := by
  have hscope : Option.Rel Eq scope scope := by
    cases scope with
    | none => exact .none
    | some carrier => exact .some rfl
  refine h.agree_compile ?_ ?_ hescape hvalue ?_ hresults hscope
  · rintro scope _ p _ hsame rfl
    cases hsame with
    | none => rfl
    | some hcarrier => rw [hcarrier]
  · rintro token _ rfl
    exact ⟨rfl, rfl⟩
  · rintro op path _ v w rfl hvalues
    exact hleaf op path hvalues

end Filter

end ScimDirectory
