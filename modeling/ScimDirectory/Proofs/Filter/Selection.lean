import ScimDirectory.Proofs.Filter.ReadBack

/-!
# What compiled filters select

An entry of the directory gives every backend attribute a list of values, and a filter selects the
entries of which it holds. For a directory filter that is settled by its reading
(`FilterReading.Holds`): an item holds when some value satisfies it. For a source filter it is
settled by its operators (`Operator.Holds`), which know nothing of stars, escapes and pairs of
items.

A directory has no strict comparison, so a strict one is compiled to a pair of items, and these may
be satisfied by different values. The two meanings therefore agree on entries that give at most one
value to each attribute that is compared strictly (`Filter.IsSingleValued`).

## Main results

* `Operator.holds_reading_iff`: a leaf on a plain attribute keeps its meaning.
* `Filter.holds_reading?_iff`: so does a tree of such leaves, by induction on it.
* `Registry.selects_compile_iff`: **the compiled filter selects the entries of which the source
  filter holds**.
-/

namespace ScimDirectory

/-- The values that an entry of the directory gives to its attributes. -/
abbrev Entry := String → List String

/-- A total order in which the directory compares values. -/
structure Collation where
  /-- The first value does not come after the second. -/
  le : String → String → Prop
  total : ∀ a b, le a b ∨ le b a
  antisymm : ∀ a b, le a b → le b a → a = b
  trans : ∀ a b c, le a b → le b c → le a c

namespace Collation

/-- The first value comes before the second. -/
def lt (order : Collation) (a b : String) : Prop :=
  ¬ order.le b a

/-- Values compared character by character. -/
def byCharacters : Collation where
  le a b := a ≤ b
  total := String.le_total
  antisymm _ _ := String.le_antisymm
  trans _ _ _ := String.le_trans

/-- To come before is not to come after and to be another. -/
theorem lt_iff_le_and_ne {order : Collation} {a b : String} :
    order.lt a b ↔ order.le a b ∧ a ≠ b := by
  constructor
  · intro h
    refine ⟨(order.total a b).resolve_right h, ?_⟩
    rintro rfl
    exact h ((order.total a a).elim id id)
  · rintro ⟨hle, hne⟩ hge
    exact hne (order.antisymm a b hle hge)

end Collation

/-! ### Meanings -/

/-- What a reading says of an entry. -/
def FilterReading.Holds (order : Collation) (entry : Entry) : FilterReading → Prop
  | present name => entry name ≠ []
  | equal name pieces =>
      ∃ value ∈ entry name, Assertion.Matches (pieces.map String.toList) value.toList
  | atLeast name bound => ∃ value ∈ entry name, order.le bound value
  | atMost name bound => ∃ value ∈ entry name, order.le value bound
  | and left right => left.Holds order entry ∧ right.Holds order entry
  | or left right => left.Holds order entry ∨ right.Holds order entry
  | not operand => ¬ operand.Holds order entry

/-- The text, read as a directory filter, holds of the entry. -/
def Selects (order : Collation) (entry : Entry) (text : String) : Prop :=
  ∃ reading, Reads text.toList reading ∧ reading.Holds order entry

/-- What an operator says of the values of an attribute. -/
def Operator.Holds (order : Collation) (op : Operator) (values : List String) (literal : String) :
    Prop :=
  match op with
  | equal => ∃ value ∈ values, value = literal
  | notEqual => ¬ ∃ value ∈ values, value = literal
  | contains => ∃ value ∈ values, literal.toList <:+: value.toList
  | startsWith => ∃ value ∈ values, literal.toList <+: value.toList
  | endsWith => ∃ value ∈ values, literal.toList <:+ value.toList
  | present => ∃ value, value ∈ values
  | greater => ∃ value ∈ values, order.lt literal value
  | greaterOrEqual => ∃ value ∈ values, order.le literal value
  | less => ∃ value ∈ values, order.lt value literal
  | lessOrEqual => ∃ value ∈ values, order.le value literal

/-- The operator compares strictly. -/
def Operator.IsStrict (op : Operator) : Prop :=
  op = greater ∨ op = less

namespace Filter

/-- The path leads to the backend attribute `name`, and to no key inside its text. -/
def LeadsTo (resource : Resource) (scope : Option String) (path name : String) : Prop :=
  ∃ complex space, resource.resolve (scopedPath scope path) = .ok (.plain name complex space)

/-- **The meaning of a source filter** on plain attributes. -/
def Holds (resource : Resource) (order : Collation) (entry : Entry) (scope : Option String) :
    Filter → Prop
  | present path => ∃ name, LeadsTo resource scope path name ∧
      Operator.present.Holds order (entry name) ""
  | compare path token literal => ∃ op name, Operator.ofToken? token = some op ∧
      LeadsTo resource scope path name ∧ op.Holds order (entry name) literal
  | grouping carrier operand => operand.Holds resource order entry (some carrier)
  | and left right =>
      left.Holds resource order entry scope ∧ right.Holds resource order entry scope
  | or left right =>
      left.Holds resource order entry scope ∨ right.Holds resource order entry scope
  | not operand => ¬ operand.Holds resource order entry scope

/-- The leaves of the filter have operators, and lead to plain attributes. -/
def IsPlain (resource : Resource) (scope : Option String) : Filter → Prop
  | present path => ∃ name, LeadsTo resource scope path name
  | compare path token _ =>
      (∃ op, Operator.ofToken? token = some op) ∧ ∃ name, LeadsTo resource scope path name
  | grouping carrier operand => operand.IsPlain resource (some carrier)
  | and left right | or left right => left.IsPlain resource scope ∧ right.IsPlain resource scope
  | not operand => operand.IsPlain resource scope

/-- The entry gives at most one value to each attribute that the filter compares strictly. -/
def IsSingleValued (resource : Resource) (entry : Entry) (scope : Option String) : Filter → Prop
  | present _ => True
  | compare path token _ => ∀ op name, Operator.ofToken? token = some op → op.IsStrict →
      LeadsTo resource scope path name → (entry name).length ≤ 1
  | grouping carrier operand => operand.IsSingleValued resource entry (some carrier)
  | and left right | or left right =>
      left.IsSingleValued resource entry scope ∧ right.IsSingleValued resource entry scope
  | not operand => operand.IsSingleValued resource entry scope

/-- A path leads to one attribute at most. -/
theorem LeadsTo.unique {resource : Resource} {scope : Option String} {path a b : String}
    (ha : LeadsTo resource scope path a) (hb : LeadsTo resource scope path b) : a = b := by
  obtain ⟨_, _, ha⟩ := ha
  obtain ⟨_, _, hb⟩ := hb
  rw [ha] at hb
  exact (Target.plain.inj (Except.ok.inj hb)).1

end Filter

/-- The text of a clean filter selects the entries of which its tree holds. -/
theorem DirectoryFilter.selects_text_iff {filter : DirectoryFilter} (h : filter.IsClean)
    {order : Collation} {entry : Entry} :
    Selects order entry filter.text ↔ filter.reading.Holds order entry := by
  simp only [Selects, reads_text_iff h, exists_eq_left]

/-! ### Leaves -/

/-- Of at most one value, an item and the negation of another say what one test says. -/
theorem exists_and_not_exists_iff {values : List String} {p : String → Prop} {literal : String}
    (h : values.length ≤ 1) :
    (∃ value ∈ values, p value) ∧ (¬ ∃ value ∈ values, value = literal) ↔
      ∃ value ∈ values, p value ∧ value ≠ literal := by
  constructor
  · rintro ⟨⟨value, hmem, hp⟩, hne⟩
    exact ⟨value, hmem, hp, fun heq => hne ⟨value, hmem, heq⟩⟩
  · rintro ⟨value, hmem, hp, hne⟩
    refine ⟨⟨value, hmem, hp⟩, ?_⟩
    rintro ⟨other, hother, rfl⟩
    obtain ⟨only, rfl⟩ : ∃ only, values = [only] := by
      rw [← List.length_eq_one_iff]
      have hpos := List.length_pos_of_mem hmem
      omega
    rw [List.mem_singleton] at hmem hother
    exact hne (hmem.trans hother.symm)

namespace Operator

variable {order : Collation} {entry : Entry} {name : String}

/-- The item of a single piece asks for that value. -/
theorem holds_equal_iff (literal : String) :
    (FilterReading.equal name [literal]).Holds order entry ↔
      ∃ value ∈ entry name, value = literal := by
  refine exists_congr fun value => and_congr_right fun _ => ?_
  exact (Assertion.matches_singleton _ _).trans String.toList_inj

theorem holds_present_iff :
    (FilterReading.present name).Holds order entry ↔ ∃ value, value ∈ entry name := by
  constructor
  · exact List.exists_mem_of_ne_nil _
  · rintro ⟨value, hmem⟩
    exact List.ne_nil_of_mem hmem

/-- **A leaf on a plain attribute keeps its meaning**, where a strict comparison sees at most one
value. -/
theorem holds_reading_iff {op : Operator} (literal : String)
    (hsingle : op.IsStrict → (entry name).length ≤ 1) :
    (op.reading name literal).Holds order entry ↔ op.Holds order (entry name) literal := by
  cases op with
  | equal => exact holds_equal_iff literal
  | notEqual => exact not_congr (holds_equal_iff literal)
  | contains =>
      refine exists_congr fun value => and_congr_right fun _ => ?_
      exact Assertion.matches_infix_iff literal.toList value.toList
  | startsWith =>
      by_cases hliteral : literal = ""
      · subst hliteral
        rw [reading, if_pos rfl, holds_present_iff]
        exact exists_congr fun value => (and_iff_left List.nil_prefix).symm
      · rw [reading, if_neg hliteral]
        refine exists_congr fun value => and_congr_right fun _ => ?_
        exact Assertion.matches_prefix_iff literal.toList value.toList
  | endsWith =>
      by_cases hliteral : literal = ""
      · subst hliteral
        rw [reading, if_pos rfl, holds_present_iff]
        exact exists_congr fun value => (and_iff_left List.nil_suffix).symm
      · rw [reading, if_neg hliteral]
        refine exists_congr fun value => and_congr_right fun _ => ?_
        exact Assertion.matches_suffix_iff literal.toList value.toList
  | present => exact holds_present_iff
  | greater =>
      refine (and_congr_right' (not_congr (holds_equal_iff literal))).trans ?_
      refine (exists_and_not_exists_iff (hsingle (.inl rfl))).trans ?_
      refine exists_congr fun value => and_congr_right fun _ => ?_
      rw [Collation.lt_iff_le_and_ne, ne_comm]
  | greaterOrEqual | lessOrEqual => exact Iff.rfl
  | less =>
      refine (and_congr_right' (not_congr (holds_equal_iff literal))).trans ?_
      refine (exists_and_not_exists_iff (hsingle (.inr rfl))).trans ?_
      refine exists_congr fun value => and_congr_right fun _ => ?_
      rw [Collation.lt_iff_le_and_ne]

end Operator

/-! ### Trees -/

namespace Filter

variable {resource : Resource} {filter : Filter}

/-- A filter on plain attributes compiles. -/
theorem IsPlain.exists_compile (escaping : Escaping) : ∀ {scope : Option String},
    filter.IsPlain resource scope → ∃ d, filter.compile resource escaping scope = .ok d := by
  induction filter with
  | present path =>
      rintro scope ⟨name, complex, space, hresolve⟩
      exact ⟨_, (compile_present_eq_ok_iff "").mpr ⟨_, hresolve, rfl⟩⟩
  | compare path token literal =>
      rintro scope ⟨⟨op, hop⟩, name, complex, space, hresolve⟩
      exact ⟨_, compile_compare_eq_ok_iff.mpr ⟨op, _, hop, hresolve, rfl⟩⟩
  | grouping carrier operand ih =>
      intro scope h
      exact ih (show operand.IsPlain resource (some carrier) from h)
  | and left right ihl ihr =>
      rintro scope ⟨hl, hr⟩
      obtain ⟨a, ha⟩ := ihl hl
      obtain ⟨b, hb⟩ := ihr hr
      exact ⟨_, compile_and_eq_ok_iff.mpr ⟨a, b, ha, hb, rfl⟩⟩
  | or left right ihl ihr =>
      rintro scope ⟨hl, hr⟩
      obtain ⟨a, ha⟩ := ihl hl
      obtain ⟨b, hb⟩ := ihr hr
      exact ⟨_, compile_or_eq_ok_iff.mpr ⟨a, b, ha, hb, rfl⟩⟩
  | not operand ih =>
      intro scope h
      obtain ⟨a, ha⟩ := ih h
      exact ⟨_, compile_not_eq_ok_iff.mpr ⟨a, ha, rfl⟩⟩

/-- **A tree on plain attributes keeps its meaning**: its reading holds of the entries of which it
holds itself. Induction on the filter; a grouping only changes the scope. -/
theorem holds_reading?_iff {order : Collation} {entry : Entry} :
    ∀ {scope : Option String} {reading : FilterReading},
      filter.reading? resource scope = some reading → filter.IsPlain resource scope →
      filter.IsSingleValued resource entry scope →
      (reading.Holds order entry ↔ filter.Holds resource order entry scope) := by
  induction filter with
  | present path =>
      rintro scope reading h ⟨name, hname⟩ -
      obtain ⟨complex, space, hresolve⟩ := id hname
      obtain rfl : FilterReading.present name = reading := by
        simpa [reading?, hresolve, Except.toOption, Target.reading?, Operator.reading] using h
      rw [Operator.holds_present_iff]
      constructor
      · intro hvalue
        exact ⟨name, hname, hvalue⟩
      · rintro ⟨other, hother, hvalue⟩
        exact hname.unique hother ▸ hvalue
  | compare path token literal =>
      rintro scope reading h ⟨⟨op, hop⟩, name, hname⟩ hsingle
      obtain ⟨complex, space, hresolve⟩ := id hname
      obtain rfl : op.reading name literal = reading := by
        simpa [reading?, hop, hresolve, Except.toOption, Target.reading?] using h
      rw [Operator.holds_reading_iff literal fun hstrict => hsingle op name hop hstrict hname]
      constructor
      · intro hvalue
        exact ⟨op, name, hop, hname, hvalue⟩
      · rintro ⟨other, othername, hother, hothername, hvalue⟩
        obtain rfl := Option.some.inj (hop.symm.trans hother)
        exact hname.unique hothername ▸ hvalue
  | grouping carrier operand ih =>
      intro scope reading h hplain hsingle
      exact ih (show operand.reading? resource (some carrier) = some reading from h) hplain hsingle
  | and left right ihl ihr =>
      rintro scope reading h ⟨hl, hr⟩ ⟨hsl, hsr⟩
      obtain ⟨a, ha, b, hb, rfl⟩ : ∃ a, left.reading? resource scope = some a ∧
          ∃ b, right.reading? resource scope = some b ∧ .and a b = reading := by
        simpa [reading?, Option.bind_eq_some_iff] using h
      exact and_congr (ihl ha hl hsl) (ihr hb hr hsr)
  | or left right ihl ihr =>
      rintro scope reading h ⟨hl, hr⟩ ⟨hsl, hsr⟩
      obtain ⟨a, ha, b, hb, rfl⟩ : ∃ a, left.reading? resource scope = some a ∧
          ∃ b, right.reading? resource scope = some b ∧ .or a b = reading := by
        simpa [reading?, Option.bind_eq_some_iff] using h
      exact or_congr (ihl ha hl hsl) (ihr hb hr hsr)
  | not operand ih =>
      intro scope reading h hplain hsingle
      obtain ⟨a, ha, rfl⟩ : ∃ a, operand.reading? resource scope = some a ∧ .not a = reading := by
        simpa [reading?, Option.bind_eq_some_iff] using h
      exact not_congr (ih ha hplain hsingle)

end Filter

namespace Registry

/-- **A compiled filter selects what the source filter describes**: under clean backend names, a
tree of any groupings whose leaves lead to plain attributes compiles, and the text that it compiles
to with its literals escaped selects exactly the entries of which the tree holds, among those that
give at most one value to each attribute that the tree compares strictly. -/
theorem selects_compile_iff {registry : Registry} (hclean : registry.HasCleanNames)
    {name : String} {resource : Resource} (hresource : registry.resource? name = some resource)
    {filter : Filter} (hplain : filter.IsPlain resource none) (order : Collation) :
    ∃ text, registry.compile ⟨.rfc4515⟩ filter name = .ok text ∧
      ∀ entry, filter.IsSingleValued resource entry none →
        (Selects order entry text ↔ filter.Holds resource order entry none) := by
  obtain ⟨d, hcompile⟩ := hplain.exists_compile .rfc4515
  obtain ⟨hreading, hd⟩ := Filter.reading?_of_compile (hclean.of_resource? hresource) hcompile
  refine ⟨d.text, compile_eq_ok_iff.mpr ⟨resource, d, hresource, hcompile, rfl⟩, ?_⟩
  intro entry hsingle
  rw [← Filter.holds_reading?_iff hreading hplain hsingle]
  exact DirectoryFilter.selects_text_iff hd

/-- A strict comparison and an empty literal, the values in the order of their characters. -/
theorem selects_compile_iff_team :
    ∃ registry resource text, build [Sample.team] = .ok registry ∧
      registry.resource? "team" = some resource ∧
      registry.compile ⟨.rfc4515⟩
        (.grouping "title" (.or (.compare "short" "gt" "b") (.compare "short" "sw" ""))) "team" =
          .ok text ∧
      ∀ entry : Entry, (entry "sn").length ≤ 1 →
        (Selects .byCharacters entry text ↔
          Filter.Holds resource .byCharacters entry none
            (.grouping "title" (.or (.compare "short" "gt" "b") (.compare "short" "sw" "")))) := by
  have hsample : ∃ registry, build [Sample.team] = .ok registry ∧ registry.HasCleanNames ∧
      ((registry.resource? "team").map fun resource => resource.resolve "title.short") =
        some (.ok (.plain "sn" false .core)) := by
    apply exists_ok_of_decide
    decide +kernel
  obtain ⟨registry, hbuild, hclean, hsome⟩ := hsample
  obtain ⟨resource, hresource, hresolve⟩ := Option.map_eq_some_iff.mp hsome
  have hpath : Filter.LeadsTo resource (some "title") "short" "sn" := ⟨_, _, hresolve⟩
  obtain ⟨text, hcompile, hselects⟩ := selects_compile_iff hclean hresource
    (show Filter.IsPlain resource none
      (.grouping "title" (.or (.compare "short" "gt" "b") (.compare "short" "sw" ""))) from
      ⟨⟨⟨_, Operator.ofToken?_token .greater⟩, _, hpath⟩,
        ⟨_, Operator.ofToken?_token .startsWith⟩, _, hpath⟩)
    .byCharacters
  refine ⟨registry, resource, text, hbuild, hresource, hcompile, ?_⟩
  intro entry hsingle
  refine hselects entry ⟨?_, ?_⟩
  · rintro op name - - hname
    exact hpath.unique hname ▸ hsingle
  · rintro op name - - hname
    exact hpath.unique hname ▸ hsingle

end Registry

end ScimDirectory
