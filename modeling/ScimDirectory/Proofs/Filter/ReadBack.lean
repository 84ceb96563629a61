import ScimDirectory.Proofs.DirectoryFilter.Reading
import ScimDirectory.Proofs.Filter.Compilation
import ScimDirectory.Proofs.Schema.Targets

/-!
# Reading compiled filters back

A filter that was compiled with its literals escaped is read back as the filter it was compiled
from: groupings are gone, conjunctions, disjunctions and negations stand where they stood, and each
leaf has become the few items that its operator stands for, on the backend name that its path
resolves to and with its literal as it was written.

`Filter.reading?` says so without the compiler: it takes paths to targets and operators to readings
(`Operator.reading`, `Fragment.reading?`), and knows neither escapes nor the text of a filter. A
literal may be empty; then a prefix or a suffix match on a plain attribute is the star alone, which
asks for presence.

## Main results

* `Target.reading?_of_leaf?`: a leaf is read back, on a plain attribute and on a fragment.
* `Filter.reading?_of_compile`: so is a tree, by induction on it.
* `Registry.reads_compile`: **the text of a compiled filter has exactly one reading, the source
  tree with its groupings erased**.
-/

namespace ScimDirectory

/-! ### The readings of leaves -/

/-- What the directory is to understand of an operator on a plain attribute. -/
def Operator.reading (op : Operator) (name literal : String) : FilterReading :=
  match op with
  | equal => .equal name [literal]
  | notEqual => .not (.equal name [literal])
  | contains => .equal name ["", literal, ""]
  | startsWith => if literal = "" then .present name else .equal name [literal, ""]
  | endsWith => if literal = "" then .present name else .equal name ["", literal]
  | present => .present name
  | greater => .and (.atLeast name literal) (.not (.equal name [literal]))
  | greaterOrEqual => .atLeast name literal
  | less => .and (.atMost name literal) (.not (.equal name [literal]))
  | lessOrEqual => .atMost name literal

/-- What the directory is to understand of an operator on a key inside the text of a carrier. -/
def Fragment.reading? (carrier key : String) (op : Operator) (literal : String) :
    Option FilterReading :=
  match op with
  | .equal => some (.equal carrier ["", "\"" ++ key ++ "\":\"" ++ literal ++ "\"", ""])
  | .contains | .startsWith => some (.equal carrier ["", "\"" ++ key ++ "\":", literal, ""])
  | .endsWith => some (.equal carrier ["", "\"" ++ key ++ "\":", literal ++ "\"", ""])
  | .present =>
      some (.and (.present carrier) (.equal carrier ["", "\"" ++ key ++ "\":\"", ""]))
  | _ => none

/-- What the directory is to understand of an operator on a target. -/
def Target.reading? (op : Operator) (literal : String) : Target → Option FilterReading
  | plain name _ _ => some (op.reading name literal)
  | fragment carrier key => Fragment.reading? carrier key op literal

/-- **The reading of a source filter**, its groupings erased: every leaf is that of the target its
path leads to inside the innermost grouping. -/
def Filter.reading? (resource : Resource) (scope : Option String) : Filter → Option FilterReading
  | present path => do
      let target ← (resource.resolve (scopedPath scope path)).toOption
      target.reading? .present ""
  | compare path token literal => do
      let op ← Operator.ofToken? token
      let target ← (resource.resolve (scopedPath scope path)).toOption
      target.reading? op literal
  | grouping carrier operand => operand.reading? resource (some carrier)
  | and left right => return .and (← left.reading? resource scope) (← right.reading? resource scope)
  | or left right => return .or (← left.reading? resource scope) (← right.reading? resource scope)
  | not operand => return .not (← operand.reading? resource scope)

/-! ### Assertions with an escaped literal -/

/-- An escaped literal between two texts without stars and backslashes is one piece with them. -/
theorem pieces_around_escape (front back : List Char) (literal : String)
    (hfront : '*' ∉ front ∧ '\\' ∉ front) (hback : '*' ∉ back ∧ '\\' ∉ back) :
    Assertion.pieces (front ++ (escape literal).toList ++ back) =
      [front ++ literal.toList ++ back] := by
  have hstar : '*' ∉ front ++ (escape literal).toList ++ back := by
    rw [toList_escape]
    simp only [List.mem_append, not_or]
    exact ⟨⟨hfront.1, not_mem_flatMap_escapeChar (by decide) _⟩, hback.1⟩
  rw [Assertion.pieces_of_not_mem hstar, List.append_assoc, unescape_append_of_not_mem hfront.2,
    toList_escape, unescape_flatMap_escapeChar_append, unescape_of_not_mem hback.2,
    List.append_assoc]

/-- A text without stars and backslashes is one piece, itself. -/
theorem pieces_of_plain {text : List Char} (h : '*' ∉ text ∧ '\\' ∉ text) :
    Assertion.pieces text = [text] := by
  rw [Assertion.pieces_of_not_mem h.1, unescape_of_not_mem h.2]

/-- An escaped literal is one piece, the literal. -/
theorem pieces_escape (literal : String) :
    Assertion.pieces (escape literal).toList = [literal.toList] := by
  simpa using pieces_around_escape [] [] literal (by simp) (by simp)

/-- An escaped literal holds no raw parenthesis. -/
theorem isBare_escape (literal : String) : IsBare (escape literal).toList := by
  rw [toList_escape]
  exact ⟨not_mem_flatMap_escapeChar (by decide) _, not_mem_flatMap_escapeChar (by decide) _⟩

/-- Nothing but the empty literal is escaped to nothing. -/
theorem escape_eq_empty_iff {literal : String} : escape literal = "" ↔ literal = "" := by
  constructor
  · intro h
    have hdecoded := unescape_escape literal
    rw [h] at hdecoded
    exact String.toList_eq_nil_iff.mp hdecoded.symm
  · rintro rfl
    rfl

/-! ### Plain attributes -/

/-- An equality item that is not a lone star is read by its pieces. -/
theorem reading_item_equal {name : String} (assertion : String) {pieces : List String}
    (hstar : assertion.toList ≠ ['*'])
    (hpieces : Assertion.pieces assertion.toList = pieces.map String.toList) :
    (DirectoryFilter.item name .equal assertion).reading = .equal name pieces := by
  rw [DirectoryFilter.reading, FilterReading.item, if_neg hstar, hpieces]
  simp [Function.comp_def]

theorem reading_present (name : String) :
    (DirectoryFilter.present name).reading = .present name := by
  simp [DirectoryFilter.present, DirectoryFilter.reading, FilterReading.item]

/-- An equality with an escaped literal is read as one with the literal. -/
theorem reading_item_equal_escape (name literal : String) :
    (DirectoryFilter.item name .equal (escape literal)).reading = .equal name [literal] := by
  have hstar : (escape literal).toList ≠ ['*'] := by
    intro h
    have hmem : '*' ∈ (escape literal).toList := h ▸ List.mem_singleton_self _
    rw [toList_escape] at hmem
    exact not_mem_flatMap_escapeChar (by decide) _ hmem
  exact reading_item_equal (escape literal) hstar (pieces_escape literal)

/-- A lower bound with an escaped literal is read as one with the literal. -/
theorem reading_item_atLeast_escape (name literal : String) :
    (DirectoryFilter.item name .atLeast (escape literal)).reading = .atLeast name literal := by
  rw [DirectoryFilter.reading, FilterReading.item, unescape_escape, String.ofList_toList,
    String.ofList_toList]

/-- An upper bound with an escaped literal is read as one with the literal. -/
theorem reading_item_atMost_escape (name literal : String) :
    (DirectoryFilter.item name .atMost (escape literal)).reading = .atMost name literal := by
  rw [DirectoryFilter.reading, FilterReading.item, unescape_escape, String.ofList_toList,
    String.ofList_toList]

/-- **A leaf on a plain attribute is read back.** -/
theorem Operator.reading_toFilter_escape (op : Operator) (name literal : String) :
    (op.toFilter name (escape literal)).reading = op.reading name literal := by
  cases op with
  | equal => exact reading_item_equal_escape name literal
  | notEqual => exact congrArg FilterReading.not (reading_item_equal_escape name literal)
  | contains =>
      have htext : ("*" ++ escape literal ++ "*").toList =
          '*' :: ((escape literal).toList ++ '*' :: []) := by simp
      refine reading_item_equal ("*" ++ escape literal ++ "*") ?_ ?_
      · simp [htext]
      · rw [htext, Assertion.pieces_star, Assertion.pieces_append_star, pieces_escape]
        rfl
  | startsWith =>
      have htext : ("" ++ escape literal ++ "*").toList =
          (escape literal).toList ++ '*' :: [] := by simp
      by_cases hliteral : literal = ""
      · subst hliteral
        exact reading_present name
      · rw [Operator.reading, if_neg hliteral]
        refine reading_item_equal ("" ++ escape literal ++ "*") ?_ ?_
        · simpa [htext, escape_eq_empty_iff] using hliteral
        · rw [htext, Assertion.pieces_append_star, pieces_escape]
          rfl
  | endsWith =>
      have htext : ("*" ++ escape literal ++ "").toList = '*' :: (escape literal).toList := by simp
      by_cases hliteral : literal = ""
      · subst hliteral
        exact reading_present name
      · rw [Operator.reading, if_neg hliteral]
        refine reading_item_equal ("*" ++ escape literal ++ "") ?_ ?_
        · simpa [htext, escape_eq_empty_iff] using hliteral
        · rw [htext, Assertion.pieces_star, pieces_escape]
          rfl
  | present => exact reading_present name
  | greater =>
      exact congrArg₂ (fun a b => FilterReading.and a (.not b))
        (reading_item_atLeast_escape name literal) (reading_item_equal_escape name literal)
  | greaterOrEqual => exact reading_item_atLeast_escape name literal
  | less =>
      exact congrArg₂ (fun a b => FilterReading.and a (.not b))
        (reading_item_atMost_escape name literal) (reading_item_equal_escape name literal)
  | lessOrEqual => exact reading_item_atMost_escape name literal

/-- A leaf on a plain attribute of a clean name has no raw parenthesis but its own. -/
theorem Operator.isClean_toFilter_escape (op : Operator) {name : String} (hname : IsCleanName name)
    (literal : String) : (op.toFilter name (escape literal)).IsClean := by
  have hitem : ∀ front back : String, IsBare front.toList → IsBare back.toList →
      (DirectoryFilter.item name .equal (front ++ escape literal ++ back)).IsClean := by
    intro front back hfront hback
    refine ⟨hname, ?_⟩
    rw [String.toList_append, String.toList_append]
    exact (hfront.append (isBare_escape literal)).append hback
  have hplain : ∀ relation, (DirectoryFilter.item name relation (escape literal)).IsClean := by
    intro relation
    exact ⟨hname, isBare_escape literal⟩
  cases op with
  | equal | greaterOrEqual | lessOrEqual => exact hplain _
  | notEqual => exact hplain .equal
  | contains => exact hitem "*" "*" (by decide) (by decide)
  | startsWith => exact hitem "" "*" (by decide) (by decide)
  | endsWith => exact hitem "*" "" (by decide) (by decide)
  | present => exact ⟨hname, by decide, by decide⟩
  | greater | less => exact ⟨hplain _, hplain .equal⟩

/-! ### Keys of fragments -/

/-- A clean key with its quotes, and what stands behind it, is one plain text. -/
theorem plain_key {key : String} (hkey : IsCleanName key) {back : List Char}
    (hback : '*' ∉ back ∧ '\\' ∉ back) :
    '*' ∉ '"' :: (key.toList ++ back) ∧ '\\' ∉ '"' :: (key.toList ++ back) := by
  simp only [List.mem_cons, List.mem_append, not_or]
  exact ⟨⟨by decide, hkey.not_mem (by decide), hback.1⟩,
    ⟨by decide, hkey.not_mem (by decide), hback.2⟩⟩

/-- The assertion for a key with a whole value is one piece between two stars. -/
theorem pieces_keyed_value {key : String} (hkey : IsCleanName key) (literal : String) :
    Assertion.pieces ("*\"" ++ key ++ "\":\"" ++ escape literal ++ "\"*").toList =
      [[], '"' :: (key.toList ++ ['"', ':', '"']) ++ literal.toList ++ ['"'], []] := by
  have htext : ("*\"" ++ key ++ "\":\"" ++ escape literal ++ "\"*").toList =
      '*' :: ('"' :: (key.toList ++ ['"', ':', '"']) ++ (escape literal).toList ++ ['"'] ++
        '*' :: []) := by simp
  rw [htext, Assertion.pieces_star, Assertion.pieces_append_star,
    pieces_around_escape _ _ literal (plain_key hkey (by decide)) (by decide)]
  rfl

/-- The assertion for a key with some text is one piece between two stars. -/
theorem pieces_keyed_quote {key : String} (hkey : IsCleanName key) :
    Assertion.pieces ("*\"" ++ key ++ "\":\"*").toList =
      [[], '"' :: (key.toList ++ ['"', ':', '"']), []] := by
  have htext : ("*\"" ++ key ++ "\":\"*").toList =
      '*' :: ('"' :: (key.toList ++ ['"', ':', '"']) ++ '*' :: []) := by simp
  rw [htext, Assertion.pieces_star, Assertion.pieces_append_star,
    pieces_of_plain (plain_key hkey (by decide))]
  rfl

/-- **The assertion of a fragment leaf is read back**: the key in its quotes, and the literal where
the operator wants it. -/
theorem reading_wholeAssertion? {carrier key assertion : String} {op : Operator} {literal : String}
    (hkey : IsCleanName key) (hop : op ≠ .present)
    (h : Fragment.wholeAssertion? key op (escape literal) = some assertion) :
    Fragment.reading? carrier key op literal =
      some (DirectoryFilter.item carrier .equal assertion).reading := by
  have hquoted := plain_key hkey (show '*' ∉ ['"', ':'] ∧ '\\' ∉ ['"', ':'] by decide)
  cases op with
  | equal =>
      obtain rfl := Option.some.inj h
      refine congrArg some (reading_item_equal _ ?_ ?_).symm
      · simp
      · rw [pieces_keyed_value hkey]
        simp
  | contains | startsWith =>
      obtain rfl := Option.some.inj h
      have htext : ("*\"" ++ key ++ "\":*" ++ escape literal ++ "*").toList =
          '*' :: ('"' :: (key.toList ++ ['"', ':']) ++
            '*' :: ((escape literal).toList ++ '*' :: [])) := by simp
      refine congrArg some (reading_item_equal _ ?_ ?_).symm
      · simp [htext]
      · rw [htext, Assertion.pieces_star, Assertion.pieces_append_star,
          Assertion.pieces_append_star, pieces_of_plain hquoted, pieces_escape]
        simp [Assertion.pieces, unescape]
  | endsWith =>
      obtain rfl := Option.some.inj h
      have htext : ("*\"" ++ key ++ "\":*" ++ escape literal ++ "\"*").toList =
          '*' :: ('"' :: (key.toList ++ ['"', ':']) ++
            '*' :: ([] ++ (escape literal).toList ++ ['"'] ++ '*' :: [])) := by simp
      refine congrArg some (reading_item_equal _ ?_ ?_).symm
      · simp [htext]
      · rw [htext, Assertion.pieces_star, Assertion.pieces_append_star,
          Assertion.pieces_append_star, pieces_of_plain hquoted,
          pieces_around_escape _ _ literal (by decide) (by decide)]
        simp [Assertion.pieces, unescape]
  | present => exact absurd rfl hop
  | notEqual | greater | greaterOrEqual | less | lessOrEqual => cases h

/-- The assertion of a fragment leaf has no raw parenthesis. -/
theorem isBare_wholeAssertion? {key assertion : String} {op : Operator} {literal : String}
    (hkey : IsBare key.toList)
    (h : Fragment.wholeAssertion? key op (escape literal) = some assertion) :
    IsBare assertion.toList := by
  have hjoin : ∀ front middle back : String, IsBare front.toList → IsBare middle.toList →
      IsBare back.toList →
      IsBare (front ++ key ++ middle ++ escape literal ++ back).toList := by
    intro front middle back hfront hmiddle hback
    simp only [String.toList_append]
    exact (((hfront.append hkey).append hmiddle).append (isBare_escape literal)).append hback
  cases op with
  | equal =>
      obtain rfl := Option.some.inj h
      exact hjoin "*\"" "\":\"" "\"*" (by decide) (by decide) (by decide)
  | contains | startsWith =>
      obtain rfl := Option.some.inj h
      exact hjoin "*\"" "\":*" "*" (by decide) (by decide) (by decide)
  | endsWith =>
      obtain rfl := Option.some.inj h
      exact hjoin "*\"" "\":*" "\"*" (by decide) (by decide) (by decide)
  | notEqual | present | greater | greaterOrEqual | less | lessOrEqual => cases h

/-- The presence of a key is read back: the carrier is present, and one of its values holds the key
in its quotes with a text behind it. -/
theorem reading_fragment_present {carrier key : String} (hkey : IsCleanName key) :
    (Fragment.present carrier key).reading =
      .and (.present carrier) (.equal carrier ["", "\"" ++ key ++ "\":\"", ""]) := by
  refine congrArg₂ FilterReading.and (reading_present carrier) (reading_item_equal _ ?_ ?_)
  · simp
  · rw [pieces_keyed_quote hkey]
    simp

theorem isClean_fragment_present {carrier key : String} (hcarrier : IsCleanName carrier)
    (hkey : IsBare key.toList) : (Fragment.present carrier key).IsClean := by
  refine ⟨⟨hcarrier, by decide, by decide⟩, hcarrier, ?_⟩
  rw [String.toList_append, String.toList_append]
  exact (IsBare.append (by decide) hkey).append (by decide)

/-! ### Leaves, trees, texts -/

/-- The names that a target is made of are clean. -/
def Target.IsClean (target : Target) : Prop :=
  IsCleanName target.backendName ∧ ∀ key ∈ target.key?, IsCleanName key

/-- **A leaf is read back**, and has no raw parenthesis but its own. -/
theorem Target.reading?_of_leaf? {target : Target} {op : Operator} {literal : String}
    {d : DirectoryFilter} (hclean : target.IsClean)
    (h : target.leaf? op (escape literal) = some d) :
    target.reading? op literal = some d.reading ∧ d.IsClean := by
  obtain ⟨hname, hkey⟩ := hclean
  cases target with
  | plain name complex space =>
      obtain rfl := Option.some.inj h
      exact ⟨congrArg some (op.reading_toFilter_escape name literal).symm,
        op.isClean_toFilter_escape hname literal⟩
  | fragment carrier key =>
      have hkey : IsCleanName key := hkey key rfl
      by_cases hop : op = .present
      · subst hop
        obtain rfl := Option.some.inj h
        exact ⟨congrArg some (reading_fragment_present hkey).symm,
          isClean_fragment_present hname hkey.isBare⟩
      · rw [leaf?_fragment hop] at h
        obtain ⟨assertion, hassertion, rfl⟩ := Option.map_eq_some_iff.mp h
        exact ⟨reading_wholeAssertion? hkey hop hassertion, hname,
          isBare_wholeAssertion? hkey.isBare hassertion⟩

/-- The backend names of a resource are clean. -/
def Resource.HasCleanNames (resource : Resource) : Prop :=
  ∀ name ∈ resource.backendNames, IsCleanName name

/-- With clean backend names, every path leads to a clean target. -/
theorem Resource.HasCleanNames.of_resolve {resource : Resource} (hclean : resource.HasCleanNames)
    {path : String} {target : Target} (h : resource.resolve path = .ok target) :
    target.IsClean := by
  obtain ⟨hname, hkey⟩ := Resource.mem_backendNames_of_resolve h
  exact ⟨hclean _ hname, fun key hmem => hclean key (hkey key hmem)⟩

/-- **A tree is read back**: if a filter compiles, it has a reading, and that is how the tree it
compiles to is read. Induction on the filter; a grouping only changes the scope. -/
theorem Filter.reading?_of_compile {resource : Resource} (hclean : resource.HasCleanNames)
    {filter : Filter} : ∀ {scope : Option String} {d : DirectoryFilter},
      filter.compile resource .rfc4515 scope = .ok d →
        filter.reading? resource scope = some d.reading ∧ d.IsClean := by
  induction filter with
  | present path =>
      intro scope d h
      obtain ⟨target, hresolve, hleaf⟩ := (compile_present_eq_ok_iff (escape "")).mp h
      obtain ⟨hreading, hd⟩ := Target.reading?_of_leaf? (hclean.of_resolve hresolve) hleaf
      exact ⟨by simpa [reading?, hresolve, Except.toOption] using hreading, hd⟩
  | compare path token literal =>
      intro scope d h
      obtain ⟨op, target, hop, hresolve, hleaf⟩ := compile_compare_eq_ok_iff.mp h
      obtain ⟨hreading, hd⟩ := Target.reading?_of_leaf? (hclean.of_resolve hresolve) hleaf
      exact ⟨by simpa [reading?, hop, hresolve, Except.toOption] using hreading, hd⟩
  | grouping carrier operand ih =>
      intro scope d h
      exact ih (compile_grouping carrier operand ▸ h)
  | and left right ihl ihr =>
      intro scope d h
      obtain ⟨a, b, ha, hb, rfl⟩ := compile_and_eq_ok_iff.mp h
      obtain ⟨hra, hca⟩ := ihl ha
      obtain ⟨hrb, hcb⟩ := ihr hb
      exact ⟨by simp [reading?, hra, hrb, DirectoryFilter.reading], hca, hcb⟩
  | or left right ihl ihr =>
      intro scope d h
      obtain ⟨a, b, ha, hb, rfl⟩ := compile_or_eq_ok_iff.mp h
      obtain ⟨hra, hca⟩ := ihl ha
      obtain ⟨hrb, hcb⟩ := ihr hb
      exact ⟨by simp [reading?, hra, hrb, DirectoryFilter.reading], hca, hcb⟩
  | not operand ih =>
      intro scope d h
      obtain ⟨a, ha, rfl⟩ := compile_not_eq_ok_iff.mp h
      obtain ⟨hra, hca⟩ := ih ha
      exact ⟨by simp [reading?, hra, DirectoryFilter.reading], hca⟩

namespace Registry

/-- The backend names of all resource types are clean. -/
def HasCleanNames (registry : Registry) : Prop :=
  ∀ resource ∈ registry.resourceTypes, resource.HasCleanNames

instance (registry : Registry) : Decidable registry.HasCleanNames :=
  inferInstanceAs (Decidable (∀ resource ∈ registry.resourceTypes,
    ∀ name ∈ resource.backendNames, IsCleanName name))

/-- The backend names of a resource type that is found are clean. -/
theorem HasCleanNames.of_resource? {registry : Registry} (hclean : registry.HasCleanNames)
    {name : String} {resource : Resource} (h : registry.resource? name = some resource) :
    resource.HasCleanNames :=
  hclean resource (mem_of_resource? h)

/-- **A compiled filter has exactly one reading**: under clean backend names, the text that a filter
compiles to with its literals escaped reads as the source tree with its groupings erased, and in no
other way. -/
theorem reads_compile {registry : Registry} (hclean : registry.HasCleanNames) {filter : Filter}
    {name text : String} (h : registry.compile ⟨.rfc4515⟩ filter name = .ok text) :
    ∃ resource reading, registry.resource? name = some resource ∧
      filter.reading? resource none = some reading ∧
      ∀ r, Reads text.toList r ↔ r = reading := by
  obtain ⟨resource, d, hresource, hcompile, rfl⟩ := compile_eq_ok_iff.mp h
  obtain ⟨hreading, hd⟩ := Filter.reading?_of_compile (hclean.of_resource? hresource) hcompile
  exact ⟨resource, d.reading, hresource, hreading, DirectoryFilter.reads_text_iff hd⟩

/-- A filter with a grouping, a strict comparison, an empty literal, and literals made of the
characters of the grammar. -/
theorem reads_compile_team :
    ∃ registry resource reading, build [Sample.team] = .ok registry ∧
      registry.HasCleanNames ∧ registry.resource? "team" = some resource ∧
      registry.compile ⟨.rfc4515⟩
        (.and (.grouping "members" (.or (.compare "value" "eq" "a*)(\\2a")
          (.not (.compare "value" "co" "")))) (.compare "label" "gt" "&(=")) "team" =
        .ok ("&(|(member=*\"value\":\"a\\2a\\29\\28\\5c2a\"*)(!(member=*\"value\":**)))" ++
          "(&(cn>=&\\28=)(!(cn=&\\28=)))") ∧
      (.and (.grouping "members" (.or (.compare "value" "eq" "a*)(\\2a")
        (.not (.compare "value" "co" "")))) (.compare "label" "gt" "&(=") :
          Filter).reading? resource none = some reading ∧
      ∀ r, Reads ("&(|(member=*\"value\":\"a\\2a\\29\\28\\5c2a\"*)(!(member=*\"value\":**)))" ++
        "(&(cn>=&\\28=)(!(cn=&\\28=)))").toList r ↔ r = reading := by
  have hsample : ∃ registry, build [Sample.team] = .ok registry ∧ registry.HasCleanNames ∧
      registry.compile ⟨.rfc4515⟩
        (.and (.grouping "members" (.or (.compare "value" "eq" "a*)(\\2a")
          (.not (.compare "value" "co" "")))) (.compare "label" "gt" "&(=")) "team" =
        .ok ("&(|(member=*\"value\":\"a\\2a\\29\\28\\5c2a\"*)(!(member=*\"value\":**)))" ++
          "(&(cn>=&\\28=)(!(cn=&\\28=)))") := by
    apply exists_ok_of_decide
    decide +kernel
  obtain ⟨registry, hbuild, hclean, hcompile⟩ := hsample
  obtain ⟨resource, reading, hresource, hreading, hreads⟩ := reads_compile hclean hcompile
  exact ⟨registry, resource, reading, hbuild, hclean, hresource, hcompile, hreading, hreads⟩

end Registry

end ScimDirectory
