import ScimDirectory.Proofs.Schema.Acceptance

/-!
# Reaching what was declared

A path is first read for a schema URN: the longest declared URN with a colon behind it that the path
begins with, and an unknown `urn:` is refused outright. That comes before any look-up, so the build
does not rule out names that run into URNs. An attribute called `urn:label` builds and cannot be
reached under that name; nor can a field `y:level` of the extension `urn:x`, where there is another
extension `urn:x:y`, which then is asked for its `level`.

Those are the only obstacles. An attribute is reached under its own path unless that begins with a
URN (`ResourceDeclaration.IsUnqualified`), and under the URN of its schema, as is an extension
field, unless another URN is at least as long (`ResourceDeclaration.IsLongest`).

## Main results

* `ResourceDeclaration.schemaOf?_of_isLongest`: the schema of a text that is written with its URN.
* `ResourceDeclaration.exists_keeps`: each declared attribute is found within the core schema.
* `Registry.resolve_declared`: **every declared path leads to what was declared for it**, as far as
  it is not read as a path of another schema.
* `Registry.shadowed_crew`: a resource type where some are.
-/

namespace ScimDirectory

/-- The text of a path behind the URN of a schema. -/
def qualified (urn path : String) : String :=
  urn ++ ":" ++ path

theorem toList_qualified (urn path : String) :
    (qualified urn path).toList = urn.toList ++ ':' :: path.toList := by
  simp [qualified]

/-- A path is qualified by the URN it is written behind. -/
theorem qualifies_qualified (urn path : String) : Qualifies urn (qualified urn path).toList := by
  have hlength : urn.toList.length = urn.length := String.length_toList
  rw [toList_qualified]
  constructor
  · rw [List.take_left' hlength, String.ofList_toList]
  · rw [← hlength, List.getElem?_append_right (Nat.le_refl _), Nat.sub_self]
    rfl

/-- What follows the URN is the path that was written behind it. -/
theorem drop_qualified (urn path : String) :
    (qualified urn path).toList.drop (urn.length + 1) = path.toList := by
  have hlength : urn.toList.length = urn.length := String.length_toList
  rw [toList_qualified, ← List.drop_drop, List.drop_left' hlength]
  rfl

namespace ResourceDeclaration

variable {declaration : ResourceDeclaration}

/-! ### Which schema a path belongs to -/

/-- The path begins neither with `urn:` nor with a declared URN and a colon. -/
def IsUnqualified (declaration : ResourceDeclaration) (path : String) : Prop :=
  ¬ Alike (String.ofList (path.toList.take 4)) "urn:" ∧
    ∀ schema ∈ declaration.schemas, ¬ Qualifies schema.1 path.toList

instance (declaration : ResourceDeclaration) (path : String) :
    Decidable (declaration.IsUnqualified path) :=
  inferInstanceAs (Decidable (_ ∧ _))

/-- Every other schema whose URN, with a colon, begins the path has a shorter one. -/
def IsLongest (declaration : ResourceDeclaration) (schema : String × Option ExtensionDeclaration)
    (path : String) : Prop :=
  ∀ other ∈ declaration.schemas, other ≠ schema → Qualifies other.1 path.toList →
    other.1.length < schema.1.length

instance (declaration : ResourceDeclaration) (schema : String × Option ExtensionDeclaration)
    (path : String) : Decidable (declaration.IsLongest schema path) :=
  inferInstanceAs (Decidable (∀ other ∈ declaration.schemas, _))

/-- A path without a URN belongs to no schema by its URN. -/
theorem schemaOf?_of_isUnqualified {path : String} (h : declaration.IsUnqualified path) :
    declaration.schemaOf? path.toList = none := by
  rw [schemaOf?, List.argmax_eq_none, List.filter_eq_nil_iff]
  intro schema hschema
  exact decide_eq_true_iff.not.mpr (h.2 schema hschema)

/-- **The schema of a path that is written behind its URN**, if that is the longest. -/
theorem schemaOf?_of_isLongest {schema : String × Option ExtensionDeclaration}
    (hmem : schema ∈ declaration.schemas) {path : String}
    (h : declaration.IsLongest schema (qualified schema.1 path)) :
    declaration.schemaOf? (qualified schema.1 path).toList = some schema := by
  have hself : schema ∈ declaration.schemas.filter fun other =>
      Qualifies other.1 (qualified schema.1 path).toList :=
    List.mem_filter.mpr ⟨hmem, decide_eq_true (qualifies_qualified schema.1 path)⟩
  have hothers : ∀ other ∈ declaration.schemas.filter fun other =>
      Qualifies other.1 (qualified schema.1 path).toList,
      other = schema ∨ other.1.length < schema.1.length := by
    intro other hother
    obtain ⟨hmember, hqualifies⟩ := List.mem_filter.mp hother
    by_cases heq : other = schema
    · exact .inl heq
    · exact .inr (h other hmember heq (of_decide_eq_true hqualifies))
  rw [schemaOf?, List.argmax_eq_some_iff]
  refine ⟨hself, fun other hother => ?_, fun other hother hle => ?_⟩
  · rcases hothers other hother with rfl | hlt
    · exact Nat.le_refl _
    · exact Nat.le_of_lt hlt
  · rcases hothers other hother with rfl | hlt
    · exact Nat.le_refl _
    · exact absurd hle (Nat.not_le.mpr hlt)

/-- A path without a URN is resolved within the core schema. -/
theorem resolve_of_isUnqualified {path : String} (h : declaration.IsUnqualified path) :
    declaration.resolve path = declaration.resolveIn path none path.toList := by
  rw [resolve, schemaOf?_of_isUnqualified h]
  exact if_neg h.1

/-- A path behind the longest URN is resolved within the schema of that. -/
theorem resolve_of_isLongest {schema : String × Option ExtensionDeclaration}
    (hmem : schema ∈ declaration.schemas) {path : String}
    (h : declaration.IsLongest schema (qualified schema.1 path)) :
    declaration.resolve (qualified schema.1 path) =
      declaration.resolveIn (qualified schema.1 path) schema.2 path.toList := by
  rw [resolve, schemaOf?_of_isLongest hmem h]
  simp only [drop_qualified]

/-! ### What is found within a schema -/

/-- The declaration has the backend **keep** an attribute at the target: the bare name attribute at
the identifier, a part of another complex attribute in the text of its carrier, and anything else in
a backend attribute of its own. -/
inductive Keeps (declaration : ResourceDeclaration) (a : AttributeDeclaration) : Target → Prop
  | identifier {name : String} (hpath : a.segments = [name])
      (hnative : declaration.isNative name = true) :
      Keeps declaration a (.plain declaration.identifier false .core)
  | attribute {name : String} (hpath : a.segments = [name])
      (hnative : declaration.isNative name = false) :
      Keeps declaration a (.plain a.backendName (a.type = .complex) .core)
  | namePart {parent name : String} (hpath : a.segments = [parent, name])
      (hnative : declaration.isNative parent = true) :
      Keeps declaration a (.plain a.backendName (a.type = .complex) .core)
  | part {parent name : String} (hpath : a.segments = [parent, name])
      (hnative : declaration.isNative parent = false) {carrier : AttributeDeclaration}
      (hcarrier : carrier ∈ declaration.attributes) (hparent : Alike carrier.path parent) :
      Keeps declaration a (.fragment carrier.backendName a.backendName)

/-- A path of at most two segments, none of them empty, leads to its target in the schema. -/
theorem resolveIn_eq_ok {schema : Option ExtensionDeclaration} {rest : List Char}
    {segments : List String} (hsegments : (rest.splitOn '.').map String.ofList = segments)
    (hdepth : segments.length ≤ 2) (hempty : "" ∉ segments) {target : Target}
    (htarget : declaration.targetIn? segments schema = some target) (path : String) :
    declaration.resolveIn path schema rest = .ok target := by
  subst hsegments
  exact resolveIn_eq_ok_iff.mpr ⟨Nat.not_lt.mpr hdepth, hempty, htarget⟩

/-- A declared attribute is found by its path. -/
theorem find?_path (h : declaration.IsWellFormed) {a : AttributeDeclaration}
    (hmem : a ∈ declaration.attributes) : Named.find? declaration.attributes a.path = some a :=
  (distinct_attributes h.attributes).find?_eq_some_iff.mpr ⟨hmem, Alike.rfl⟩

/-- The last segment of a declared path is not empty. -/
theorem leaf_ne_empty (h : declaration.IsWellFormed) {a : AttributeDeclaration}
    (hmem : a ∈ declaration.attributes) : a.leaf ≠ "" := by
  obtain ⟨_, _, -, hadmitted⟩ := h.attributes.exists_admits hmem
  exact (AttributeDeclaration.isAdmitted_iff.mp hadmitted).leaf

/-- **No segment of a declared path is empty**: the last one is the name of a field that can be
stored, and the first of two is, letter case aside, the path of an attribute declared before. -/
theorem nonempty_segments (h : declaration.IsWellFormed) {a : AttributeDeclaration}
    (hmem : a ∈ declaration.attributes) : "" ∉ a.segments := by
  have hlast := leaf_ne_empty h hmem
  obtain ⟨_, _, -, path, hpath, -⟩ := h.attributes.exists_admits hmem
  rw [AttributeDeclaration.segments_eq_iff.mpr hpath]
  cases path with
  | simple name =>
      obtain ⟨hdot, rfl⟩ := AttributePath.ofChars?_eq_simple_iff.mp hpath
      rw [AttributeDeclaration.leaf_of_simple hdot] at hlast
      simp [AttributePath.segments, hlast.symm]
  | part parent name =>
      obtain ⟨⟨hparent, hname⟩, htext⟩ := AttributePath.ofChars?_eq_part_iff.mp hpath
      rw [AttributeDeclaration.leaf_of_dotted hparent hname htext] at hlast
      have hpart := find?_path h hmem
      rw [htext] at hpart
      obtain ⟨carrier, hcarrier, -⟩ := exists_carrier_of_part h hparent hname hpart
      have halike := Named.alike_of_find? hcarrier
      have hfirst := leaf_ne_empty h (Named.mem_of_find? hcarrier)
      rw [AttributeDeclaration.leaf_of_simple (dot_not_mem_of_alike halike hparent)] at hfirst
      have hparentName : parent ≠ "" := by
        rintro rfl
        have hnil := List.map_eq_nil_iff.mp (alike_iff_map.mp halike)
        exact hfirst (String.toList_eq_nil_iff.mp hnil)
      simp [AttributePath.segments, hparentName.symm, hlast.symm]

/-- **Each declared attribute is found within the core schema**, where its declaration has the
backend keep it. -/
theorem exists_keeps (h : declaration.IsWellFormed) {a : AttributeDeclaration}
    (hmem : a ∈ declaration.attributes) :
    ∃ target, declaration.Keeps a target ∧
      ∀ path, declaration.resolveIn path none a.path.toList = .ok target := by
  have hempty := nonempty_segments h hmem
  have hfind := find?_path h hmem
  have hresolve : ∀ target, declaration.targetIn? a.segments none = some target →
      a.segments.length ≤ 2 → ∀ path, declaration.resolveIn path none a.path.toList = .ok target :=
    fun target htarget hdepth path => resolveIn_eq_ok rfl hdepth hempty htarget path
  obtain ⟨_, _, -, attributePath, hpath, -⟩ := h.attributes.exists_admits hmem
  have hsegments := AttributeDeclaration.segments_eq_iff.mpr hpath
  have hdepth : a.segments.length ≤ 2 := hsegments ▸ attributePath.length_segments_le
  cases attributePath with
  | simple name =>
      obtain ⟨-, rfl⟩ := AttributePath.ofChars?_eq_simple_iff.mp hpath
      cases hnative : declaration.isNative a.path with
      | true =>
          refine ⟨_, .identifier hsegments hnative, hresolve _ ?_ hdepth⟩
          rw [hsegments, AttributePath.segments, targetIn?, coreTarget?, if_pos hnative]
      | false =>
          refine ⟨_, .attribute hsegments hnative, hresolve _ ?_ hdepth⟩
          rw [hsegments, AttributePath.segments, targetIn?, coreTarget?,
            if_neg (by simp [hnative]), hfind]
          rfl
  | part parent name =>
      obtain ⟨⟨hparent, hname⟩, htext⟩ := AttributePath.ofChars?_eq_part_iff.mp hpath
      rw [htext] at hfind
      obtain ⟨carrier, hcarrier, -⟩ := exists_carrier_of_part h hparent hname hfind
      cases hnative : declaration.isNative parent with
      | true =>
          refine ⟨_, .namePart hsegments hnative, hresolve _ ?_ hdepth⟩
          rw [hsegments, AttributePath.segments, targetIn?, coreTarget?, hfind, Option.bind_some,
            if_pos hnative]
      | false =>
          refine ⟨_, .part hsegments hnative (Named.mem_of_find? hcarrier)
            (Named.alike_of_find? hcarrier), hresolve _ ?_ hdepth⟩
          rw [hsegments, AttributePath.segments, targetIn?, coreTarget?, hfind, Option.bind_some,
            if_neg (by simp [hnative]), hcarrier]
          rfl

/-- **Each declared field is found within its extension.** -/
theorem resolveIn_field (h : declaration.IsWellFormed) {extension : ExtensionDeclaration}
    (hextension : extension ∈ declaration.extensions) {field : FieldDeclaration}
    (hfield : field ∈ extension.fields) (path : String) :
    declaration.resolveIn path (some extension) field.name.toList =
      .ok (.plain field.backendName false (.extension extension.urn)) := by
  have hfind := (h.distinct_fields hextension).find?_eq_some_iff.mpr ⟨hfield, Alike.rfl⟩
  change Named.find? extension.fields field.name = some field at hfind
  obtain ⟨_, _, -, -, hfields⟩ := h.extensions.exists_admits hextension
  have hvalid := (ExtensionDeclaration.throughout_isAdmitted_iff.mp hfields).fields field hfield
  have hsegments : (field.name.toList.splitOn '.').map String.ofList = [field.name] := by
    rw [List.splitOn_eq_singleton hvalid.flat, List.map_singleton, String.ofList_toList]
  refine resolveIn_eq_ok hsegments (by simp) (by simpa using hvalid.name.symm) ?_ path
  rw [targetIn?, ExtensionDeclaration.target?, hfind]
  rfl

end ResourceDeclaration

namespace Registry

variable {declarations : List ResourceDeclaration} {registry : Registry}

/-- A registry resolves a path for a declared resource type as the declaration does. -/
theorem resolve_eq_of_build (h : build declarations = .ok registry)
    {declaration : ResourceDeclaration} (hmem : declaration ∈ declarations) (path : String) :
    registry.resolve path declaration.name = declaration.resolve path := by
  obtain ⟨hfind, hformed⟩ := resource?_of_build h hmem
  rw [Registry.resolve, require_eq_ok_iff.mpr hfind]
  exact declaration.resolve_resource hformed path

/-- **Every declared path leads to what was declared for it**, unless it is read as a path of
another schema. An attribute resolves, in the core schema, to where its declaration has the backend
keep it: under its own path, if that does not begin with a URN, and under that path behind the URN
of the core schema, if no other URN that begins the text is as long. A field of an extension
resolves, in that extension, to the backend name that it declares: under its name behind the URN of
the extension, on the same condition. -/
theorem resolve_declared (h : build declarations = .ok registry)
    {declaration : ResourceDeclaration} (hmem : declaration ∈ declarations) :
    (∀ a ∈ declaration.attributes, ∃ target, declaration.Keeps a target ∧
      (declaration.IsUnqualified a.path →
        registry.resolve a.path declaration.name = .ok target) ∧
      (declaration.IsLongest (declaration.schema, none) (qualified declaration.schema a.path) →
        registry.resolve (qualified declaration.schema a.path) declaration.name = .ok target)) ∧
    ∀ extension ∈ declaration.extensions, ∀ field ∈ extension.fields,
      declaration.IsLongest (extension.urn, some extension) (qualified extension.urn field.name) →
        registry.resolve (qualified extension.urn field.name) declaration.name =
          .ok (.plain field.backendName false (.extension extension.urn)) := by
  have hformed := isWellFormed_of_build h hmem
  constructor
  · intro a ha
    obtain ⟨target, hkeeps, hresolve⟩ := ResourceDeclaration.exists_keeps hformed ha
    refine ⟨target, hkeeps, fun hunqualified => ?_, fun hlongest => ?_⟩
    · rw [resolve_eq_of_build h hmem,
        ResourceDeclaration.resolve_of_isUnqualified hunqualified]
      exact hresolve a.path
    · have hcore : (declaration.schema, none) ∈ declaration.schemas := List.mem_cons_self
      rw [resolve_eq_of_build h hmem,
        ResourceDeclaration.resolve_of_isLongest hcore hlongest]
      exact hresolve _
  · intro extension hextension field hfield hlongest
    have hschema : (extension.urn, some extension) ∈ declaration.schemas :=
      List.mem_cons_of_mem _ (List.mem_map_of_mem hextension)
    rw [resolve_eq_of_build h hmem,
      ResourceDeclaration.resolve_of_isLongest hschema hlongest]
    exact ResourceDeclaration.resolveIn_field hformed hextension hfield _

/-- The attributes and the fields of a small resource type. One of its URNs begins another one, but
no path that is declared runs into that. -/
theorem resolve_declared_team :
    ∃ registry, build [Sample.team] = .ok registry ∧
      (∃ target, Sample.team.Keeps { path := "members.value" } target ∧
        registry.resolve "members.value" "team" = .ok target ∧
        registry.resolve "urn:team:members.value" "team" = .ok target) ∧
      registry.resolve "urn:team:x:level" "team" =
        .ok (.plain "level" false (.extension "urn:team:x")) := by
  have hsample : ∃ registry, build [Sample.team] = .ok registry :=
    exists_ok_of_isOk (by decide +kernel)
  obtain ⟨registry, hbuild⟩ := hsample
  obtain ⟨hattributes, hfields⟩ := resolve_declared hbuild (List.mem_singleton_self _)
  obtain ⟨target, hkeeps, hunqualified, hlongest⟩ :=
    hattributes { path := "members.value" } (by simp [Sample.team])
  have hfield := hfields _ (List.mem_singleton_self _) { name := "level" }
    (List.mem_singleton_self _) (by decide +kernel)
  exact ⟨registry, hbuild, ⟨target, hkeeps, hunqualified (by decide +kernel),
    hlongest (by decide +kernel)⟩, hfield⟩

/-- **Some names are read as paths of another schema**: an attribute named like a path under an
unknown URN is refused, one named like a qualified path leads to another attribute, and a field
whose name begins with the end of a longer URN leads to a field of that extension. -/
theorem shadowed_crew :
    ∃ registry, build [Sample.crew] = .ok registry ∧
      (∃ a ∈ Sample.crew.attributes, a.backendName = "urn:label" ∧
        registry.resolve a.path "crew" = .error (.unknownAttribute a.path "crew")) ∧
      (∃ a ∈ Sample.crew.attributes, a.backendName = "urn:crew:label" ∧
        registry.resolve a.path "crew" = .ok (.plain "cn" false .core)) ∧
      ∃ extension ∈ Sample.crew.extensions, ∃ field ∈ extension.fields,
        field.backendName = "y:level" ∧
        registry.resolve (qualified extension.urn field.name) "crew" =
          .ok (.plain "rank" false (.extension "urn:x:y")) := by
  apply exists_ok_of_decide
  decide +kernel

end Registry

end ScimDirectory
