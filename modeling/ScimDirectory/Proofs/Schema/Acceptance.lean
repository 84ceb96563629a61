import ScimDirectory.Proofs.Schema.DeclaredResolution

/-!
# Which declarations are accepted

A registry is built entry by entry, and each entry is looked up in the tree that the entries before
it have made. What a schema author needs to know can be said without that tree: rules on the flat
lists of a declaration, each rule about one entry and at most the entries before it. This module
states the rules (`ResourceDeclaration.IsValid`) and shows that they are exactly what the build asks
for.

Paths are counted in segments, which are what stands between their dots. An attribute, a part or a
field is stored under the backend name that its declaration gives, or else under its last segment or
its name.

## Main results

* `AttributeDeclaration.isAdmitted_iff`: the rules for an attribute among those before it.
* `ResourceDeclaration.isWellFormed_iff`: the rules for a resource type.
* `Registry.exists_build_iff`: **a list of declarations builds a registry exactly when its resource
  types have distinct names and each of them follows the rules**.
-/

namespace ScimDirectory

/-! ### The rules -/

namespace AttributeDeclaration

/-- What stands between the dots of the path. -/
def segments (declaration : AttributeDeclaration) : List String :=
  (declaration.path.toList.splitOn '.').map String.ofList

/-- The rules for an attribute that is declared behind those in `earlier`. -/
structure IsValidAfter (earlier : List AttributeDeclaration) (declaration : AttributeDeclaration) :
    Prop where
  /-- The path has one segment or two. -/
  depth : declaration.segments.length = 1 ∨ declaration.segments.length = 2
  /-- The last segment is not empty. -/
  leaf : declaration.leaf ≠ ""
  /-- The backend name shows something. -/
  backendName : isBlank declaration.backendName = false
  /-- The path was not declared before. -/
  fresh : ∀ before ∈ earlier, ¬ Alike before.path declaration.path
  /-- A part comes after the complex attribute that it is a part of. -/
  parent : ∀ parent name, declaration.segments = [parent, name] →
    ∃ before ∈ earlier, before.segments.length = 1 ∧ Alike before.path parent ∧
      before.type = .complex

end AttributeDeclaration

/-- The rules for a field of an extension on its own. -/
structure FieldDeclaration.IsValid (declaration : FieldDeclaration) : Prop where
  name : declaration.name ≠ ""
  /-- The name has no dot in it. -/
  flat : '.' ∉ declaration.name.toList
  /-- The backend name shows something. -/
  backendName : isBlank declaration.backendName = false

/-- The rules for an extension on its own: its fields have distinct names and follow the rules. -/
structure ExtensionDeclaration.IsValid (declaration : ExtensionDeclaration) : Prop where
  distinct : Named.Distinct declaration.fields
  fields : ∀ field ∈ declaration.fields, field.IsValid

/-- **The rules for a resource type.** -/
structure ResourceDeclaration.IsValid (declaration : ResourceDeclaration) : Prop where
  /-- Each attribute follows the rules behind those before it. -/
  attributes : Throughout AttributeDeclaration.IsValidAfter declaration.attributes
  /-- The name attribute, if there is one, is one of the complex attributes. -/
  nameAttribute : ∀ name ∈ declaration.nameAttribute, ∃ a ∈ declaration.attributes,
    a.segments.length = 1 ∧ Alike a.path name ∧ a.type = .complex
  /-- The backend name of the identifier shows something. -/
  identifier : isBlank declaration.identifier = false
  /-- No two extensions have the same URN, letter case aside. -/
  urns : Named.Distinct declaration.extensions
  extensions : ∀ extension ∈ declaration.extensions, extension.IsValid

/-- Entries that need a new name each, and have to pass a check of their own, have distinct names
and all pass the check. -/
theorem Named.throughout_iff_distinct {α : Type} [Named α] {P : α → Prop} {entries : List α} :
    Throughout (fun done entry =>
        (∀ earlier ∈ done, ¬ Alike (nameOf earlier) (nameOf entry)) ∧ P entry) entries ↔
      Distinct entries ∧ ∀ entry ∈ entries, P entry := by
  rw [throughout_and_iff, throughout_forall_iff_pairwise, Distinct]

/-! ### Attributes -/

/-- A field can be stored when both its name and its backend name show something. -/
theorem Field.isStorable_iff {field : Field} :
    field.isStorable = true ↔ field.name ≠ "" ∧ isBlank field.storageName = false := by
  rw [isStorable, Bool.and_eq_true, Bool.not_eq_true', Bool.not_eq_true', ne_eq,
    ← String.isEmpty_iff, Bool.not_eq_true]

namespace AttributeDeclaration

variable {declaration : AttributeDeclaration}

/-- The segments of a declared path are those of the path that is read from it. -/
theorem segments_eq_iff {path : AttributePath} :
    declaration.segments = path.segments ↔
      AttributePath.ofChars? declaration.path.toList = some path :=
  AttributePath.ofChars?_eq_some_iff_segments.symm

/-- A path has one segment or two exactly when it can be read. -/
theorem exists_ofChars?_iff :
    (∃ path, AttributePath.ofChars? declaration.path.toList = some path) ↔
      declaration.segments.length = 1 ∨ declaration.segments.length = 2 := by
  constructor
  · rintro ⟨path, hpath⟩
    rw [segments_eq_iff.mpr hpath]
    cases path with
    | simple name => exact .inl rfl
    | part parent name => exact .inr rfl
  · intro hdepth
    refine Option.isSome_iff_exists.mp (Option.ne_none_iff_isSome.mp fun hnone => ?_)
    have hlong := AttributePath.two_lt_of_ofChars?_eq_none hnone
    rw [segments, List.length_map] at hdepth
    omega

/-- A path has one segment exactly when there is no dot in it. -/
theorem length_segments_eq_one_iff :
    declaration.segments.length = 1 ↔ '.' ∉ declaration.path.toList := by
  constructor
  · intro h
    obtain ⟨name, hname⟩ := List.length_eq_one_iff.mp h
    have hpath : AttributePath.ofChars? declaration.path.toList = some (.simple name) :=
      segments_eq_iff.mp hname
    exact (AttributePath.ofChars?_eq_simple_iff.mp hpath).1
  · intro h
    have hpath := AttributePath.ofChars?_eq_simple_iff.mpr ⟨h, rfl⟩
    rw [segments_eq_iff.mpr hpath]
    rfl

/-- **An attribute can be placed** exactly when it follows the rules. -/
theorem isAdmitted_iff {done : List AttributeDeclaration} :
    declaration.IsAdmitted done ↔ declaration.IsValidAfter done := by
  have hstorable : declaration.field.isStorable = true ↔
      declaration.leaf ≠ "" ∧ isBlank declaration.backendName = false := Field.isStorable_iff
  constructor
  · rintro ⟨path, hpath, hfresh, hfield, hparent⟩
    obtain ⟨hleaf, hbackend⟩ := hstorable.mp hfield
    refine ⟨exists_ofChars?_iff.mp ⟨path, hpath⟩, hleaf, hbackend, hfresh, ?_⟩
    intro parent name hsegments
    have hpart : AttributePath.ofChars? declaration.path.toList = some (.part parent name) :=
      segments_eq_iff.mp hsegments
    obtain ⟨before, hmem, halike, htype⟩ :=
      hparent parent name (Option.some.inj (hpath.symm.trans hpart))
    have hdot := (AttributePath.ofChars?_eq_part_iff.mp hpart).1.1
    exact ⟨before, hmem, length_segments_eq_one_iff.mpr (dot_not_mem_of_alike halike hdot),
      halike, htype⟩
  · intro h
    obtain ⟨path, hpath⟩ := exists_ofChars?_iff.mpr h.depth
    refine ⟨path, hpath, h.fresh, hstorable.mpr ⟨h.leaf, h.backendName⟩, ?_⟩
    rintro parent name rfl
    obtain ⟨before, hmem, -, halike, htype⟩ :=
      h.parent parent name (segments_eq_iff.mpr hpath)
    exact ⟨before, hmem, halike, htype⟩

end AttributeDeclaration

/-! ### Extensions -/

/-- The fields of an extension can be placed one behind the other exactly when the extension
follows the rules. -/
theorem ExtensionDeclaration.throughout_isAdmitted_iff {declaration : ExtensionDeclaration} :
    Throughout FieldDeclaration.IsAdmitted declaration.fields ↔ declaration.IsValid := by
  have hadmitted : ∀ (done : List FieldDeclaration) (field : FieldDeclaration),
      field.IsAdmitted done ↔
        (∀ earlier ∈ done, ¬ Alike earlier.name field.name) ∧ field.IsValid := by
    intro done field
    rw [FieldDeclaration.IsAdmitted, Field.isStorable_iff]
    constructor
    · rintro ⟨hflat, hfresh, hname, hbackend⟩
      exact ⟨hfresh, hname, hflat, hbackend⟩
    · rintro ⟨hfresh, hname, hflat, hbackend⟩
      exact ⟨hflat, hfresh, hname, hbackend⟩
  refine ((throughout_congr hadmitted).trans Named.throughout_iff_distinct).trans ?_
  constructor
  · rintro ⟨hdistinct, hfields⟩
    exact ⟨hdistinct, hfields⟩
  · rintro ⟨hdistinct, hfields⟩
    exact ⟨hdistinct, hfields⟩

/-! ### Resource types -/

namespace ResourceDeclaration

/-- **A schema can be built** exactly when its declaration follows the rules. -/
theorem isWellFormed_iff {declaration : ResourceDeclaration} :
    declaration.IsWellFormed ↔ declaration.IsValid := by
  have hattributes : Throughout AttributeDeclaration.IsAdmitted declaration.attributes ↔
      Throughout AttributeDeclaration.IsValidAfter declaration.attributes :=
    throughout_congr fun _ _ => AttributeDeclaration.isAdmitted_iff
  have hsimple : ∀ a : AttributeDeclaration, a.isSimple = true ↔ a.segments.length = 1 := fun a =>
    decide_eq_true_iff.trans AttributeDeclaration.length_segments_eq_one_iff.symm
  have hadmitted : ∀ (done : List ExtensionDeclaration) (extension : ExtensionDeclaration),
      extension.IsAdmitted done ↔
        (∀ earlier ∈ done, ¬ Alike earlier.urn extension.urn) ∧ extension.IsValid := fun _ _ =>
    and_congr_right fun _ => ExtensionDeclaration.throughout_isAdmitted_iff
  have hextensions : Throughout ExtensionDeclaration.IsAdmitted declaration.extensions ↔
      Named.Distinct declaration.extensions ∧
        ∀ extension ∈ declaration.extensions, extension.IsValid :=
    (throughout_congr hadmitted).trans Named.throughout_iff_distinct
  constructor
  · rintro ⟨hattr, hname, hidentifier, hext⟩
    obtain ⟨hurns, hvalid⟩ := hextensions.mp hext
    simp only [hsimple] at hname
    exact ⟨hattributes.mp hattr, hname, hidentifier, hurns, hvalid⟩
  · rintro ⟨hattr, hname, hidentifier, hurns, hvalid⟩
    simp only [← hsimple] at hname
    exact ⟨hattributes.mpr hattr, hname, hidentifier, hextensions.mpr ⟨hurns, hvalid⟩⟩

end ResourceDeclaration

namespace Registry

/-- **A list of declarations builds a registry** exactly when its resource types have distinct
names, letter case aside, and each of them follows the rules. -/
theorem exists_build_iff {declarations : List ResourceDeclaration} :
    (∃ registry, build declarations = .ok registry) ↔
      Named.Distinct declarations ∧ ∀ declaration ∈ declarations, declaration.IsValid := by
  have hadmitted : Throughout ResourceDeclaration.IsAdmitted declarations ↔
      Named.Distinct declarations ∧ ∀ declaration ∈ declarations, declaration.IsWellFormed :=
    Named.throughout_iff_distinct
  simp only [build_eq_ok_iff, exists_and_left, exists_eq', and_true, hadmitted,
    ResourceDeclaration.isWellFormed_iff]

/-- The order of the declarations does not matter to whether a registry is built. -/
theorem exists_build_of_perm {xs ys : List ResourceDeclaration} (h : xs.Perm ys)
    {registry : Registry} (hbuild : build xs = .ok registry) :
    ∃ registry, build ys = .ok registry := by
  have hdistinct : Named.Distinct ys :=
    h.pairwise (distinct_of_build hbuild) fun hab halike => hab halike.symm
  have hformed : ∀ declaration ∈ ys, declaration.IsWellFormed := fun declaration hmem =>
    isWellFormed_of_build hbuild (h.mem_iff.mpr hmem)
  exact ⟨_, build_eq_ok_iff.mpr ⟨Named.throughout_iff_distinct.mpr ⟨hdistinct, hformed⟩, rfl⟩⟩

end Registry

end ScimDirectory
