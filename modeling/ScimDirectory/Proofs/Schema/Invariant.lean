import ScimDirectory.Proofs.Rearrangement
import ScimDirectory.Proofs.Schema.Acceptance

/-!
# What holds of every registry

A registry is handed out only when its whole list of declarations was built, and what is built obeys
one invariant at each level: names are distinct among the entries that are searched together, each
field has a name without dots and shows something as its backend name, parts belong to complex
attributes, and the name attribute is one of these. Look-ups, the index of a catalog and the
resolution of paths rely on it without a check of their own.

Parts are fields, so that an attribute has no third level. The build has to refuse what would need
one: every declared path has one segment or two.

## Main results

* `AttributeDeclaration.IsAdmitted.isRegular`, `attributeOf_isRegular`: what is placed for one
  declaration is regular.
* `ResourceDeclaration.resource_isRegular`: the schema that is built is regular.
* `Registry.isRegular_of_build`: **every registry that is built is regular**, and whatever a path
  resolves to has a backend name that is not blank.
-/

namespace ScimDirectory

/-! ### The invariant -/

/-- A leaf of a schema can be named by one segment of a path and stored under a name that shows. -/
structure Field.IsRegular (field : Field) : Prop where
  name : field.name ≠ ""
  flat : '.' ∉ field.name.toList
  storageName : isBlank field.storageName = false

/-- An attribute is regular itself and in its parts, which only a complex one has. -/
structure Attribute.IsRegular (a : Attribute) : Prop where
  field : a.toField.IsRegular
  distinct : Named.Distinct a.parts
  parts : ∀ part ∈ a.parts, part.IsRegular
  complex : a.parts ≠ [] → a.isComplex = true

structure Extension.IsRegular (extension : Extension) : Prop where
  distinct : Named.Distinct extension.fields
  fields : ∀ field ∈ extension.fields, field.IsRegular

/-- **The invariant of a resource type.** -/
structure Resource.IsRegular (resource : Resource) : Prop where
  distinct : Named.Distinct resource.attributes.toList
  attributes : ∀ a ∈ resource.attributes.toList, a.IsRegular
  /-- The name attribute, if there is one, is one of the complex attributes. -/
  nameAttribute : ∀ name ∈ resource.nameAttribute,
    ∃ a ∈ resource.attributes.toList, Alike a.name name ∧ a.isComplex = true
  identifier : isBlank resource.identifier = false
  urns : Named.Distinct resource.extensions
  extensions : ∀ extension ∈ resource.extensions, extension.IsRegular

/-- **The invariant of a registry.** -/
structure Registry.IsRegular (registry : Registry) : Prop where
  distinct : Named.Distinct registry.resourceTypes
  resources : ∀ resource ∈ registry.resourceTypes, resource.IsRegular

/-! ### Attributes -/

/-- A field that can be stored is regular, if its name has no dot. -/
theorem Field.isRegular_of_isStorable {field : Field} (h : field.isStorable = true)
    (hflat : '.' ∉ field.name.toList) : field.IsRegular := by
  obtain ⟨hname, hstorage⟩ := Field.isStorable_iff.mp h
  exact ⟨hname, hflat, hstorage⟩

/-- A part is the field that its declaration stands for. -/
theorem AttributeDeclaration.eq_field_of_partOf? {declaration : AttributeDeclaration}
    {parent : String} {part : Field} (h : declaration.partOf? parent = some part) :
    part = declaration.field := by
  obtain ⟨p, name, ⟨hp, hname⟩, htext, -, rfl⟩ := partOf?_eq_some_iff.mp h
  rw [field, leaf_of_dotted hp hname htext]

/-- **What is placed for one declaration is regular.** -/
theorem AttributeDeclaration.IsAdmitted.isRegular {done : List AttributeDeclaration}
    {declaration : AttributeDeclaration} (h : declaration.IsAdmitted done) :
    declaration.field.IsRegular := by
  obtain ⟨path, hpath, -, hstorable, -⟩ := h
  refine Field.isRegular_of_isStorable hstorable ?_
  change '.' ∉ declaration.leaf.toList
  cases path with
  | simple name =>
      obtain ⟨hdot, -⟩ := AttributePath.ofChars?_eq_simple_iff.mp hpath
      rwa [leaf_of_simple hdot]
  | part parent name =>
      obtain ⟨⟨hparent, hname⟩, htext⟩ := AttributePath.ofChars?_eq_part_iff.mp hpath
      rwa [leaf_of_dotted hparent hname htext]

section Attributes

variable {declarations : List AttributeDeclaration}

/-- What is declared anywhere in the list is regular. -/
theorem field_isRegular (h : Throughout AttributeDeclaration.IsAdmitted declarations)
    {declaration : AttributeDeclaration} (hmem : declaration ∈ declarations) :
    declaration.field.IsRegular := by
  obtain ⟨_, _, -, hadmitted⟩ := h.exists_admits hmem
  exact hadmitted.isRegular

/-- The parts of an attribute have distinct names: two of one name would have alike paths. -/
theorem distinct_partsOf (h : Throughout AttributeDeclaration.IsAdmitted declarations)
    (parent : String) : Named.Distinct (partsOf declarations parent) := by
  rw [Named.Distinct, partsOf, List.pairwise_filterMap]
  refine (distinct_attributes h).imp fun {d e} hpaths x hx y hy halike => hpaths ?_
  obtain ⟨p, n, ⟨hp, -⟩, hd, hparent, rfl⟩ := AttributeDeclaration.partOf?_eq_some_iff.mp hx
  obtain ⟨q, m, ⟨hq, -⟩, he, hparent', rfl⟩ := AttributeDeclaration.partOf?_eq_some_iff.mp hy
  change Alike d.path e.path
  rw [hd, he, alike_dotted_iff hp hq]
  exact ⟨hparent.trans hparent'.symm, halike⟩

/-- An attribute with parts is the complex one that its parts were declared for. -/
theorem complex_of_partsOf_ne_nil (h : Throughout AttributeDeclaration.IsAdmitted declarations)
    {declaration : AttributeDeclaration} (hmem : declaration ∈ declarations)
    (hparts : partsOf declarations declaration.path ≠ []) : declaration.type = .complex := by
  obtain ⟨part, hpart⟩ := List.exists_mem_of_ne_nil _ hparts
  obtain ⟨d, hd, hsome⟩ := List.mem_filterMap.mp hpart
  obtain ⟨carrier, hcarrier, halike, htype⟩ := has_parent_of_partOf? h hd hsome
  obtain rfl := (distinct_attributes h).eq_of_alike hcarrier hmem halike
  exact htype

/-- **An attribute is regular in its parts as well.** -/
theorem attributeOf_isRegular (h : Throughout AttributeDeclaration.IsAdmitted declarations)
    {declaration : AttributeDeclaration} (hmem : declaration ∈ declarations) :
    (attributeOf declarations declaration).IsRegular where
  field := field_isRegular h hmem
  distinct := distinct_partsOf h declaration.path
  parts := by
    intro part hpart
    obtain ⟨d, hd, hsome⟩ := List.mem_filterMap.mp hpart
    rw [AttributeDeclaration.eq_field_of_partOf? hsome]
    exact field_isRegular h hd
  complex := fun hparts => decide_eq_true (complex_of_partsOf_ne_nil h hmem hparts)

/-- The attributes have distinct names, which are the paths without dots. -/
theorem distinct_attributesOf (h : Throughout AttributeDeclaration.IsAdmitted declarations) :
    Named.Distinct (attributesOf declarations) := by
  rw [Named.Distinct, attributesOf, List.pairwise_map]
  refine ((distinct_attributes h).filter _).imp_of_mem fun {d e} hd he hpaths halike => hpaths ?_
  have hleaf : ∀ a ∈ declarations.filter AttributeDeclaration.isSimple, a.leaf = a.path :=
    fun a ha => AttributeDeclaration.leaf_of_simple (of_decide_eq_true (List.mem_filter.mp ha).2)
  change Alike d.leaf e.leaf at halike
  rwa [hleaf d hd, hleaf e he] at halike

end Attributes

/-! ### Extensions -/

theorem FieldDeclaration.IsAdmitted.isRegular {done : List FieldDeclaration}
    {declaration : FieldDeclaration} (h : declaration.IsAdmitted done) :
    declaration.toField.IsRegular :=
  Field.isRegular_of_isStorable h.2.2 h.1

theorem ExtensionDeclaration.IsAdmitted.isRegular {done : List ExtensionDeclaration}
    {declaration : ExtensionDeclaration} (h : declaration.IsAdmitted done) :
    declaration.extension.IsRegular where
  distinct := List.pairwise_map.mpr h.distinct_fields
  fields := by
    intro field hfield
    obtain ⟨d, hd, rfl⟩ := List.mem_map.mp hfield
    obtain ⟨_, _, -, hadmitted⟩ := h.2.exists_admits hd
    exact hadmitted.isRegular

/-! ### Resource types -/

/-- **The schema that is built is regular.** -/
theorem ResourceDeclaration.resource_isRegular {declaration : ResourceDeclaration}
    (h : declaration.IsWellFormed) : declaration.resource.IsRegular where
  distinct := by
    rw [resource, Catalog.toList_ofList]
    exact distinct_attributesOf h.attributes
  attributes := by
    intro a ha
    rw [resource, Catalog.toList_ofList] at ha
    obtain ⟨d, hd, rfl⟩ := List.mem_map.mp ha
    exact attributeOf_isRegular h.attributes (List.mem_filter.mp hd).1
  nameAttribute := by
    intro name hname
    obtain ⟨d, hd, hsimple, halike, htype⟩ := h.nameAttribute name hname
    refine ⟨attributeOf declaration.attributes d, ?_, ?_, decide_eq_true htype⟩
    · rw [resource, Catalog.toList_ofList]
      exact List.mem_map_of_mem (List.mem_filter.mpr ⟨hd, hsimple⟩)
    · change Alike d.leaf name
      rwa [AttributeDeclaration.leaf_of_simple (of_decide_eq_true hsimple)]
  identifier := h.identifier
  urns := List.pairwise_map.mpr h.distinct_extensions
  extensions := by
    intro extension hextension
    obtain ⟨d, hd, rfl⟩ := List.mem_map.mp hextension
    obtain ⟨_, _, -, hadmitted⟩ := h.extensions.exists_admits hd
    exact hadmitted.isRegular

/-- No backend name of a regular resource type is blank. -/
theorem Resource.IsRegular.isBlank_eq_false {resource : Resource} (h : resource.IsRegular)
    {name : String} (hname : name ∈ resource.backendNames) : isBlank name = false := by
  simp only [backendNames, List.mem_append, List.mem_cons, List.mem_flatMap, List.mem_map] at hname
  rcases hname with (rfl | ⟨a, ha, rfl | ⟨part, hpart, rfl⟩⟩) |
    ⟨extension, hextension, field, hfield, rfl⟩
  · exact h.identifier
  · exact (h.attributes a ha).field.storageName
  · exact ((h.attributes a ha).parts part hpart).storageName
  · exact ((h.extensions extension hextension).fields field hfield).storageName

namespace Registry

section Build

variable {declarations : List ResourceDeclaration} {registry : Registry} {resource : Resource}

/-- Each resource type of a registry that was built is regular. -/
theorem resource_isRegular_of_build (h : build declarations = .ok registry)
    (hmem : resource ∈ registry.resourceTypes) : resource.IsRegular := by
  rw [resourceTypes_of_build h] at hmem
  obtain ⟨declaration, hdeclaration, rfl⟩ := List.mem_map.mp hmem
  exact declaration.resource_isRegular (isWellFormed_of_build h hdeclaration)

/-- The resource types of a registry that was built have distinct names. -/
theorem distinct_resourceTypes_of_build (h : build declarations = .ok registry) :
    Named.Distinct registry.resourceTypes := by
  rw [resourceTypes_of_build h]
  exact List.pairwise_map.mpr (distinct_of_build h)

/-- Each resource type of a registry that was built is found under its name. -/
theorem resource?_eq_some_of_mem (h : build declarations = .ok registry)
    (hmem : resource ∈ registry.resourceTypes) {name : String} (hname : Alike resource.name name) :
    registry.resource? name = some resource := by
  rw [resource?_eq_find?]
  exact (distinct_resourceTypes_of_build h).find?_eq_some_iff.mpr ⟨hmem, hname⟩

end Build

/-- Whatever a path resolves to in a regular registry has a name to filter on that is not blank, and
likewise the key inside the text of a carrier. -/
theorem IsRegular.of_resolve {registry : Registry} (h : registry.IsRegular) {path name : String}
    {target : Target} (hresolve : registry.resolve path name = .ok target) :
    isBlank target.backendName = false ∧ ∀ key ∈ target.key?, isBlank key = false := by
  obtain ⟨resource, hfind, hresource⟩ := resolve_eq_ok_iff.mp hresolve
  have hmem := mem_of_resource? hfind
  obtain ⟨hbackend, hkey⟩ := Resource.mem_backendNames_of_resolve hresource
  have hregular := h.resources resource hmem
  exact ⟨hregular.isBlank_eq_false hbackend, fun key hmem => hregular.isBlank_eq_false
    (hkey key hmem)⟩

/-- **Every registry that is built is regular**: its resource types, the attributes of each, the
parts of each attribute, the extensions and the fields of each extension have distinct names, letter
case aside; no name is empty or dotted; only complex attributes have parts; no backend name is
blank; and the name attribute is a complex attribute. No path that was declared has more than two
segments. So whatever a path resolves to has a backend name that is not blank. -/
theorem isRegular_of_build {declarations : List ResourceDeclaration} {registry : Registry}
    (h : build declarations = .ok registry) :
    registry.IsRegular ∧
      (∀ declaration ∈ declarations, ∀ a ∈ declaration.attributes, a.segments.length ≤ 2) ∧
      ∀ path name target, registry.resolve path name = .ok target →
        isBlank target.backendName = false ∧ ∀ key ∈ target.key?, isBlank key = false := by
  have hregular : registry.IsRegular := by
    obtain ⟨-, rfl⟩ := build_eq_ok_iff.mp h
    constructor
    · rw [resourceTypes, Catalog.toList_ofList]
      exact List.pairwise_map.mpr (distinct_of_build h)
    · intro resource hresource
      rw [resourceTypes, Catalog.toList_ofList] at hresource
      obtain ⟨declaration, hdeclaration, rfl⟩ := List.mem_map.mp hresource
      exact declaration.resource_isRegular (isWellFormed_of_build h hdeclaration)
  refine ⟨hregular, ?_, fun path name target hresolve => hregular.of_resolve hresolve⟩
  intro declaration hdeclaration a ha
  obtain ⟨_, _, -, path, hpath, -⟩ :=
    (isWellFormed_of_build h hdeclaration).attributes.exists_admits ha
  rw [AttributeDeclaration.segments_eq_iff.mpr hpath]
  exact path.length_segments_le

/-- The registry of two small resource types, and where one of its paths leads. -/
theorem isRegular_of_build_team :
    ∃ registry, build [Sample.team, Sample.crew] = .ok registry ∧ registry.IsRegular ∧
      registry.resolve "members.value" "team" = .ok (.fragment "member" "value") ∧
      isBlank "member" = false ∧ isBlank "value" = false := by
  have hsample : ∃ registry, build [Sample.team, Sample.crew] = .ok registry ∧
      registry.resolve "members.value" "team" = .ok (.fragment "member" "value") := by
    apply exists_ok_of_decide
    decide +kernel
  obtain ⟨registry, hbuild, hresolve⟩ := hsample
  obtain ⟨hregular, -, htargets⟩ := isRegular_of_build hbuild
  obtain ⟨hbackend, hkey⟩ := htargets "members.value" "team" _ hresolve
  exact ⟨registry, hbuild, hregular, hresolve, hbackend, hkey "value" rfl⟩

end Registry

end ScimDirectory
