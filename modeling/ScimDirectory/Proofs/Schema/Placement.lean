import ScimDirectory.Proofs.Schema.Invariant

/-!
# Where declarations end up

A declaration lists attributes and parts flat, and the parts of different attributes may be mixed in
it. The build sorts them into a tree by names that are compared without regard to letter case. This
module says what is where in the tree, on the flat list alone: the attributes are the declared paths
of one segment, the parts of an attribute are the declared paths of two segments whose first one is
its name, both in the order of their declaration, and every declared path ends up at one place.

## Main results

* `partsOf_eq_map_filter`: the parts of an attribute are a part of the flat list.
* `ResourceDeclaration.existsUnique_parent`: a declared part belongs to exactly one attribute.
* `Registry.resourceTypes_isDeclaredBy`: **what is built is what was declared**, in that order.
-/

namespace ScimDirectory

/-! ### Entries and their declarations -/

/-- The field is the declared attribute or part, under the last segment of its path. -/
structure Field.IsDeclaredBy (field : Field) (declaration : AttributeDeclaration) : Prop where
  name : field.name = declaration.leaf
  storageName : field.storageName = declaration.backendName
  type : field.type = declaration.type
  multiValued : field.multiValued = declaration.multiValued
  description : field.description = declaration.description

/-- The field is the declared field of an extension. -/
structure Field.IsExtensionField (field : Field) (declaration : FieldDeclaration) : Prop where
  name : field.name = declaration.name
  storageName : field.storageName = declaration.backendName
  type : field.type = declaration.type
  multiValued : field.multiValued = declaration.multiValued
  description : field.description = declaration.description

/-- The path has two segments, the first of which is the name of the attribute `parent`. -/
def AttributeDeclaration.isPartOf (parent : String) (declaration : AttributeDeclaration) : Bool :=
  match declaration.segments with
  | [p, _] => Alike p parent
  | _ => false

/-- The attribute is the declared one, and its parts are those declared for it, in their order. -/
structure Attribute.IsDeclaredBy (a : Attribute) (declarations : List AttributeDeclaration)
    (declaration : AttributeDeclaration) : Prop where
  field : a.toField.IsDeclaredBy declaration
  parts : List.Forall₂ Field.IsDeclaredBy a.parts
    (declarations.filter (AttributeDeclaration.isPartOf a.name))

/-- The extension is the declared one, with its fields in their order. -/
structure Extension.IsDeclaredBy (extension : Extension) (declaration : ExtensionDeclaration) :
    Prop where
  urn : extension.urn = declaration.urn
  name : extension.name = declaration.name
  description : extension.description = declaration.description
  fields : List.Forall₂ Field.IsExtensionField extension.fields declaration.fields

/-- **The resource type is what was declared**: every entry at its place, and nothing else. -/
structure Resource.IsDeclaredBy (resource : Resource) (declaration : ResourceDeclaration) :
    Prop where
  name : resource.name = declaration.name
  schema : resource.schema = declaration.schema
  description : resource.description = declaration.description
  endpoint : resource.endpoint = declaration.endpoint
  nameAttribute : resource.nameAttribute = declaration.nameAttribute
  identifier : resource.identifier = declaration.identifier
  /-- The attributes are the declared paths of one segment. -/
  attributes : List.Forall₂ (fun a d => a.IsDeclaredBy declaration.attributes d)
    resource.attributes.toList (declaration.attributes.filter fun d => d.segments.length = 1)
  /-- Any other declared path is that of a part, and belongs to one attribute. -/
  parts : ∀ d ∈ declaration.attributes, d.segments.length ≠ 1 →
    ∃! a, a ∈ resource.attributes.toList ∧ d.isPartOf a.name = true
  extensions : List.Forall₂ Extension.IsDeclaredBy resource.extensions declaration.extensions

/-! ### Attributes and parts -/

namespace AttributeDeclaration

variable {declaration : AttributeDeclaration}

/-- What is placed for a declaration is what was declared. -/
theorem field_isDeclaredBy (declaration : AttributeDeclaration) :
    declaration.field.IsDeclaredBy declaration :=
  ⟨rfl, rfl, rfl, rfl, rfl⟩

theorem isPartOf_of_ofChars? {parent p name : String}
    (h : AttributePath.ofChars? declaration.path.toList = some (.part p name)) :
    declaration.isPartOf parent = decide (Alike p parent) := by
  rw [isPartOf, segments_eq_iff.mpr h, AttributePath.segments]

/-- The part that is declared for an attribute, if any, is the field of the declaration. -/
theorem partOf?_eq (parent : String) (declaration : AttributeDeclaration) :
    declaration.partOf? parent =
      if declaration.isPartOf parent then some declaration.field else none := by
  by_cases h : ∃ p name, AttributePath.ofChars? declaration.path.toList = some (.part p name)
  · obtain ⟨p, name, hpath⟩ := h
    obtain ⟨⟨hp, hname⟩, htext⟩ := AttributePath.ofChars?_eq_part_iff.mp hpath
    simp only [partOf?, hpath, isPartOf_of_ofChars? hpath, decide_eq_true_iff, field,
      leaf_of_dotted hp hname htext]
  · have hpart : declaration.isPartOf parent = false := by
      rw [isPartOf]
      split
      · next p name hsegments =>
          exact absurd ⟨p, name, segments_eq_iff.mp hsegments⟩ h
      · rfl
    rw [hpart, if_neg Bool.false_ne_true, partOf?]
    split
    · next p name hpath => exact absurd ⟨p, name, hpath⟩ h
    · rfl

end AttributeDeclaration

/-- **The parts of an attribute** are those declared for it, in the order of their declaration. -/
theorem partsOf_eq_map_filter (declarations : List AttributeDeclaration) (parent : String) :
    partsOf declarations parent =
      (declarations.filter (AttributeDeclaration.isPartOf parent)).map
        AttributeDeclaration.field := by
  rw [partsOf, funext (AttributeDeclaration.partOf?_eq parent), ← List.filterMap_eq_map,
    List.filterMap_filter]
  rfl

/-- An attribute of the tree is the declared one, with the parts declared for it. -/
theorem attributeOf_isDeclaredBy (declarations : List AttributeDeclaration)
    {declaration : AttributeDeclaration} (hdot : '.' ∉ declaration.path.toList) :
    (attributeOf declarations declaration).IsDeclaredBy declarations declaration where
  field := declaration.field_isDeclaredBy
  parts := by
    have hname : (attributeOf declarations declaration).name = declaration.path :=
      AttributeDeclaration.leaf_of_simple hdot
    rw [hname, attributeOf, partsOf_eq_map_filter, List.forall₂_map_left_iff]
    exact List.forall₂_same.mpr fun d _ => d.field_isDeclaredBy

/-- The declared paths of one segment are those without dots. -/
theorem filter_length_segments (declarations : List AttributeDeclaration) :
    (declarations.filter fun d => d.segments.length = 1) =
      declarations.filter AttributeDeclaration.isSimple :=
  List.filter_congr fun _ _ =>
    decide_eq_decide.mpr AttributeDeclaration.length_segments_eq_one_iff

/-! ### Resource types -/

theorem ExtensionDeclaration.extension_isDeclaredBy (declaration : ExtensionDeclaration) :
    declaration.extension.IsDeclaredBy declaration where
  urn := rfl
  name := rfl
  description := rfl
  fields := List.forall₂_map_left_iff.mpr
    (List.forall₂_same.mpr fun _ _ => ⟨rfl, rfl, rfl, rfl, rfl⟩)

namespace ResourceDeclaration

variable {declaration : ResourceDeclaration}

/-- **A declared part belongs to exactly one attribute**: the complex one that was declared before
it under its first segment, of which there is no second one. -/
theorem existsUnique_parent (h : declaration.IsWellFormed) {d : AttributeDeclaration}
    (hmem : d ∈ declaration.attributes) (hlength : d.segments.length ≠ 1) :
    ∃! a, a ∈ attributesOf declaration.attributes ∧ d.isPartOf a.name = true := by
  obtain ⟨done, rest, heq, path, hpath, -, -, hparent⟩ := h.attributes.exists_admits hmem
  cases path with
  | simple name =>
      rw [AttributeDeclaration.segments_eq_iff.mpr hpath] at hlength
      exact absurd rfl hlength
  | part p name =>
      obtain ⟨carrier, hcarrier, halike, -⟩ := hparent p name rfl
      obtain ⟨⟨hp, -⟩, -⟩ := AttributePath.ofChars?_eq_part_iff.mp hpath
      have hdot := dot_not_mem_of_alike halike hp
      have hdeclared : carrier ∈ declaration.attributes := heq ▸ List.mem_append_left _ hcarrier
      have hname : (attributeOf declaration.attributes carrier).name = carrier.path :=
        AttributeDeclaration.leaf_of_simple hdot
      have hplaced : attributeOf declaration.attributes carrier ∈
          attributesOf declaration.attributes :=
        List.mem_map_of_mem (List.mem_filter.mpr ⟨hdeclared, decide_eq_true hdot⟩)
      refine ⟨_, ⟨hplaced, ?_⟩, ?_⟩
      · rw [AttributeDeclaration.isPartOf_of_ofChars? hpath, hname]
        exact decide_eq_true halike.symm
      · rintro a ⟨ha, hpart⟩
        rw [AttributeDeclaration.isPartOf_of_ofChars? hpath] at hpart
        have hsame : Alike a.name (attributeOf declaration.attributes carrier).name := by
          rw [hname]
          exact (of_decide_eq_true hpart).symm.trans halike.symm
        exact (distinct_attributesOf h.attributes).eq_of_alike ha hplaced hsame

/-- The schema that is built is what was declared. -/
theorem resource_isDeclaredBy (h : declaration.IsWellFormed) :
    declaration.resource.IsDeclaredBy declaration where
  name := rfl
  schema := rfl
  description := rfl
  endpoint := rfl
  nameAttribute := rfl
  identifier := rfl
  attributes := by
    rw [resource, Catalog.toList_ofList, attributesOf, filter_length_segments,
      List.forall₂_map_left_iff]
    refine List.forall₂_same.mpr fun d hd => ?_
    exact attributeOf_isDeclaredBy _ (of_decide_eq_true (List.mem_filter.mp hd).2)
  parts := by
    intro d hd hlength
    rw [resource, Catalog.toList_ofList]
    exact existsUnique_parent h hd hlength
  extensions := List.forall₂_map_left_iff.mpr
    (List.forall₂_same.mpr fun extension _ => extension.extension_isDeclaredBy)

end ResourceDeclaration

namespace Registry

/-- **What is built is what was declared**: the resource types come in the order of their
declarations, and each of them holds every entry of its declaration at its place. -/
theorem resourceTypes_isDeclaredBy {declarations : List ResourceDeclaration} {registry : Registry}
    (h : build declarations = .ok registry) :
    List.Forall₂ Resource.IsDeclaredBy registry.resourceTypes declarations := by
  rw [resourceTypes_of_build h, List.forall₂_map_left_iff]
  exact List.forall₂_same.mpr fun declaration hmem =>
    declaration.resource_isDeclaredBy (isWellFormed_of_build h hmem)

end Registry

end ScimDirectory
