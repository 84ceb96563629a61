import ScimDirectory.Discovery.Document
import ScimDirectory.Proofs.Schema.Placement

/-!
# Discovery publishes what was declared

What a client finds in the documents of a service is said here on the declarations alone: an entry
for each declared path of one segment, below it an entry for each path that leads through its name,
and a document for each declared URN. Backend names, the name attribute and the identifier are not
published. Discovery renders these documents from the tree that was built; since the tree holds
every declaration at its place, both come out the same.

## Main results

* `Attribute.IsDeclaredBy.toSchemaAttribute_eq`: the entry of an attribute with its parts.
* `Registry.schemas_of_build`, `Registry.resourceTypeDocuments_of_build`: the documents of a
  registry are those of its declarations.
* `Registry.published_of_build`: **what is built and published is what was declared.**
-/

namespace ScimDirectory

/-! ### The documents of a declaration -/

namespace AttributeDeclaration

/-- The entry of a declared attribute or part, under the last segment of its path. -/
def entry (declaration : AttributeDeclaration) (parts : Option (List SchemaAttribute)) :
    SchemaAttribute where
  name := declaration.leaf
  type := declaration.type.name
  multiValued := declaration.multiValued
  description := declaration.description
  parts := parts

/-- The entry of a declared part. There is nothing below it, which a complex one says by an empty
list. -/
def partEntry (declaration : AttributeDeclaration) : SchemaAttribute :=
  declaration.entry (if declaration.type = .complex then some [] else none)

/-- The entry of a declared attribute: a complex one lists the parts that are declared for it. -/
def attributeEntry (declarations : List AttributeDeclaration) (declaration : AttributeDeclaration) :
    SchemaAttribute :=
  declaration.entry
    (if declaration.type = .complex then
      some ((declarations.filter (isPartOf declaration.leaf)).map partEntry)
    else none)

end AttributeDeclaration

/-- The entry of a declared extension field, which never lists parts. -/
def FieldDeclaration.entry (declaration : FieldDeclaration) : SchemaAttribute where
  name := declaration.name
  type := declaration.type.name
  multiValued := declaration.multiValued
  description := declaration.description
  parts := none

/-- The document of a declared extension. -/
def ExtensionDeclaration.document (config : DiscoveryConfig) (declaration : ExtensionDeclaration) :
    SchemaDocument where
  schemas := [schemaSchema]
  id := declaration.urn
  name := declaration.name
  description := declaration.description
  attributes := declaration.fields.map FieldDeclaration.entry
  metadata := ⟨"Schema", config.location "Schemas" declaration.urn⟩

namespace ResourceDeclaration

/-- The document of the core schema of a declared resource type. -/
def coreDocument (config : DiscoveryConfig) (declaration : ResourceDeclaration) :
    SchemaDocument where
  schemas := [schemaSchema]
  id := declaration.schema
  name := declaration.name
  description := declaration.description
  attributes := (declaration.attributes.filter fun d => d.segments.length = 1).map
    (AttributeDeclaration.attributeEntry declaration.attributes)
  metadata := ⟨"Schema", config.location "Schemas" declaration.schema⟩

/-- The documents of the schemas of a declared resource type: that of the core schema, then those of
the extensions in their order. -/
def schemaDocuments (config : DiscoveryConfig) (declaration : ResourceDeclaration) :
    List SchemaDocument :=
  declaration.coreDocument config ::
    declaration.extensions.map (ExtensionDeclaration.document config)

/-- The document of a declared resource type. -/
def typeDocument (config : DiscoveryConfig) (declaration : ResourceDeclaration) :
    ResourceTypeDocument where
  schemas := [resourceTypeSchema]
  id := declaration.name
  name := declaration.name
  description := declaration.description
  endpoint := declaration.endpoint
  schema := declaration.schema
  extensions := declaration.extensions.map fun extension => ⟨extension.urn, false⟩
  metadata := ⟨"ResourceType", config.location "ResourceTypes" declaration.name⟩

end ResourceDeclaration

/-! ### What discovery renders -/

/-- Maps over related lists give the same list, if they agree on related entries. -/
theorem map_eq_map_of_forall₂ {α β γ : Type} {Same : α → β → Prop} {f : α → γ} {g : β → γ}
    {xs : List α} {ys : List β} (h : List.Forall₂ Same xs ys)
    (hsame : ∀ x y, Same x y → f x = g y) : xs.map f = ys.map g := by
  induction h with
  | nil => rfl
  | cons hxy _ ih => rw [List.map_cons, List.map_cons, hsame _ _ hxy, ih]

/-- The entry of a declared field, with whatever parts. -/
theorem Field.IsDeclaredBy.toSchemaAttribute_eq {field : Field} {declaration : AttributeDeclaration}
    (h : field.IsDeclaredBy declaration) (parts : Option (List SchemaAttribute)) :
    field.toSchemaAttribute parts = declaration.entry parts := by
  rw [Field.toSchemaAttribute, h.name, h.type, h.multiValued, h.description,
    AttributeDeclaration.entry]

theorem Field.IsDeclaredBy.toPart_eq {field : Field} {declaration : AttributeDeclaration}
    (h : field.IsDeclaredBy declaration) : field.toPart = declaration.partEntry := by
  simp only [Field.toPart, h.toSchemaAttribute_eq, Field.isComplex, h.type, decide_eq_true_eq,
    AttributeDeclaration.partEntry]

/-- **The entry of an attribute** is that of its declaration among the others. -/
theorem Attribute.IsDeclaredBy.toSchemaAttribute_eq {a : Attribute}
    {declarations : List AttributeDeclaration} {declaration : AttributeDeclaration}
    (h : a.IsDeclaredBy declarations declaration) :
    a.toSchemaAttribute = declaration.attributeEntry declarations := by
  have hparts : a.parts.map Field.toPart =
      (declarations.filter (AttributeDeclaration.isPartOf a.name)).map
        AttributeDeclaration.partEntry :=
    map_eq_map_of_forall₂ h.parts fun _ _ hpart => hpart.toPart_eq
  simp only [Attribute.toSchemaAttribute, h.field.toSchemaAttribute_eq, Field.isComplex,
    h.field.type, decide_eq_true_eq, hparts, h.field.name, AttributeDeclaration.attributeEntry]

/-- The entry of an extension field is that of its declaration. -/
theorem Field.IsExtensionField.toSchemaAttribute_eq {field : Field} {declaration : FieldDeclaration}
    (h : field.IsExtensionField declaration) : field.toSchemaAttribute = declaration.entry := by
  rw [Field.toSchemaAttribute, h.name, h.type, h.multiValued, h.description,
    FieldDeclaration.entry]

namespace Discovery

variable {discovery : Discovery}

theorem extensionDocument_eq {extension : Extension} {declaration : ExtensionDeclaration}
    (h : extension.IsDeclaredBy declaration) :
    discovery.extensionDocument extension = declaration.document discovery.config := by
  rw [extensionDocument, schemaMeta, h.urn, h.name, h.description,
    map_eq_map_of_forall₂ h.fields fun _ _ hfield => hfield.toSchemaAttribute_eq,
    ExtensionDeclaration.document]

variable {resource : Resource} {declaration : ResourceDeclaration}

theorem coreDocument_eq (h : resource.IsDeclaredBy declaration) :
    discovery.coreDocument resource = declaration.coreDocument discovery.config := by
  rw [coreDocument, schemaMeta, h.schema, h.name, h.description,
    map_eq_map_of_forall₂ h.attributes fun _ _ ha => ha.toSchemaAttribute_eq,
    ResourceDeclaration.coreDocument]

theorem resourceTypeDocument_eq (h : resource.IsDeclaredBy declaration) :
    discovery.resourceTypeDocument resource = declaration.typeDocument discovery.config := by
  have hextensions : (resource.extensions.map fun extension =>
      (⟨extension.urn, false⟩ : ExtensionReference)) =
        declaration.extensions.map fun extension => ⟨extension.urn, false⟩ :=
    map_eq_map_of_forall₂ h.extensions fun _ _ hextension => by rw [hextension.urn]
  rw [resourceTypeDocument, hextensions, h.name, h.schema, h.description, h.endpoint,
    ResourceDeclaration.typeDocument]

end Discovery

namespace Registry

variable {declarations : List ResourceDeclaration} {registry : Registry}

/-- **The documents of the resource types** are those of the declarations, in their order. -/
theorem resourceTypeDocuments_of_build (h : build declarations = .ok registry)
    (config : DiscoveryConfig) :
    (Discovery.mk registry config).resourceTypes =
      declarations.map (ResourceDeclaration.typeDocument config) :=
  map_eq_map_of_forall₂ (resourceTypes_isDeclaredBy h) fun _ _ hresource =>
    Discovery.resourceTypeDocument_eq hresource

/-- **The documents of the schemas** are those of the declarations, resource type by resource
type. -/
theorem schemas_of_build (h : build declarations = .ok registry) (config : DiscoveryConfig) :
    (Discovery.mk registry config).schemas =
      declarations.flatMap (ResourceDeclaration.schemaDocuments config) := by
  rw [Discovery.schemas, List.flatMap_def, List.flatMap_def]
  refine congrArg List.flatten (map_eq_map_of_forall₂ (resourceTypes_isDeclaredBy h) ?_)
  intro resource declaration hresource
  have hextensions : resource.extensions.map (Discovery.mk registry config).extensionDocument =
      declaration.extensions.map (ExtensionDeclaration.document config) :=
    map_eq_map_of_forall₂ hresource.extensions fun _ _ hextension =>
      Discovery.extensionDocument_eq hextension
  rw [Discovery.coreDocument_eq hresource, hextensions, ResourceDeclaration.schemaDocuments]

/-- **What is built and published is what was declared**: nothing is lost, doubled or moved. The
resource types stand in the order of their declarations with every entry at its place; and under
any configuration the documents of the resource types and of the schemas are those that the
declarations describe, in the same order. -/
theorem published_of_build (h : build declarations = .ok registry) (config : DiscoveryConfig) :
    List.Forall₂ Resource.IsDeclaredBy registry.resourceTypes declarations ∧
      (Discovery.mk registry config).resourceTypes =
        declarations.map (ResourceDeclaration.typeDocument config) ∧
      (Discovery.mk registry config).schemas =
        declarations.flatMap (ResourceDeclaration.schemaDocuments config) :=
  ⟨resourceTypes_isDeclaredBy h, resourceTypeDocuments_of_build h config,
    schemas_of_build h config⟩

/-- Two small resource types, what is registered of them and what is published: four schemas, in the
first of which the complex attribute `members` lists its part. -/
theorem published_of_build_team :
    ∃ registry, build [Sample.team, Sample.crew] = .ok registry ∧
      registry.resourceTypes.map Resource.name = ["team", "crew"] ∧
      (Discovery.mk registry {}).schemas.map SchemaDocument.id =
        ["urn:team", "urn:team:x", "urn:crew", "urn:x", "urn:x:y"] ∧
      (Discovery.mk registry {}).schemas.head?.map (fun document =>
        document.attributes.map fun a => (a.name, a.parts.map fun parts => parts.map (·.name))) =
        some [("label", none), ("members", some ["value"]), ("title", some ["short"])] := by
  have hsample : ∃ registry, build [Sample.team, Sample.crew] = .ok registry :=
    exists_ok_of_isOk (by decide +kernel)
  obtain ⟨registry, hbuild⟩ := hsample
  obtain ⟨hdeclared, -, hschemas⟩ := published_of_build hbuild {}
  have hnames : registry.resourceTypes.map Resource.name =
      [Sample.team, Sample.crew].map ResourceDeclaration.name :=
    map_eq_map_of_forall₂ hdeclared fun _ _ hresource => hresource.name
  refine ⟨registry, hbuild, hnames, ?_, ?_⟩
  · rw [hschemas]
    decide +kernel
  · rw [hschemas]
    decide +kernel

end Registry

end ScimDirectory
