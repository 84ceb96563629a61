import ScimDirectory.Schema.Registry

/-!
# Discovery documents

What clients read to find out which attributes they can filter on: a document for each resource
type, and one for each core schema and each extension.

## Main definitions

* `Discovery.resourceTypes`, `Discovery.schemas`: all documents, in the order of registration.
* `Discovery.resourceType?`, `Discovery.schema?`: one document, by name or by URN.
-/

namespace ScimDirectory

/-- Where the service is reached. -/
structure DiscoveryConfig where
  /-- The address of the service, without version. -/
  baseUrl : String := "https://localhost"
  /-- The version of the protocol as it stands in addresses. -/
  version : String := "v2"
deriving DecidableEq, Repr, Inhabited

/-- What every document says of itself. -/
structure Meta where
  resourceType : String
  location : String
deriving DecidableEq, Repr, Inhabited

/-- A reference from a resource type to the schema of an extension. -/
structure ExtensionReference where
  schema : String
  required : Bool
deriving DecidableEq, Repr, Inhabited

/-- The document of a resource type. -/
structure ResourceTypeDocument where
  schemas : List String
  id : String
  name : String
  description : String
  endpoint : String
  schema : String
  extensions : List ExtensionReference
  metadata : Meta
deriving DecidableEq, Repr, Inhabited

/-- An attribute in the document of a schema. -/
structure SchemaAttribute where
  name : String
  type : String
  multiValued : Bool
  description : String
  /-- The parts of a complex attribute. -/
  parts : Option (List SchemaAttribute)
deriving Repr, Inhabited

/-- The document of a core schema or an extension. -/
structure SchemaDocument where
  schemas : List String
  id : String
  name : String
  description : String
  attributes : List SchemaAttribute
  metadata : Meta
deriving Repr, Inhabited

/-- The schema that resource type documents follow. -/
def resourceTypeSchema : String :=
  "urn:ietf:params:scim:schemas:core:2.0:ResourceType"

/-- The schema that schema documents follow. -/
def schemaSchema : String :=
  "urn:ietf:params:scim:schemas:core:2.0:Schema"

/-- A text without the slashes at its end. -/
def trimSlashes (text : String) : String :=
  String.ofList (text.toList.reverse.dropWhile (· == '/')).reverse

/-- The address of a document. -/
def DiscoveryConfig.location (config : DiscoveryConfig) (endpoint id : String) : String :=
  trimSlashes config.baseUrl ++ "/" ++ config.version ++ "/" ++ endpoint ++ "/" ++ id

/-- A field as an attribute without parts. -/
def Field.toSchemaAttribute (field : Field) (parts : Option (List SchemaAttribute) := none) :
    SchemaAttribute where
  name := field.name
  type := field.type.name
  multiValued := field.multiValued
  description := field.description
  parts := parts

/-- A part of a complex attribute, which has no parts of its own but lists none if it is declared
complex. -/
def Field.toPart (field : Field) : SchemaAttribute :=
  field.toSchemaAttribute (if field.isComplex then some [] else none)

/-- An attribute of a core schema. It lists parts exactly if it is complex. -/
def Attribute.toSchemaAttribute (a : Attribute) : SchemaAttribute :=
  a.toField.toSchemaAttribute (if a.isComplex then some (a.parts.map Field.toPart) else none)

/-- Discovery: the documents of a registry under the addresses of a service. -/
structure Discovery where
  registry : Registry
  config : DiscoveryConfig

namespace Discovery

/-- What a schema document says of itself. -/
def schemaMeta (discovery : Discovery) (urn : String) : Meta where
  resourceType := "Schema"
  location := discovery.config.location "Schemas" urn

/-- The document of a resource type. -/
def resourceTypeDocument (discovery : Discovery) (resource : Resource) :
    ResourceTypeDocument where
  schemas := [resourceTypeSchema]
  id := resource.name
  name := resource.name
  description := resource.description
  endpoint := resource.endpoint
  schema := resource.schema
  extensions := resource.extensions.map fun extension => ⟨extension.urn, false⟩
  metadata := ⟨"ResourceType", discovery.config.location "ResourceTypes" resource.name⟩

/-- The document of the core schema of a resource. -/
def coreDocument (discovery : Discovery) (resource : Resource) : SchemaDocument where
  schemas := [schemaSchema]
  id := resource.schema
  name := resource.name
  description := resource.description
  attributes := resource.attributes.toList.map Attribute.toSchemaAttribute
  metadata := discovery.schemaMeta resource.schema

/-- The document of an extension. -/
def extensionDocument (discovery : Discovery) (extension : Extension) : SchemaDocument where
  schemas := [schemaSchema]
  id := extension.urn
  name := extension.name
  description := extension.description
  attributes := extension.fields.map fun field => field.toSchemaAttribute
  metadata := discovery.schemaMeta extension.urn

/-- The documents of all resource types, in the order of their registration. -/
def resourceTypes (discovery : Discovery) : List ResourceTypeDocument :=
  discovery.registry.resourceTypes.map discovery.resourceTypeDocument

/-- The documents of all schemas: for each resource type that of its core schema, then those of its
extensions. -/
def schemas (discovery : Discovery) : List SchemaDocument :=
  discovery.registry.resourceTypes.flatMap fun resource =>
    discovery.coreDocument resource :: resource.extensions.map discovery.extensionDocument

/-- The document of the resource type found under `name`. -/
def resourceType? (discovery : Discovery) (name : String) : Option ResourceTypeDocument :=
  (discovery.registry.resource? name).map discovery.resourceTypeDocument

/-- The document of the schema with that URN: the first resource type that owns the URN has it, as
its core schema if it can. -/
def schema? (discovery : Discovery) (urn : String) : Option SchemaDocument := do
  let resource ← discovery.registry.ownerOf? urn
  if Alike resource.schema urn then return discovery.coreDocument resource
  else
    let extension ← resource.extension? urn
    return discovery.extensionDocument extension

end Discovery

end ScimDirectory
