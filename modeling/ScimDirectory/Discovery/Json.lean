import ScimDirectory.Declaration.Json
import ScimDirectory.Discovery.Document

/-!
# Discovery documents as JSON

An empty list of extensions, and the parts of an attribute that lists none, are left out.
-/

namespace ScimDirectory

open Decoder Record

/-! ### Writing -/

/-- A discovery configuration as JSON. -/
def DiscoveryConfig.toJson (config : DiscoveryConfig) : Json :=
  .object [("baseUrl", .string config.baseUrl), ("scimVersion", .string config.version)]

/-- What a document says of itself, as JSON. -/
def Meta.toJson (metadata : Meta) : Json :=
  .object [
    ("resourceType", .string metadata.resourceType),
    ("location", .string metadata.location)]

/-- A reference to an extension as JSON. -/
def ExtensionReference.toJson (reference : ExtensionReference) : Json :=
  .object [("schema", .string reference.schema), ("required", .bool reference.required)]

/-- The document of a resource type as JSON. -/
def ResourceTypeDocument.toJson (document : ResourceTypeDocument) : Json :=
  .object <| [
    ("schemas", .array (document.schemas.map .string)),
    ("id", .string document.id),
    ("name", .string document.name),
    ("description", .string document.description),
    ("endpoint", .string document.endpoint),
    ("schema", .string document.schema)] ++
    (if document.extensions.isEmpty then []
      else [("schemaExtensions", .array (document.extensions.map ExtensionReference.toJson))]) ++
    [("meta", document.metadata.toJson)]

mutual

/-- An attribute of a schema document as JSON. -/
def SchemaAttribute.toJson : SchemaAttribute → Json
  | { name, type, multiValued, description, parts } =>
      .object <| [
        ("name", .string name),
        ("type", .string type),
        ("multiValued", .bool multiValued),
        ("description", .string description)] ++
        match parts with
        | none => []
        | some parts => [("subAttributes", .array (SchemaAttribute.listToJson parts))]

/-- The attributes of a list as JSON. -/
def SchemaAttribute.listToJson : List SchemaAttribute → List Json
  | [] => []
  | a :: more => a.toJson :: SchemaAttribute.listToJson more

end

/-- The document of a schema as JSON. -/
def SchemaDocument.toJson (document : SchemaDocument) : Json :=
  .object [
    ("schemas", .array (document.schemas.map .string)),
    ("id", .string document.id),
    ("name", .string document.name),
    ("description", .string document.description),
    ("attributes", .array (document.attributes.map SchemaAttribute.toJson)),
    ("meta", document.metadata.toJson)]

/-! ### Reading -/

/-- Decode a discovery configuration. -/
def DiscoveryConfig.decode (room : Nat) : Decoder DiscoveryConfig :=
  decoder "DiscoveryConfig"
    (DiscoveryConfig.mk <$> required "baseUrl" text <*> required "scimVersion" text)
    room

/-- Decode what a document says of itself. -/
def Meta.decode (room : Nat) : Decoder Meta :=
  decoder "Meta" (Meta.mk <$> required "resourceType" text <*> required "location" text) room

/-- Decode a reference to an extension. -/
def ExtensionReference.decode (room : Nat) : Decoder ExtensionReference :=
  decoder "SchemaExtensionRef"
    (ExtensionReference.mk <$> Record.required "schema" text <*> Record.required "required" flag)
    room

/-- Decode the document of a resource type. -/
def ResourceTypeDocument.decode (room : Nat) : Decoder ResourceTypeDocument :=
  decoder "ResourceTypeDocument"
    (ResourceTypeDocument.mk
      <$> required "schemas" (list (room - 1) text)
      <*> required "id" text
      <*> required "name" text
      <*> required "description" text
      <*> required "endpoint" text
      <*> required "schema" text
      <*> defaulted "schemaExtensions" []
        (list (room - 1) (ExtensionReference.decode (room - 2)))
      <*> required "meta" (Meta.decode (room - 1)))
    room

/-- The fields of an attribute, given how its parts are decoded. -/
def SchemaAttribute.record (parts : Decoder (List SchemaAttribute)) : Record SchemaAttribute :=
  SchemaAttribute.mk
    <$> required "name" text
    <*> required "type" text
    <*> required "multiValued" flag
    <*> required "description" text
    <*> defaulted "subAttributes" none (optional parts)

/-- Decode an attribute. Its parts lie two levels deeper; where there is no room for them, no list
can be entered. -/
def SchemaAttribute.decode : Nat → Decoder SchemaAttribute
  | room + 2 =>
      decoder "SchemaAttribute" (record (list (room + 1) (SchemaAttribute.decode room))) (room + 2)
  | room => decoder "SchemaAttribute" (record (list 0 fun _ => throw .malformed)) room

/-- Decode the document of a schema. -/
def SchemaDocument.decode (room : Nat) : Decoder SchemaDocument :=
  decoder "SchemaDocument"
    (SchemaDocument.mk
      <$> required "schemas" (list (room - 1) text)
      <*> required "id" text
      <*> required "name" text
      <*> required "description" text
      <*> required "attributes" (list (room - 1) (SchemaAttribute.decode (room - 2)))
      <*> required "meta" (Meta.decode (room - 1)))
    room

end ScimDirectory
