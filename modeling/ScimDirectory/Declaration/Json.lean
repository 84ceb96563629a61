import ScimDirectory.Declaration.Basic
import ScimDirectory.Json.Decoder
import ScimDirectory.Json.Reader

/-!
# Declarations as JSON

How declarations are written and read. A declaration document holds one resource declaration or an
array of them; it is read as a whole before it is decoded.
-/

namespace ScimDirectory

/-- A text that may be absent, as JSON. -/
def Json.ofOption (text : Option String) : Json :=
  text.elim .null .string

/-! ### Writing -/

/-- A data type as JSON. -/
def AttributeType.toJson (type : AttributeType) : Json :=
  .string type.name

/-- A declared attribute as JSON. -/
def AttributeDeclaration.toJson (declaration : AttributeDeclaration) : Json :=
  .object [
    ("path", .string declaration.path),
    ("storageName", .ofOption declaration.storageName),
    ("type", declaration.type.toJson),
    ("multiValued", .bool declaration.multiValued),
    ("description", .string declaration.description)]

/-- A declared extension field as JSON. -/
def FieldDeclaration.toJson (declaration : FieldDeclaration) : Json :=
  .object [
    ("name", .string declaration.name),
    ("storageName", .ofOption declaration.storageName),
    ("type", declaration.type.toJson),
    ("multiValued", .bool declaration.multiValued),
    ("description", .string declaration.description)]

/-- A declared extension as JSON. -/
def ExtensionDeclaration.toJson (declaration : ExtensionDeclaration) : Json :=
  .object [
    ("urn", .string declaration.urn),
    ("name", .string declaration.name),
    ("description", .string declaration.description),
    ("fields", .array (declaration.fields.map FieldDeclaration.toJson))]

/-- A resource declaration as JSON. -/
def ResourceDeclaration.toJson (declaration : ResourceDeclaration) : Json :=
  .object [
    ("name", .string declaration.name),
    ("schema", .string declaration.schema),
    ("description", .string declaration.description),
    ("endpoint", .string declaration.endpoint),
    ("nameAttribute", .ofOption declaration.nameAttribute),
    ("identifierStorageName", .string declaration.identifier),
    ("attributes", .array (declaration.attributes.map AttributeDeclaration.toJson)),
    ("extensions", .array (declaration.extensions.map ExtensionDeclaration.toJson))]

/-! ### Reading -/

open Decoder Record

/-- Decode a data type. -/
def AttributeType.decode (room : Nat) : Decoder AttributeType :=
  named room (all.map name) ofName?

/-- Decode a declared attribute. -/
def AttributeDeclaration.decode (room : Nat) : Decoder AttributeDeclaration :=
  decoder "AttributeDeclaration"
    (AttributeDeclaration.mk
      <$> required "path" text
      <*> defaulted "storageName" none (optional text)
      <*> defaulted "type" .string (AttributeType.decode (room - 1))
      <*> defaulted "multiValued" false flag
      <*> defaulted "description" "" text)
    room

/-- Decode a declared extension field. -/
def FieldDeclaration.decode (room : Nat) : Decoder FieldDeclaration :=
  decoder "ExtensionFieldDeclaration"
    (FieldDeclaration.mk
      <$> required "name" text
      <*> defaulted "storageName" none (optional text)
      <*> defaulted "type" .string (AttributeType.decode (room - 1))
      <*> defaulted "multiValued" false flag
      <*> defaulted "description" "" text)
    room

/-- Decode a declared extension. -/
def ExtensionDeclaration.decode (room : Nat) : Decoder ExtensionDeclaration :=
  decoder "ExtensionDeclaration"
    (ExtensionDeclaration.mk
      <$> required "urn" text
      <*> required "name" text
      <*> defaulted "description" "" text
      <*> required "fields" (list (room - 1) (FieldDeclaration.decode (room - 2))))
    room

/-- Decode a resource declaration. -/
def ResourceDeclaration.decode (room : Nat) : Decoder ResourceDeclaration :=
  decoder "ResourceDeclaration"
    (ResourceDeclaration.mk
      <$> required "name" text
      <*> required "schema" text
      <*> defaulted "description" "" text
      <*> defaulted "endpoint" "" text
      <*> defaulted "nameAttribute" none (optional text)
      <*> defaulted "identifierStorageName" defaultIdentifier text
      <*> required "attributes" (list (room - 1) (AttributeDeclaration.decode (room - 2)))
      <*> defaulted "extensions" [] (list (room - 1) (ExtensionDeclaration.decode (room - 2))))
    room

/-! ### Documents -/

/-- Decode a whole text, with nothing but gaps behind the value. -/
def decodeText {α : Type} (decode : Decoder α) (text : String) : Except Fault α := do
  let (draft, rest) := Json.read text.toList
  let value ← decode draft
  if rest.all fun rest => (Json.skipGap rest).isEmpty then return value
  else throw .malformed

/-- Why a declaration document does not load. -/
inductive LoadError where
  /-- The text is no JSON. -/
  | malformed
  /-- The document holds neither a resource declaration nor an array of them. -/
  | noDeclarations
deriving DecidableEq, Repr

/-- The text shown for a document that does not load. `refusal` are the words in which the reader of
JSON refused it, if it is no JSON; they are not fixed here. -/
def LoadError.message (error : LoadError) (refusal : String := "") : String :=
  "Invalid declaration: " ++
    match error with
    | malformed => refusal
    | noDeclarations => "data did not match any variant of untagged enum DeclarationDocument"

/-- The declarations of a document: an array of them, or a single one. -/
def declarationsOf? (draft : Draft) : Option (List ResourceDeclaration) :=
  match list maxDepth (ResourceDeclaration.decode (maxDepth - 1)) draft with
  | .ok declarations => some declarations
  | .error _ =>
      match ResourceDeclaration.decode maxDepth draft with
      | .ok declaration => some [declaration]
      | .error _ => none

/-- **Load a declaration document.** The document is read as a whole first, so a fault of its text
is told before a mismatch; text behind the document is told last. -/
def loadDeclarations (text : String) : Except LoadError (List ResourceDeclaration) := do
  let (draft, rest) := Json.read text.toList
  if !draft.isSound maxDepth then throw .malformed
  let some declarations := declarationsOf? draft | throw .noDeclarations
  if rest.all fun rest => (Json.skipGap rest).isEmpty then return declarations
  else throw .malformed

end ScimDirectory
