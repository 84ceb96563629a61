import ScimDirectory.Filter.Error
import ScimDirectory.Schema.Registry

/-!
# Resolving paths

A path of a filter belongs to the core schema or to an extension, by the longest schema URN that it
begins with, and within that schema to one backend attribute. A part of a complex attribute lies
inside the text of its carrier; only the parts of the name attribute are backend attributes of their
own.
-/

namespace ScimDirectory

/-- The schema a path belongs to. -/
inductive Namespace where
  | core
  | extension (urn : String)
deriving DecidableEq, Repr

/-- Where the backend keeps what a path names. -/
inductive Target where
  /-- In a backend attribute of its own. -/
  | plain (name : String) (complex : Bool) (space : Namespace)
  /-- In the text of the carrier, under a key. -/
  | fragment (carrier key : String)
deriving DecidableEq, Repr

namespace Target

/-- The backend attribute to filter on. -/
def backendName : Target → String
  | plain name _ _ => name
  | fragment carrier _ => carrier

/-- The key inside the text of the carrier. -/
def key? : Target → Option String
  | plain _ _ _ => none
  | fragment _ key => some key

/-- What the path names is complex; the carrier is, for a key inside its text. -/
def isComplex : Target → Bool
  | plain _ complex _ => complex
  | fragment _ _ => true

/-- The schema the path belongs to. -/
def space : Target → Namespace
  | plain _ _ space => space
  | fragment _ _ => .core

/-- The path is matched inside the text of a carrier. -/
def isFragment (target : Target) : Bool :=
  target.key?.isSome

/-- The number of path segments that the backend addresses. -/
def depth (target : Target) : Nat :=
  if target.isFragment then 2 else 1

end Target

/-- A path that begins with a schema URN. -/
structure Qualified where
  urn : String
  space : Namespace
  /-- What follows the URN and its colon. -/
  rest : List Char
deriving DecidableEq, Repr

/-- The longest of the given URNs that a path begins with; of two equally long the first. -/
def longestQualified? (path : List Char) : List (String × Namespace) → Option Qualified
  | [] => none
  | (urn, space) :: more =>
      match afterUrn? urn.toList path, longestQualified? path more with
      | none, best => best
      | some rest, none => some { urn, space, rest }
      | some rest, some best =>
          if urn.length < best.urn.length then some best else some { urn, space, rest }

namespace Resource

/-- The schemas of a resource by their URNs, the core schema first. -/
def namespaces (resource : Resource) : List (String × Namespace) :=
  (resource.schema, .core) ::
    resource.extensions.map fun extension => (extension.urn, .extension extension.urn)

/-- The schema that a path belongs to, and the path within it. An unknown `urn:` belongs to none;
any other path without a known URN belongs to the core schema. -/
def locate? (resource : Resource) (path : List Char) : Option (Namespace × List Char) :=
  match longestQualified? path resource.namespaces with
  | some { space, rest, .. } => some (space, rest)
  | none => if isUrnQualified path then none else some (.core, path)

/-- The target of a path within the core schema. -/
def coreTarget? (resource : Resource) (path : AttributePath) : Option Target :=
  let native (name : String) : Bool := resource.nameAttribute.any fun n => Alike n name
  match path with
  | .simple name =>
      if native name then some (.plain resource.identifier false .core)
      else
        (resource.attribute? name).map fun a => .plain a.storageName a.isComplex .core
  | .part parent name => do
      let carrier ← resource.attribute? parent
      if native parent then
        let part ← carrier.part? name
        return .plain part.storageName part.isComplex .core
      if !carrier.isComplex then none
      let part ← carrier.part? name
      return .fragment carrier.storageName part.storageName

/-- The target of a path within the extension of that URN, whose fields have no parts. -/
def extensionTarget? (resource : Resource) (urn : String) (path : AttributePath) :
    Option Target :=
  match path with
  | .simple name => do
      let extension ← resource.extension? urn
      let field ← extension.field? name
      return .plain field.storageName false (.extension urn)
  | .part _ _ => none

/-- The target of a path within one schema of a resource. -/
def targetIn? (resource : Resource) : Namespace → AttributePath → Option Target
  | .core, path => resource.coreTarget? path
  | .extension urn, path => resource.extensionTarget? urn path

/-- **Resolve a path.** The depth of the path within its schema is checked before its names. -/
def resolve (resource : Resource) (path : String) : Except FilterError Target :=
  let unknown := FilterError.unknownAttribute path resource.name
  match resource.locate? path.toList with
  | none => throw unknown
  | some (space, rest) =>
      match AttributePath.ofChars? rest with
      | none => throw (.pathTooDeep path)
      | some attributePath =>
          if attributePath.hasEmptySegment then throw unknown
          else
            match resource.targetIn? space attributePath with
            | none => throw unknown
            | some target => return target

end Resource

namespace Registry

/-- The resource type found under `name`, which a filter cannot do without. -/
def require (registry : Registry) (name : String) : Except FilterError Resource :=
  match registry.resource? name with
  | some resource => return resource
  | none => throw (.unknownResourceType name)

/-- Resolve a path for a resource type. -/
def resolve (registry : Registry) (path name : String) : Except FilterError Target := do
  (← registry.require name).resolve path

end Registry

end ScimDirectory
