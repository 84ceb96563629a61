import Mathlib.Data.List.MinMax
import ScimDirectory.Proofs.Schema.Assembly
import ScimDirectory.Proofs.Schema.Targets

/-!
# Resolution on the declarations

What a path leads to can be read off the flat list of declarations, without a tree and without an
index: the longest URN that the path begins with says which schema it belongs to, and within that
schema the path, or the dotted text of its two segments, is itself what was declared.
`ResourceDeclaration.resolve` does just that. It never asks whether a carrier is complex, because no
part is declared for one that is not.

## Main results

* `longestQualified?_eq`: the schema of a path is that of the longest URN that qualifies it.
* `ResourceDeclaration.coreTarget?_part`, `ResourceDeclaration.extensionTarget?_eq`: within a
  schema the tree and the flat list lead to the same target.
* `Registry.resolve_of_build`: **the registry resolves every path as the declarations do**.
-/

namespace ScimDirectory

/-! ### Paths on a flat list -/

/-- The backend name of a declared attribute: the one that is given, else its last segment. -/
def AttributeDeclaration.backendName (declaration : AttributeDeclaration) : String :=
  declaration.storageName.getD declaration.leaf

/-- The backend name of a declared field: the one that is given, else its name. -/
def FieldDeclaration.backendName (declaration : FieldDeclaration) : String :=
  declaration.storageName.getD declaration.name

/-- The target of the segments of a path in a declared extension, whose fields have no parts. -/
def ExtensionDeclaration.target? (declaration : ExtensionDeclaration) :
    List String → Option Target
  | [name] => (Named.find? declaration.fields name).map fun field =>
      .plain field.backendName false (.extension declaration.urn)
  | _ => none

namespace ResourceDeclaration

/-- The declared schemas by their URNs, the core schema first. -/
def schemas (declaration : ResourceDeclaration) : List (String × Option ExtensionDeclaration) :=
  (declaration.schema, none) ::
    declaration.extensions.map fun extension => (extension.urn, some extension)

/-- The schema with the longest of the URNs that a path begins with; of two such the first. -/
def schemaOf? (declaration : ResourceDeclaration) (path : List Char) :
    Option (String × Option ExtensionDeclaration) :=
  (declaration.schemas.filter fun schema => Qualifies schema.1 path).argmax
    fun schema => schema.1.length

/-- The name is that of the name attribute, letter case aside. -/
def isNative (declaration : ResourceDeclaration) (name : String) : Bool :=
  declaration.nameAttribute.any fun n => Alike n name

/-- The target of the segments of a path in the core schema. -/
def coreTarget? (declaration : ResourceDeclaration) : List String → Option Target
  | [name] =>
      if declaration.isNative name then some (.plain declaration.identifier false .core)
      else (Named.find? declaration.attributes name).map fun a =>
        .plain a.backendName (a.type = .complex) .core
  | [parent, name] =>
      (Named.find? declaration.attributes (dotted parent name)).bind fun part =>
        if declaration.isNative parent then
          some (.plain part.backendName (part.type = .complex) .core)
        else (Named.find? declaration.attributes parent).map fun carrier =>
          .fragment carrier.backendName part.backendName
  | _ => none

/-- The target of the segments of a path in one of the schemas. -/
def targetIn? (declaration : ResourceDeclaration) (segments : List String) :
    Option ExtensionDeclaration → Option Target
  | none => declaration.coreTarget? segments
  | some extension => extension.target? segments

/-- Resolve what `path` has behind the URN of a schema. -/
def resolveIn (declaration : ResourceDeclaration) (path : String)
    (schema : Option ExtensionDeclaration) (rest : List Char) : Except FilterError Target :=
  let segments := (rest.splitOn '.').map String.ofList
  if 2 < segments.length then throw (.pathTooDeep path)
  else if "" ∈ segments then throw (.unknownAttribute path declaration.name)
  else
    match declaration.targetIn? segments schema with
    | none => throw (.unknownAttribute path declaration.name)
    | some target => return target

/-- **Resolve a path on the declaration.** -/
def resolve (declaration : ResourceDeclaration) (path : String) : Except FilterError Target :=
  match declaration.schemaOf? path.toList with
  | some (urn, schema) => declaration.resolveIn path schema (path.toList.drop (urn.length + 1))
  | none =>
      if Alike (String.ofList (path.toList.take 4)) "urn:" then
        throw (.unknownAttribute path declaration.name)
      else declaration.resolveIn path none path.toList

end ResourceDeclaration

/-- **Stages of a successful resolution** behind a URN: the depth, the segments, the target. -/
theorem ResourceDeclaration.resolveIn_eq_ok_iff {declaration : ResourceDeclaration} {path : String}
    {schema : Option ExtensionDeclaration} {rest : List Char} {target : Target} :
    declaration.resolveIn path schema rest = .ok target ↔
      ¬ 2 < ((rest.splitOn '.').map String.ofList).length ∧
        "" ∉ (rest.splitOn '.').map String.ofList ∧
        declaration.targetIn? ((rest.splitOn '.').map String.ofList) schema = some target := by
  simp only [resolveIn, refusal_eq_ok_iff]
  refine and_congr_right fun _ => and_congr_right fun _ => ?_
  cases declaration.targetIn? ((rest.splitOn '.').map String.ofList) schema with
  | none => exact iff_of_false (by rintro ⟨⟩) (by rintro ⟨⟩)
  | some found => exact pure_eq_ok_iff.trans (Option.some.injEq found target).symm.to_iff

/-! ### The schema of a path -/

/-- **The schema of a path** is that of the longest URN that qualifies it. -/
theorem longestQualified?_eq {α : Type} (space : α → Namespace) (path : List Char)
    (schemas : List (String × α)) :
    longestQualified? path (schemas.map fun schema => (schema.1, space schema.2)) =
      ((schemas.filter fun schema => Qualifies schema.1 path).argmax
          fun schema => schema.1.length).map
        fun schema => ⟨schema.1, space schema.2, path.drop (schema.1.length + 1)⟩ := by
  induction schemas with
  | nil => rfl
  | cons schema more ih =>
      obtain ⟨urn, value⟩ := schema
      rw [List.map_cons, longestQualified?, ih, afterUrn?_eq]
      by_cases h : Qualifies urn path
      · rw [if_pos h, List.filter_cons_of_pos (by simpa using h), List.argmax_cons]
        cases (more.filter fun schema => Qualifies schema.1 path).argmax
            fun schema => schema.1.length with
        | none => rfl
        | some best =>
            simp only [Option.map_some]
            split <;> rfl
      · rw [if_neg h, List.filter_cons_of_neg (by simpa using h)]

/-! ### Targets within a schema -/

namespace ResourceDeclaration

variable {declaration : ResourceDeclaration}

theorem attribute?_resource {name : String} (hname : '.' ∉ name.toList) :
    declaration.resource.attribute? name =
      (Named.find? declaration.attributes name).map (attributeOf declaration.attributes) := by
  rw [Resource.attribute?_eq_find?, resource, Catalog.toList_ofList, find?_attributesOf hname]

/-- A simple path leads to the same target in the tree and in the flat list. -/
theorem coreTarget?_simple {name : String} (hname : '.' ∉ name.toList) :
    declaration.resource.coreTarget? (.simple name) = declaration.coreTarget? [name] := by
  rw [Resource.coreTarget?_simple, coreTarget?, attribute?_resource hname, Option.map_map]
  rfl

/-- A part that was declared has its carrier in the flat list, and that is complex. -/
theorem exists_carrier_of_part (h : declaration.IsWellFormed) {parent name : String}
    (hparent : '.' ∉ parent.toList) (hname : '.' ∉ name.toList) {part : AttributeDeclaration}
    (hpart : Named.find? declaration.attributes (dotted parent name) = some part) :
    ∃ carrier, Named.find? declaration.attributes parent = some carrier ∧
      carrier.type = .complex := by
  have hmem := Named.mem_of_find? hpart
  have halike := Named.alike_of_find? hpart
  have hfield := (AttributeDeclaration.partOf?_of_alike hparent hname halike).1
  obtain ⟨carrier, hcarrier, hcarriers, htype⟩ :=
    has_parent_of_partOf? h.attributes hmem hfield
  exact ⟨carrier, (distinct_attributes h.attributes).find?_eq_some_iff.mpr
    ⟨hcarrier, hcarriers⟩, htype⟩

/-- A path to a part leads to the same target in the tree and in the flat list. -/
theorem coreTarget?_part (h : declaration.IsWellFormed) {parent name : String}
    (hparent : '.' ∉ parent.toList) (hname : '.' ∉ name.toList) :
    declaration.resource.coreTarget? (.part parent name) =
      declaration.coreTarget? [parent, name] := by
  have hparts : ∀ carrier, Named.find? declaration.attributes parent = some carrier →
      (attributeOf declaration.attributes carrier).part? name =
        (Named.find? declaration.attributes (dotted parent name)).map
          AttributeDeclaration.field := by
    intro carrier hcarrier
    exact find?_parts_attributeOf hparent hname (Named.alike_of_find? hcarrier)
  rw [Resource.coreTarget?_part, attribute?_resource hparent, coreTarget?]
  cases hpart : Named.find? declaration.attributes (dotted parent name) with
  | none =>
      cases hcarrier : Named.find? declaration.attributes parent with
      | none => rfl
      | some carrier =>
          rw [Option.map_some, Option.bind_some, hparts carrier hcarrier, hpart]
          exact ite_self none
  | some part =>
      obtain ⟨carrier, hcarrier, htype⟩ := exists_carrier_of_part h hparent hname hpart
      have hcomplex : (attributeOf declaration.attributes carrier).isComplex = true :=
        decide_eq_true htype
      rw [hcarrier, Option.map_some, Option.bind_some, hparts carrier hcarrier, hpart, hcomplex,
        Bool.or_true, if_pos rfl, Option.map_some, Option.bind_some, Option.map_some]
      exact apply_ite some _ _ _

/-- A path within an extension leads to the same target on both sides. -/
theorem extensionTarget?_eq (h : declaration.IsWellFormed) {extension : ExtensionDeclaration}
    (hmem : extension ∈ declaration.extensions) (name : String) :
    declaration.resource.extensionTarget? extension.urn (.simple name) =
      extension.target? [name] := by
  have hfind := h.distinct_extensions.find?_eq_some_iff.mpr ⟨hmem, Alike.rfl⟩
  have hextension : declaration.resource.extension? extension.urn = some extension.extension := by
    rw [Resource.extension?, resource,
      Named.find?_map ExtensionDeclaration.extension (fun _ => rfl)]
    exact congrArg (Option.map ExtensionDeclaration.extension) hfind
  rw [Resource.extensionTarget?_simple, hextension, Option.bind_some, Extension.field?,
    ExtensionDeclaration.extension, Named.find?_map FieldDeclaration.toField (fun _ => rfl),
    Option.map_map]
  rfl

/-! ### Resolution -/

/-- The schema that a filter path belongs to in the registry, for a declared one. -/
def spaceOf : Option ExtensionDeclaration → Namespace
  | none => .core
  | some extension => .extension extension.urn

/-- The schemas of the registry are the declared ones. -/
theorem namespaces_resource :
    declaration.resource.namespaces =
      declaration.schemas.map fun schema => (schema.1, spaceOf schema.2) := by
  simp [Resource.namespaces, schemas, resource, spaceOf, ExtensionDeclaration.extension]

/-- **The schema of a path** is found on the declaration. -/
theorem locate?_resource (declaration : ResourceDeclaration) (path : List Char) :
    declaration.resource.locate? path =
      match declaration.schemaOf? path with
      | some (urn, schema) => some (spaceOf schema, path.drop (urn.length + 1))
      | none =>
          if Alike (String.ofList (path.take 4)) "urn:" then none else some (.core, path) := by
  rw [Resource.locate?, namespaces_resource, longestQualified?_eq, schemaOf?]
  cases (declaration.schemas.filter fun schema => Qualifies schema.1 path).argmax
      fun schema => schema.1.length with
  | none => simp only [Option.map_none, isUrnQualified_iff]
  | some schema => rfl

/-- Within one schema the tree and the flat list lead to the same target. -/
theorem targetIn?_eq (h : declaration.IsWellFormed) {schema : Option ExtensionDeclaration}
    (hmem : ∀ extension ∈ schema, extension ∈ declaration.extensions) {path : AttributePath}
    (hdots : path.IsDotFree) :
    declaration.resource.targetIn? (spaceOf schema) path =
      declaration.targetIn? path.segments schema := by
  cases schema with
  | none =>
      cases path with
      | simple name => exact coreTarget?_simple hdots
      | part parent name => exact coreTarget?_part h hdots.1 hdots.2
  | some extension =>
      cases path with
      | simple name => exact extensionTarget?_eq h (hmem extension rfl) name
      | part parent name => rfl

/-- Behind the URN of a schema both resolve alike: the depth is checked first, then the segments,
then the names. -/
theorem resolve_of_locate? (h : declaration.IsWellFormed) {path : String} {rest : List Char}
    {schema : Option ExtensionDeclaration}
    (hmem : ∀ extension ∈ schema, extension ∈ declaration.extensions)
    (hlocate : declaration.resource.locate? path.toList = some (spaceOf schema, rest)) :
    declaration.resource.resolve path = declaration.resolveIn path schema rest := by
  simp only [Resource.resolve, hlocate, resolveIn]
  cases hpath : AttributePath.ofChars? rest with
  | none =>
      rw [List.length_map, if_pos (AttributePath.two_lt_of_ofChars?_eq_none hpath)]
  | some attributePath =>
      have hdots := (AttributePath.ofChars?_eq_some_iff.mp hpath).1
      have hdepth : ¬ 2 < attributePath.segments.length :=
        Nat.not_lt.mpr attributePath.length_segments_le
      rw [AttributePath.segments_of_ofChars? hpath, if_neg hdepth]
      simp only [AttributePath.hasEmptySegment_iff, targetIn?_eq h hmem hdots]
      rfl

/-- The schema that a path belongs to was declared. -/
theorem mem_extensions_of_schemaOf? {path : List Char} {urn : String}
    {schema : Option ExtensionDeclaration} (h : declaration.schemaOf? path = some (urn, schema)) :
    ∀ extension ∈ schema, extension ∈ declaration.extensions := by
  rintro extension rfl
  have hmem := (List.mem_filter.mp (List.argmax_mem h)).1
  rcases List.mem_cons.mp hmem with heq | hmem
  · cases heq
  · obtain ⟨declared, hdeclared, heq⟩ := List.mem_map.mp hmem
    obtain rfl := Option.some.inj (Prod.mk.inj heq).2
    exact hdeclared

/-- **The tree and the flat list resolve every path alike**, and refuse it with the same error. -/
theorem resolve_resource (h : declaration.IsWellFormed) (path : String) :
    declaration.resource.resolve path = declaration.resolve path := by
  have hlocate := declaration.locate?_resource path.toList
  rw [resolve]
  cases hschema : declaration.schemaOf? path.toList with
  | some found =>
      obtain ⟨urn, schema⟩ := found
      rw [hschema] at hlocate
      exact resolve_of_locate? h (mem_extensions_of_schemaOf? hschema) hlocate
  | none =>
      rw [hschema] at hlocate
      by_cases hurn : Alike (String.ofList (path.toList.take 4)) "urn:"
      · simp only [if_pos hurn] at hlocate ⊢
        rw [Resource.resolve, hlocate]
        rfl
      · simp only [if_neg hurn] at hlocate ⊢
        exact resolve_of_locate? h (by rintro _ ⟨⟩) hlocate

end ResourceDeclaration

namespace Registry

/-- **The registry resolves as its declarations do**: for every list of declarations that builds a
registry, each declared resource type is found under its name, and resolves every path to what the
scan of its declaration gives, be it a target or an error. -/
theorem resolve_of_build {declarations : List ResourceDeclaration} {registry : Registry}
    (h : build declarations = .ok registry) {declaration : ResourceDeclaration}
    (hmem : declaration ∈ declarations) :
    ∃ resource, registry.resource? declaration.name = some resource ∧
      ∀ path, resource.resolve path = declaration.resolve path := by
  obtain ⟨hfind, hformed⟩ := resource?_of_build h hmem
  exact ⟨declaration.resource, hfind, declaration.resolve_resource hformed⟩

/-- The registry of one small resource type, with a name attribute and an extension. -/
theorem resolve_of_build_team :
    ∃ registry resource, build [Sample.team] = .ok registry ∧
      registry.resource? "team" = some resource ∧
      ∀ path, resource.resolve path = Sample.team.resolve path := by
  have hsample : ∃ registry, build [Sample.team] = .ok registry :=
    exists_ok_of_isOk (by decide +kernel)
  obtain ⟨registry, hbuild⟩ := hsample
  obtain ⟨resource, hresource, hresolve⟩ := resolve_of_build hbuild (List.mem_singleton_self _)
  exact ⟨registry, resource, hbuild, hresource, hresolve⟩

end Registry

end ScimDirectory
