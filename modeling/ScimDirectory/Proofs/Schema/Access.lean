import ScimDirectory.Proofs.Schema.Invariant
import ScimDirectory.Proofs.Table

/-!
# Look-ups never access what is not there

A registry is filled while its declarations are checked, resource types on one side and an index of
their names on the other; the attributes of each resource type are indexed in the same way. Then
names are looked up at the positions that an index gives, and paths are cut at the byte offsets that
URNs give. This module retraces both with every access in sight, and shows that no access fails and
that the outcome is that of the look-ups and of the resolution as they are defined.

For names the reason is the check of the build: a table that is filled with distinct names has an
exact index. For paths no check is needed. An offset may fall anywhere in a path, and where it falls
within a character the path does not begin with that URN. Segments are accessed where the number of
them has been checked.

## Main results

* `Registry.tabulate_eq`: filling a table, with its index asked for names that are taken, is the
  build of the registry.
* `foldlM_improve`: the URN with the most bytes is the longest one in characters.
* `Resource.resolveChecked_eq`: **resolution with every access in sight** never fails.
* `Registry.access_of_build`: **look-ups of a registry that was built** find the only entry of a
  name, and neither they nor the resolution of any path access what is not there.
-/

namespace ScimDirectory

/-! ### Filling the registry -/

/-- Register one declaration in a table, whose index says which names are taken. -/
def registerInto (table : Table Resource) (declaration : ResourceDeclaration) :
    Except BuildError (Table Resource) := do
  if table.index.contains (fold declaration.name) then
    throw (.duplicate declaration.name declaration.name)
  return table.push (← declaration.build)

/-- Registering one declaration in the table of what is registered is registering it. -/
theorem registerInto_ofList {registered : List Resource} (h : Named.Distinct registered)
    (declaration : ResourceDeclaration) :
    registerInto (.ofList registered) declaration =
      (register registered declaration).map Table.ofList := by
  have htaken : (Table.ofList registered).index.contains (fold declaration.name) =
      Named.has registered declaration.name := by
    rw [(Table.isExact_ofList h).contains_eq, Table.entries_ofList]
  rw [registerInto, htaken, register]
  by_cases hname : Named.has registered declaration.name = true
  · rw [if_pos hname, if_pos hname]
    rfl
  · rw [if_neg hname, if_neg hname]
    cases declaration.build with
    | error e => rfl
    | ok resource => exact congrArg Except.ok (Table.ofList_concat registered resource).symm

/-- What is registered keeps its names distinct. -/
theorem distinct_of_register {registered registered' : List Resource}
    {declaration : ResourceDeclaration} (h : Named.Distinct registered)
    (hregister : register registered declaration = .ok registered') :
    Named.Distinct registered' := by
  simp only [register, guard_eq_ok_iff, bind_eq_ok_iff, pure_eq_ok_iff, Bool.not_eq_true,
    ResourceDeclaration.build_eq_ok_iff] at hregister
  obtain ⟨hfresh, _, ⟨-, rfl⟩, rfl⟩ := hregister
  refine List.pairwise_append.mpr ⟨h, List.pairwise_singleton _ _, ?_⟩
  intro earlier hearlier resource hresource
  obtain rfl := List.mem_singleton.mp hresource
  exact Named.has_eq_false_iff.mp hfresh earlier hearlier

/-- **Registering a list of declarations in a table** is registering them. Induction on the list;
what is registered keeps its names distinct. -/
theorem foldlM_registerInto (declarations : List ResourceDeclaration) {registered : List Resource}
    (h : Named.Distinct registered) :
    declarations.foldlM registerInto (.ofList registered) =
      (declarations.foldlM register registered).map Table.ofList := by
  induction declarations generalizing registered with
  | nil => rfl
  | cons declaration declarations ih =>
      rw [List.foldlM_cons, List.foldlM_cons, registerInto_ofList h]
      cases hregister : register registered declaration with
      | error e => rfl
      | ok registered' => exact ih (distinct_of_register h hregister)

namespace Registry

/-- The table of the resource types of a registry. -/
def table (registry : Registry) : Table Resource :=
  .ofList registry.resourceTypes

/-- Fill a table with the resource types of a list of declarations. -/
def tabulate (declarations : List ResourceDeclaration) : Except BuildError (Table Resource) :=
  declarations.foldlM registerInto {}

/-- **Filling a table is building the registry**, and fails where the build does. -/
theorem tabulate_eq (declarations : List ResourceDeclaration) :
    tabulate declarations = (build declarations).map table := by
  rw [tabulate, build]
  refine (foldlM_registerInto declarations List.Pairwise.nil).trans ?_
  cases declarations.foldlM register [] with
  | error e => rfl
  | ok registered =>
      change Except.ok _ = Except.ok (table _)
      rw [table, resourceTypes, Catalog.toList_ofList]

end Registry

/-! ### The schema of a path by byte offsets -/

section Longest

variable {path : List Char} {schemas : List (String × Namespace)}

theorem longestQualified?_eq_argmax :
    longestQualified? path schemas =
      ((schemas.filter fun schema => Qualifies schema.1 path).argmax
          fun schema => schema.1.length).map
        fun schema => ⟨schema.1, schema.2, path.drop (schema.1.length + 1)⟩ := by
  simpa using longestQualified?_eq id path schemas

/-- The path begins with the URN that is chosen. -/
theorem afterUrn?_of_longestQualified? {best : Qualified}
    (h : longestQualified? path schemas = some best) :
    afterUrn? best.urn.toList path = some best.rest := by
  rw [longestQualified?_eq_argmax] at h
  obtain ⟨schema, hschema, rfl⟩ := Option.map_eq_some_iff.mp h
  have hqualifies := (List.mem_filter.mp (List.argmax_mem hschema)).2
  rw [afterUrn?_eq, if_pos (of_decide_eq_true hqualifies)]

/-- A schema behind others is chosen if the path begins with it and its URN is longer than the best
one before it. -/
theorem longestQualified?_concat (schema : String × Namespace) :
    longestQualified? path (schemas ++ [schema]) =
      match afterUrn? schema.1.toList path with
      | none => longestQualified? path schemas
      | some rest =>
          if (longestQualified? path schemas).all fun best => best.urn.length < schema.1.length then
            some ⟨schema.1, schema.2, rest⟩
          else longestQualified? path schemas := by
  rw [longestQualified?_eq_argmax, longestQualified?_eq_argmax, afterUrn?_eq, List.filter_append]
  by_cases h : Qualifies schema.1 path
  · rw [if_pos h, List.filter_cons_of_pos (by simpa using h), List.filter_nil, List.argmax_concat]
    cases (schemas.filter fun schema => Qualifies schema.1 path).argmax
        fun schema => schema.1.length with
    | none => rfl
    | some best =>
        simp only [Option.map_some, Option.all_some, decide_eq_true_iff]
        split <;> rfl
  · rw [if_neg h, List.filter_cons_of_neg (by simpa using h), List.filter_nil, List.append_nil]

end Longest

/-- The schema takes the place of the best one before it, if the path begins with its URN and that
has more bytes. -/
def improve (path : String) (best? : Option Qualified) (schema : String × Namespace) :
    Except AccessError (Option Qualified) := do
  match ← stripUrn path schema.1 with
  | none => return best?
  | some rest =>
      if best?.all fun best => best.urn.utf8ByteSize < schema.1.utf8ByteSize then
        return some ⟨schema.1, schema.2, rest⟩
      else return best?

/-- **One schema** is compared with the best before it by bytes as it is by characters. -/
theorem improve_longestQualified? (path : String) (schemas : List (String × Namespace))
    (schema : String × Namespace) :
    improve path (longestQualified? path.toList schemas) schema =
      .ok (longestQualified? path.toList (schemas ++ [schema])) := by
  rw [improve, stripUrn_eq, ok_bind, longestQualified?_concat]
  cases hrest : afterUrn? schema.1.toList path.toList with
  | none => rfl
  | some rest =>
      cases hbest : longestQualified? path.toList schemas with
      | none => rfl
      | some best =>
          have hbytes :=
            utf8ByteSize_lt_iff_of_afterUrn? (afterUrn?_of_longestQualified? hbest) hrest
          simp only [Option.all_some, decide_eq_true_iff, hbytes]
          split <;> rfl

/-- **The URN with the most bytes is the longest one.** Induction on the schemas from the back: the
best one so far is the longest of those before. -/
theorem foldlM_improve (path : String) (schemas : List (String × Namespace)) :
    schemas.foldlM (improve path) none = .ok (longestQualified? path.toList schemas) := by
  induction schemas using List.reverseRecOn with
  | nil => rfl
  | append_singleton schemas schema ih =>
      rw [List.foldlM_append, ih, ← improve_longestQualified?]
      exact bind_pure (improve path (longestQualified? path.toList schemas) schema)

namespace Resource

/-- The schema that a path belongs to and the path within it, by byte offsets. -/
def locateChecked (resource : Resource) (path : String) :
    Except AccessError (Option (Namespace × List Char)) := do
  match ← resource.namespaces.foldlM (improve path) none with
  | some best => return some (best.space, best.rest)
  | none => return if hasScheme path then none else some (.core, path.toList)

theorem locateChecked_eq (resource : Resource) (path : String) :
    resource.locateChecked path = .ok (resource.locate? path.toList) := by
  rw [locateChecked, foldlM_improve, hasScheme_eq, ok_bind, locate?]
  cases longestQualified? path.toList resource.namespaces <;> rfl

/-! ### Targets by positions -/

/-- The table of the attributes of a resource type. -/
def attributeTable (resource : Resource) : Table Attribute :=
  .ofList resource.attributes.toList

/-- The target of segments within the core schema. -/
def coreTargetChecked (resource : Resource) (segments : Array String) :
    Except AccessError (Option Target) := do
  let first ← entryAt segments 0
  if resource.isNative first then
    match segments[1]? with
    | none => return some (.plain resource.identifier false .core)
    | some name =>
        let some a ← resource.attributeTable.fetch first | return none
        return (a.part? name).map fun part => .plain part.storageName part.isComplex .core
  else
    let some a ← resource.attributeTable.fetch first | return none
    match segments[1]? with
    | none => return some (.plain a.storageName a.isComplex .core)
    | some name =>
        if !a.isComplex then return none
        return (a.part? name).map fun part => .fragment a.storageName part.storageName

/-- The target of segments within the extension of that URN. -/
def extensionTargetChecked (resource : Resource) (urn : String) (segments : Array String) :
    Except AccessError (Option Target) :=
  if 1 < segments.size then return none
  else
    match resource.extension? urn with
    | none => return none
    | some extension => do
        let first ← entryAt segments 0
        return (extension.field? first).map fun field =>
          .plain field.storageName false (.extension urn)

/-- The target of segments within one schema of a resource. -/
def targetInChecked (resource : Resource) :
    Namespace → Array String → Except AccessError (Option Target)
  | .core, segments => resource.coreTargetChecked segments
  | .extension urn, segments => resource.extensionTargetChecked urn segments

/-- Resolve a path with every access in sight. -/
def resolveChecked (resource : Resource) (path : String) :
    Except AccessError (Except FilterError Target) := do
  match ← resource.locateChecked path with
  | none => return .error (.unknownAttribute path resource.name)
  | some (space, rest) =>
      let segments := (rest.splitOn '.').map String.ofList
      if 2 < segments.length then return .error (.pathTooDeep path)
      if "" ∈ segments then return .error (.unknownAttribute path resource.name)
      match ← resource.targetInChecked space segments.toArray with
      | none => return .error (.unknownAttribute path resource.name)
      | some target => return .ok target

/-! ### No access fails -/

section Regular

variable {resource : Resource} (h : Named.Distinct resource.attributes.toList)
include h

/-- Attributes are found through their table as they are in the catalog. -/
theorem fetch_attributeTable (name : String) :
    resource.attributeTable.fetch name = .ok (resource.attribute? name) :=
  Table.fetch_ofList h name

/-- **The segments of a path are there**, and lead to the target within the core schema. -/
theorem coreTargetChecked_eq (path : AttributePath) :
    resource.coreTargetChecked path.segments.toArray = .ok (resource.coreTarget? path) := by
  cases path with
  | simple name =>
      have hfirst : entryAt (AttributePath.simple name).segments.toArray 0 = .ok name := rfl
      have hsecond : (AttributePath.simple name).segments.toArray[1]? = none := rfl
      rw [coreTargetChecked, hfirst, coreTarget?_simple]
      simp only [hsecond, fetch_attributeTable h, ok_bind]
      cases resource.isNative name <;> cases resource.attribute? name <;> rfl
  | part parent name =>
      have hfirst : entryAt (AttributePath.part parent name).segments.toArray 0 = .ok parent := rfl
      have hsecond : (AttributePath.part parent name).segments.toArray[1]? = some name := rfl
      rw [coreTargetChecked, hfirst, coreTarget?_part]
      simp only [hsecond, fetch_attributeTable h, ok_bind]
      cases resource.attribute? parent with
      | none => cases resource.isNative parent <;> rfl
      | some carrier =>
          simp only [Option.bind_some]
          cases resource.isNative parent <;> cases carrier.isComplex <;> rfl

omit h in
/-- The segments of a path lead to the target within an extension, as one of them only is asked
for. -/
theorem extensionTargetChecked_eq (urn : String) (path : AttributePath) :
    resource.extensionTargetChecked urn path.segments.toArray =
      .ok (resource.extensionTarget? urn path) := by
  cases path with
  | simple name =>
      have hfirst : entryAt (AttributePath.simple name).segments.toArray 0 = .ok name := rfl
      rw [extensionTargetChecked, hfirst, extensionTarget?_simple]
      cases resource.extension? urn <;> rfl
  | part parent name => rfl

/-- The segments of a path lead to the target within each schema. -/
theorem targetInChecked_eq (space : Namespace) (path : AttributePath) :
    resource.targetInChecked space path.segments.toArray =
      .ok (resource.targetIn? space path) := by
  cases space with
  | core => exact coreTargetChecked_eq h path
  | extension urn => exact extensionTargetChecked_eq urn path

/-- **Resolution with every access in sight never fails**, and resolves as the resource does. -/
theorem resolveChecked_eq (path : String) :
    resource.resolveChecked path = .ok (resource.resolve path) := by
  rw [resolveChecked, locateChecked_eq, ok_bind, resolve]
  cases resource.locate? path.toList with
  | none => rfl
  | some located =>
      obtain ⟨space, rest⟩ := located
      cases hpath : AttributePath.ofChars? rest with
      | none =>
          have hdeep : 2 < ((rest.splitOn '.').map String.ofList).length := by
            rw [List.length_map]
            exact AttributePath.two_lt_of_ofChars?_eq_none hpath
          simp only [if_pos hdeep, hpath]
          rfl
      | some attributePath =>
          have hdepth : ¬ 2 < attributePath.segments.length :=
            Nat.not_lt.mpr attributePath.length_segments_le
          simp only [AttributePath.segments_of_ofChars? hpath, if_neg hdepth, hpath,
            ← AttributePath.hasEmptySegment_iff, targetInChecked_eq h, ok_bind]
          cases attributePath.hasEmptySegment with
          | true => rfl
          | false => cases resource.targetIn? space attributePath <;> rfl

end Regular

end Resource

namespace Registry

/-- Resolve a path for a resource type with every access in sight. -/
def resolveChecked (registry : Registry) (path name : String) :
    Except AccessError (Except FilterError Target) := do
  match ← registry.table.fetch name with
  | none => return .error (.unknownResourceType name)
  | some resource => resource.resolveChecked path

section Build

variable {declarations : List ResourceDeclaration} {registry : Registry}

/-- Resource types are found through their table as they are in the registry. -/
theorem fetch_table (h : build declarations = .ok registry) (name : String) :
    registry.table.fetch name = .ok (registry.resource? name) :=
  Table.fetch_ofList (distinct_resourceTypes_of_build h) name

/-- Resolution for any resource type never fails, and resolves as the registry does. -/
theorem resolveChecked_eq (h : build declarations = .ok registry) (path name : String) :
    registry.resolveChecked path name = .ok (registry.resolve path name) := by
  rw [resolveChecked, fetch_table h, ok_bind, resolve, require]
  cases hfind : registry.resource? name with
  | none => rfl
  | some resource =>
      have hregular := resource_isRegular_of_build h (mem_of_resource? hfind)
      exact Resource.resolveChecked_eq hregular.distinct path

end Build

/-- **Look-ups of a registry find the only entry of a name, and access nothing that is not there.**
Filling a table with the declarations succeeds as the build does, and gives the table of the
registry, whose index agrees with that of the catalog and holds no position out of range. A resource
type is the only one of its name, letter case aside, and is found at the position that the index
gives, or there is none. The same holds of the attributes of each resource type. And no path,
whatever its characters, is cut within one of them or has a segment accessed that it does not have:
every resolution comes to its target or its error. -/
theorem access_of_build {declarations : List ResourceDeclaration} {registry : Registry}
    (h : build declarations = .ok registry) :
    tabulate declarations = .ok registry.table ∧
      registry.table.IsTableOf registry.resources ∧
      (∀ name, (registry.resourceTypes.filter fun resource => Alike resource.name name) =
          (registry.resource? name).toList ∧
        registry.table.fetch name = .ok (registry.resource? name)) ∧
      (∀ resource ∈ registry.resourceTypes,
        resource.attributeTable.IsTableOf resource.attributes ∧
          (∀ name, (resource.attributes.toList.filter fun a => Alike a.name name) =
              (resource.attribute? name).toList ∧
            resource.attributeTable.fetch name = .ok (resource.attribute? name)) ∧
          ∀ path, resource.resolveChecked path = .ok (resource.resolve path)) ∧
      ∀ path name, registry.resolveChecked path name = .ok (registry.resolve path name) := by
  have hdistinct := distinct_resourceTypes_of_build h
  refine ⟨?_, Table.isTableOf_ofList hdistinct, fun name => ⟨?_, fetch_table h name⟩, ?_,
    resolveChecked_eq h⟩
  · rw [tabulate_eq, h]
    rfl
  · rw [resource?_eq_find?]
    exact hdistinct.filter_eq name
  · intro resource hresource
    have hattributes := (resource_isRegular_of_build h hresource).distinct
    refine ⟨Table.isTableOf_ofList hattributes, fun name => ⟨?_, ?_⟩,
      Resource.resolveChecked_eq hattributes⟩
    · rw [Resource.attribute?_eq_find?]
      exact hattributes.filter_eq name
    · exact Resource.fetch_attributeTable hattributes name

/-- The URN of a core schema takes eight bytes, and behind the eighth byte of this path stands the
second of the three bytes of its last character. A cut there would fail; the path is refused
without one, as it begins with `urn:`. The other resource type is found through the index, and is
the only one of its name. -/
theorem access_of_build_team :
    ∃ registry resource, build [Sample.team, Sample.crew] = .ok registry ∧
      backFrom "urn:tea\u20ac" Sample.team.schema.utf8ByteSize = .error (.offBoundary 8) ∧
      registry.resolveChecked "urn:tea\u20ac" "team" =
        .ok (.error (.unknownAttribute "urn:tea\u20ac" "team")) ∧
      registry.table.fetch "crew" = .ok (some resource) ∧
      (registry.resourceTypes.filter fun resource => Alike resource.name "crew") = [resource] := by
  have hsample : ∃ registry, build [Sample.team, Sample.crew] = .ok registry ∧
      registry.resolve "urn:tea\u20ac" "team" =
        .error (.unknownAttribute "urn:tea\u20ac" "team") ∧
      (registry.resource? "crew").isSome = true := by
    apply exists_ok_of_decide
    decide +kernel
  obtain ⟨registry, hbuild, hresolve, hsome⟩ := hsample
  obtain ⟨resource, hresource⟩ := Option.isSome_iff_exists.mp hsome
  obtain ⟨-, -, hnames, -, hchecked⟩ := access_of_build hbuild
  obtain ⟨honly, hfetch⟩ := hnames "crew"
  refine ⟨registry, resource, hbuild, by decide +kernel, ?_, ?_, ?_⟩
  · rw [hchecked, hresolve]
  · rw [hfetch, hresource]
  · rw [honly, hresource]
    rfl

end Registry

end ScimDirectory
