import ScimDirectory.Proofs.Discovery.Listing
import ScimDirectory.Proofs.Filter.Failure

/-!
# Qualified paths inside groupings

A path that is qualified by a URN belongs to the schema of that URN, and no grouping should make it
a part of its carrier. Two functions decide what qualifies a path. Resolution compares the path with
the URNs of the resource type. A grouping does not know the resource type: it leaves a path alone
that begins with `urn:`, and one with a dot in it.

Nothing asks of a declared URN that it begin with `urn:`. Where it does, or is dotted, the two agree
on all paths behind it. Where it does neither, they agree on no undotted path: each is a path of its
schema on its own, and the part of some carrier inside a grouping. `Sample.guild` has such a URN.

## Main results

* `Resource.readsAsQualified_iff`: the paths that resolution takes for qualified.
* `Filter.compile_grouped`: of nested groupings the innermost one counts.
* `Registry.compile_grouping_deepCarrier_ne`: a path that is neither dotted nor begins with `urn:`
  is not left alone.
* `Registry.compile_grouped_iff_of_urn`: the URNs behind which groupings leave paths alone.
* `Registry.compile_grouped_iff`: **where scoping and resolution agree on the qualified paths.**
-/

namespace ScimDirectory

/-- A resource type whose schema is called by a plain name, not by a URN. -/
def Sample.guild : ResourceDeclaration where
  name := "guild"
  schema := "guild"
  attributes := [
    { path := "label" },
    { path := "members", type := .complex },
    { path := "members.value" } ]

/-! ### Paths that resolution takes for qualified -/

/-- Resolution finds a schema of the resource type by the URN that the path begins with. -/
def Resource.ReadsAsQualified (resource : Resource) (path : String) : Prop :=
  (longestQualified? path.toList resource.namespaces).isSome = true

instance (resource : Resource) (path : String) : Decidable (resource.ReadsAsQualified path) :=
  inferInstanceAs (Decidable (_ = true))

/-- **A path reads as qualified** when it begins with the URN of the core schema or of an extension,
letter case aside, and a colon. -/
theorem Resource.readsAsQualified_iff {resource : Resource} {path : String} :
    resource.ReadsAsQualified path ↔
      ∃ urn ∈ resource.schema :: resource.extensions.map Extension.urn,
        Qualifies urn path.toList := by
  have hurns : resource.schema :: resource.extensions.map Extension.urn =
      resource.namespaces.map Prod.fst := by
    simp [Resource.namespaces]
  rw [Resource.ReadsAsQualified, Option.isSome_iff_ne_none, Ne, longestQualified?_eq_none_iff,
    hurns]
  simp

/-! ### URNs by their scheme -/

/-- With a colon behind it the URN begins with `urn:` in any letter case. -/
def HasUrnScheme (urn : String) : Prop :=
  isUrnQualified (urn ++ ":").toList = true

instance (urn : String) : Decidable (HasUrnScheme urn) :=
  inferInstanceAs (Decidable (_ = true))

/-- A path behind a URN is that URN, letter case aside, a colon and the rest. -/
theorem qualifies_iff {urn : String} {path : List Char} :
    Qualifies urn path ↔
      ∃ front rest, path = front ++ ':' :: rest ∧ Alike (String.ofList front) urn := by
  have hafter := afterUrn?_eq urn path
  constructor
  · intro h
    rw [if_pos h] at hafter
    obtain ⟨front, hpath, hfront⟩ := afterUrn?_eq_some_iff.mp hafter
    refine ⟨front, _, hpath, ?_⟩
    rwa [alike_iff_map, String.toList_ofList]
  · rintro ⟨front, rest, hpath, hfront⟩
    rw [alike_iff_map, String.toList_ofList] at hfront
    by_contra hnot
    rw [if_neg hnot, afterUrn?_eq_some_iff.mpr ⟨front, hpath, hfront⟩] at hafter
    cases hafter

/-- The scheme ends at the first colon of a text, so what stands behind that does not matter. -/
theorem take_eq_urnScheme_iff {front rest : List Char} :
    (front ++ ':' :: rest).take 4 = urnScheme ↔ (front ++ [':']).take 4 = urnScheme := by
  match front with
  | [] | [_] | [_, _] => simp [urnScheme]
  | [_, _, _] | _ :: _ :: _ :: _ :: _ => simp [urnScheme]

/-- **Paths behind a URN begin with `urn:` where the URN does.** -/
theorem Qualifies.isUrnQualified_iff_hasUrnScheme {urn : String} {path : List Char}
    (h : Qualifies urn path) : isUrnQualified path = true ↔ HasUrnScheme urn := by
  obtain ⟨front, rest, rfl, hfront⟩ := qualifies_iff.mp h
  have hscheme : "urn:".toList.map Char.toLower = urnScheme := rfl
  have hcolon : (':' : Char).toLower = ':' := rfl
  rw [alike_iff_map, String.toList_ofList] at hfront
  rw [HasUrnScheme, isUrnQualified_iff, isUrnQualified_iff, alike_iff_map, alike_iff_map, hscheme]
  simp only [String.toList_ofList, String.toList_append, List.map_take, List.map_append,
    List.map_cons, hfront, hcolon]
  exact take_eq_urnScheme_iff

/-- A path behind a dotted URN is dotted. -/
theorem Qualifies.dot_mem {urn : String} {path : List Char} (h : Qualifies urn path)
    (hdot : '.' ∈ urn.toList) : '.' ∈ path := by
  obtain ⟨front, rest, rfl, hfront⟩ := qualifies_iff.mp h
  have hmem := (dot_mem_iff_of_alike hfront).mpr hdot
  rw [String.toList_ofList] at hmem
  exact List.mem_append_left _ hmem

/-- A URN with a colon behind it is a path that it qualifies, and has no dots of its own. -/
theorem qualifies_self (urn : String) :
    Qualifies urn (urn ++ ":").toList ∧ ('.' ∈ (urn ++ ":").toList → '.' ∈ urn.toList) := by
  constructor
  · refine qualifies_iff.mpr ⟨urn.toList, [], String.toList_append, ?_⟩
    rw [String.ofList_toList]
  · simp

/-! ### Leaves inside groupings -/

namespace Filter

/-- The filter asks for the presence of the path, or compares it with a literal. -/
inductive IsLeafOn (path : String) : Filter → Prop
  | present : IsLeafOn path (present path)
  | compare (token value : String) : IsLeafOn path (compare path token value)

/-- The filter inside groupings on the carriers, the first one outermost. -/
def grouped (carriers : List String) (filter : Filter) : Filter :=
  carriers.foldr grouping filter

/-- **Of nested groupings the innermost one counts**, and the scope around them where there is
none. -/
theorem compile_grouped {resource : Resource} {escaping : Escaping} (filter : Filter)
    (carriers : List String) (scope : Option String) :
    (filter.grouped carriers).compile resource escaping scope =
      filter.compile resource escaping (carriers.getLast?.or scope) := by
  induction carriers generalizing scope with
  | nil => rfl
  | cons carrier carriers ih =>
      refine (ih (some carrier)).trans ?_
      rw [List.getLast?_cons]
      cases carriers.getLast? <;> rfl

/-- A path that is dotted or begins with `urn:` reads alike inside and outside of groupings. -/
theorem scopedPath_eq_self {path : String}
    (h : isUrnQualified path.toList = true ∨ '.' ∈ path.toList) (scope : Option String) :
    scopedPath scope path = path := by
  cases scope with
  | none => rfl
  | some carrier => exact if_pos (by simpa using h.symm)

/-- A leaf takes nothing from its surroundings but the path as it reads there. -/
theorem IsLeafOn.compile_eq {path : String} {leaf : Filter} (hleaf : leaf.IsLeafOn path)
    {resource : Resource} {escaping : Escaping} {scope : Option String}
    (h : scopedPath scope path = path) :
    leaf.compile resource escaping scope = leaf.compile resource escaping none := by
  have hnone : scopedPath none path = path := rfl
  cases hleaf with
  | present => rw [compile_present path "", compile_present path "", h, hnone]
  | compare token value => rw [compile_compare, compile_compare, h, hnone]

end Filter

/-! ### A path that is not left alone -/

namespace Resource

variable {resource : Resource}

/-- A carrier of dots: one for each character of a URN of the resource type, and two more. -/
def deepCarrier (resource : Resource) : String :=
  String.ofList ('.' :: '.' ::
    ((resource.schema :: resource.extensions.map Extension.urn).map String.toList).flatten.map
      fun _ => '.')

/-- No URN reaches beyond the dots of the deep carrier. -/
theorem isUnqualified_dotted_deepCarrier (resource : Resource) (name : String) :
    resource.IsUnqualified (dotted resource.deepCarrier name) := by
  constructor
  · rw [alike_iff_map, String.toList_ofList, toList_dotted, deepCarrier, String.toList_ofList]
    intro h
    have hfirst : Char.toLower '.' = Char.toLower 'u' := (List.cons.inj h).1
    exact absurd hfirst (by decide)
  · rintro urn hurn ⟨-, hcolon⟩
    have hshort : urn.length < resource.deepCarrier.toList.length := by
      have hmem := List.mem_map_of_mem (f := String.toList) hurn
      have hle := (List.sublist_flatten_of_mem hmem).length_le
      rw [String.length_toList] at hle
      rw [deepCarrier, String.toList_ofList, List.length_cons, List.length_cons, List.length_map]
      omega
    rw [toList_dotted, List.getElem?_append_left hshort] at hcolon
    have hmem := List.mem_of_getElem? hcolon
    simp [deepCarrier] at hmem

/-- Inside a grouping on the deep carrier a plain name is too deep a path. -/
theorem resolve_dotted_deepCarrier (resource : Resource) (name : String) :
    resource.resolve (dotted resource.deepCarrier name) =
      .error (.pathTooDeep (dotted resource.deepCarrier name)) := by
  have hlocate := locate?_of_isUnqualified (resource.isUnqualified_dotted_deepCarrier name)
  have hread : AttributePath.ofChars? (dotted resource.deepCarrier name).toList = none := by
    rw [toList_dotted, deepCarrier, String.toList_ofList]
    rfl
  simp only [resolve, hlocate, hread]
  rfl

/-- The path that is refused as too deep is the one that was to be resolved. -/
theorem eq_of_resolve_eq_pathTooDeep {path deep : String}
    (h : resource.resolve path = .error (.pathTooDeep deep)) : deep = path := by
  rw [resolve] at h
  split at h
  · cases h
  · split at h
    · cases h
      rfl
    · split at h
      · cases h
      · split at h <;> cases h

end Resource

namespace Registry

variable {registry : Registry} {name : String} {resource : Resource}

/-- **A plain path is not left alone**: where it is neither dotted nor begins with `urn:`, there is
a grouping inside which its presence is refused for another reason than outside, if it is refused
outside at all. -/
theorem compile_grouping_deepCarrier_ne (h : registry.resource? name = some resource)
    (config : CompilerConfig) {path : String} (hurn : isUrnQualified path.toList = false)
    (hdot : '.' ∉ path.toList) :
    registry.compile config (.grouping resource.deepCarrier (.present path)) name ≠
      registry.compile config (.present path) name := by
  have hscoped : scopedPath (some resource.deepCarrier) path =
      dotted resource.deepCarrier path := if_neg (by simp [hurn, hdot])
  have hinside : registry.compile config (.grouping resource.deepCarrier (.present path)) name =
      .error (.pathTooDeep (dotted resource.deepCarrier path)) := by
    rw [compile_eq_error_iff h, Filter.compile_grouping, Filter.compile_present path "", hscoped,
      Resource.leafFilter_eq_error_iff]
    exact .inl (resource.resolve_dotted_deepCarrier path)
  intro hsame
  rw [hinside, eq_comm, compile_eq_error_iff h, Filter.compile_present path "",
    Resource.leafFilter_eq_error_iff] at hsame
  rcases hsame with hresolve | ⟨-, hother, -⟩
  · -- the path that is named in the error has a dot in it
    have hpath : dotted resource.deepCarrier path = path :=
      Resource.eq_of_resolve_eq_pathTooDeep hresolve
    refine hdot ?_
    rw [← hpath, toList_dotted]
    exact List.mem_append_right _ List.mem_cons_self
  · cases hother

/-- **Groupings leave the paths behind a URN alone**, all of them and in all groupings, exactly
where the URN begins with `urn:` or is dotted. -/
theorem compile_grouped_iff_of_urn (h : registry.resource? name = some resource)
    (config : CompilerConfig) (urn : String) :
    (∀ path leaf carriers, Qualifies urn path.toList → Filter.IsLeafOn path leaf →
      registry.compile config (leaf.grouped carriers) name = registry.compile config leaf name) ↔
      HasUrnScheme urn ∨ '.' ∈ urn.toList := by
  constructor
  · intro hleft
    obtain ⟨hqualifies, hdots⟩ := qualifies_self urn
    rw [← hqualifies.isUrnQualified_iff_hasUrnScheme]
    by_contra hplain
    rw [not_or, Bool.not_eq_true] at hplain
    exact compile_grouping_deepCarrier_ne h config hplain.1 (fun hdot => hplain.2 (hdots hdot))
      (hleft (urn ++ ":") _ [resource.deepCarrier] hqualifies .present)
  · intro hurn path leaf carriers hqualifies hleaf
    have hpath : isUrnQualified path.toList = true ∨ '.' ∈ path.toList :=
      hurn.imp hqualifies.isUrnQualified_iff_hasUrnScheme.mpr hqualifies.dot_mem
    refine bind_congr fun resource => ?_
    rw [Filter.compile_grouped, hleaf.compile_eq (Filter.scopedPath_eq_self hpath _)]

/-- **Where scoping and resolution agree on the qualified paths.** For every registry and every
resource type in it: the presences and comparisons of all paths that resolution reads as qualified
compile inside any groupings, nested to any depth, as they do outside, errors included, if and only
if each URN of the resource type begins with `urn:`, letter case aside, or is dotted. -/
theorem compile_grouped_iff (h : registry.resource? name = some resource)
    (config : CompilerConfig) :
    (∀ path leaf carriers, resource.ReadsAsQualified path → Filter.IsLeafOn path leaf →
      registry.compile config (leaf.grouped carriers) name = registry.compile config leaf name) ↔
      ∀ urn ∈ resource.schema :: resource.extensions.map Extension.urn,
        HasUrnScheme urn ∨ '.' ∈ urn.toList := by
  constructor
  · intro hleft urn hurn
    refine (compile_grouped_iff_of_urn h config urn).mp fun path leaf carriers hqualifies => ?_
    exact hleft path leaf carriers (Resource.readsAsQualified_iff.mpr ⟨urn, hurn, hqualifies⟩)
  · intro hurns path leaf carriers hreads
    obtain ⟨urn, hurn, hqualifies⟩ := Resource.readsAsQualified_iff.mp hreads
    exact (compile_grouped_iff_of_urn h config urn).mpr (hurns urn hurn) path leaf carriers
      hqualifies

/-- In the sample, whose URNs all begin with `urn:`, the field of the extension is compared under
its URN inside groupings on any carriers as it is outside. -/
theorem compile_grouped_iff_team :
    ∃ registry resource, build [Sample.team] = .ok registry ∧
      registry.resource? "team" = some resource ∧
      ∀ carriers, registry.compile {}
        (.grouped carriers (.compare "URN:team:X:level" "eq" "1")) "team" = .ok "level=1" := by
  have hsample : ∃ registry, build [Sample.team] = .ok registry ∧
      (∃ resource ∈ registry.resource? "team", resource.ReadsAsQualified "URN:team:X:level" ∧
        ∀ urn ∈ resource.schema :: resource.extensions.map Extension.urn,
          HasUrnScheme urn ∨ '.' ∈ urn.toList) ∧
      registry.compile {} (.compare "URN:team:X:level" "eq" "1") "team" = .ok "level=1" := by
    apply exists_ok_of_decide
    decide +kernel
  obtain ⟨registry, hbuild, ⟨resource, hresource, hreads, hurns⟩, houtside⟩ := hsample
  have hleft := (compile_grouped_iff hresource {}).mpr hurns
  refine ⟨registry, resource, hbuild, hresource, fun carriers => ?_⟩
  rw [hleft "URN:team:X:level" _ carriers hreads (.compare "eq" "1"), houtside]

/-- **A path behind a plain name is lost inside a grouping.** Resolution knows the schema `guild` by
its name; a grouping takes the path behind it for a part of the carrier. -/
theorem loses_qualified_guild :
    ∃ registry resource, build [Sample.guild] = .ok registry ∧
      registry.resource? "guild" = some resource ∧ resource.ReadsAsQualified "guild:label" ∧
      registry.compile {} (.present "guild:label") "guild" = .ok "label=*" ∧
      registry.compile {} (.grouped ["members"] (.present "guild:label")) "guild" =
        .error (.unknownAttribute "members.guild:label" "guild") := by
  have hsample : ∃ registry, build [Sample.guild] = .ok registry ∧
      (∃ resource ∈ registry.resource? "guild", resource.ReadsAsQualified "guild:label") ∧
      registry.compile {} (.present "guild:label") "guild" = .ok "label=*" ∧
      registry.compile {} (.grouped ["members"] (.present "guild:label")) "guild" =
        .error (.unknownAttribute "members.guild:label" "guild") := by
    apply exists_ok_of_decide
    decide +kernel
  obtain ⟨registry, hbuild, ⟨resource, hresource, hqualified⟩, houtside, hinside⟩ := hsample
  exact ⟨registry, resource, hbuild, hresource, hqualified, houtside, hinside⟩

end Registry

end ScimDirectory
