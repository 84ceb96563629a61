import ScimDirectory.Proofs.Agreement
import ScimDirectory.Proofs.Schema.DeclaredResolution

/-!
# Letter case in paths

A path is compared with names at several places: with the URNs of the schemas, with `urn:`, with the
name attribute, with attributes, their parts and the fields of extensions. At each of them the case
of ASCII letters is set aside, and none of them looks at the path in any other way than to cut it at
a colon or a dot, which folding leaves where they are. So paths that are alike lead to the same
target. What is left of their letter case is in the errors, which show the path as it was asked for.

## Main results

* `Resource.locate?_alike`: alike paths belong to the same schema, and have alike rests there.
* `AttributePath.ofChars?_alike`: they are read as alike segments.
* `Resource.targetIn?_alike`: alike segments lead to the same target.
* `Resource.resolve_alike`: **alike paths resolve to the same target, or fail with alike errors**.
-/

namespace ScimDirectory

/-- Two errors of one kind whose texts are **alike**. -/
inductive AlikeErrors : FilterError → FilterError → Prop
  | unknownResourceType {a b : String} (hname : Alike a b) :
      AlikeErrors (.unknownResourceType a) (.unknownResourceType b)
  | unknownAttribute {p q a b : String} (hpath : Alike p q) (hresource : Alike a b) :
      AlikeErrors (.unknownAttribute p a) (.unknownAttribute q b)
  | pathTooDeep {p q : String} (hpath : Alike p q) : AlikeErrors (.pathTooDeep p) (.pathTooDeep q)
  | unknownOperator {s t : String} (htoken : Alike s t) :
      AlikeErrors (.unknownOperator s) (.unknownOperator t)
  | unsupportedOnFragment (op : Operator) {p q : String} (hpath : Alike p q) :
      AlikeErrors (.unsupportedOnFragment op p) (.unsupportedOnFragment op q)

/-! ### Texts -/

/-- Two texts are alike, character by character. -/
def AlikeChars (a b : List Char) : Prop :=
  a.map Char.toLower = b.map Char.toLower

theorem alike_ofList_iff {a b : List Char} :
    Alike (String.ofList a) (String.ofList b) ↔ AlikeChars a b := by
  rw [alike_iff_map, String.toList_ofList, String.toList_ofList, AlikeChars]

namespace AlikeChars

variable {a b : List Char} (h : AlikeChars a b)
include h

theorem take (n : Nat) : AlikeChars (a.take n) (b.take n) := by
  rw [AlikeChars, List.map_take, List.map_take, show a.map Char.toLower = _ from h]

theorem drop (n : Nat) : AlikeChars (a.drop n) (b.drop n) := by
  rw [AlikeChars, List.map_drop, List.map_drop, show a.map Char.toLower = _ from h]

/-- Alike texts have a colon at the same places. -/
theorem getElem?_eq_colon_iff (n : Nat) : a[n]? = some ':' ↔ b[n]? = some ':' := by
  have hcolon : ∀ text : List Char, text[n]? = some ':' ↔
      (text.map Char.toLower)[n]? = some ':' := by
    intro text
    rw [List.getElem?_map]
    cases text[n]? with
    | none => simp
    | some c => simp [toLower_eq_iff]
  rw [hcolon a, hcolon b, show a.map Char.toLower = _ from h]

/-- Alike paths are qualified by the same URNs. -/
theorem qualifies_iff (urn : String) : Qualifies urn a ↔ Qualifies urn b := by
  have htake := alike_ofList_iff.mpr (h.take urn.length)
  refine and_congr ⟨fun hurn => htake.symm.trans hurn, fun hurn => htake.trans hurn⟩ ?_
  exact h.getElem?_eq_colon_iff urn.length

/-- Alike paths both begin with `urn:` or both do not. -/
theorem isUrnQualified_eq : isUrnQualified a = isUrnQualified b := by
  have htake := alike_ofList_iff.mpr (h.take 4)
  rw [Bool.eq_iff_iff, isUrnQualified_iff, isUrnQualified_iff]
  exact ⟨fun hurn => htake.symm.trans hurn, fun hurn => htake.trans hurn⟩

end AlikeChars

/-! ### Segments -/

namespace AttributePath

/-- Two paths whose segments are alike. -/
inductive IsAlike : AttributePath → AttributePath → Prop
  | simple {n m : String} (hname : Alike n m) : IsAlike (.simple n) (.simple m)
  | part {p q n m : String} (hparent : Alike p q) (hname : Alike n m) :
      IsAlike (.part p n) (.part q m)

/-- A text that is alike to a path is a path of alike segments. -/
theorem exists_isAlike_of_ofChars? {s t : String} (h : Alike s t) {path : AttributePath}
    (hpath : ofChars? s.toList = some path) :
    ∃ path', ofChars? t.toList = some path' ∧ path.IsAlike path' := by
  cases path with
  | simple name =>
      obtain ⟨hdot, rfl⟩ := ofChars?_eq_simple_iff.mp hpath
      have hdot' := dot_not_mem_of_alike h.symm hdot
      exact ⟨.simple t, ofChars?_eq_simple_iff.mpr ⟨hdot', rfl⟩, .simple h⟩
  | part parent name =>
      obtain ⟨⟨hparent, hname⟩, rfl⟩ := ofChars?_eq_part_iff.mp hpath
      obtain ⟨p, n, rfl, hp, hn⟩ := exists_dotted_of_alike h.symm
      have hp' := dot_not_mem_of_alike hp hparent
      have hn' := dot_not_mem_of_alike hn hname
      exact ⟨.part p n, ofChars?_eq_part_iff.mpr ⟨⟨hp', hn'⟩, rfl⟩, .part hp.symm hn.symm⟩

/-- **Alike texts are read as alike paths**, or neither is a path. -/
theorem ofChars?_alike {a b : List Char} (h : AlikeChars a b) :
    Option.Rel IsAlike (ofChars? a) (ofChars? b) := by
  have hstrings := alike_ofList_iff.mpr h
  rw [← String.toList_ofList (l := a), ← String.toList_ofList (l := b)]
  cases ha : ofChars? (String.ofList a).toList with
  | some path =>
      obtain ⟨path', hb, hpaths⟩ := exists_isAlike_of_ofChars? hstrings ha
      rw [hb]
      exact .some hpaths
  | none =>
      cases hb : ofChars? (String.ofList b).toList with
      | none => exact .none
      | some path =>
          obtain ⟨_, ha', -⟩ := exists_isAlike_of_ofChars? hstrings.symm hb
          rw [ha] at ha'
          cases ha'

theorem isEmpty_eq_of_alike {n m : String} (h : Alike n m) : n.isEmpty = m.isEmpty := by
  rw [Bool.eq_iff_iff, String.isEmpty_iff, String.isEmpty_iff, ← String.toList_eq_nil_iff,
    ← String.toList_eq_nil_iff, ← List.map_eq_nil_iff, alike_iff_map.mp h, List.map_eq_nil_iff]

/-- Alike paths have empty segments at the same places. -/
theorem IsAlike.hasEmptySegment_eq {path path' : AttributePath} (h : path.IsAlike path') :
    path.hasEmptySegment = path'.hasEmptySegment := by
  cases h with
  | simple hname => exact isEmpty_eq_of_alike hname
  | part hparent hname =>
      rw [hasEmptySegment, hasEmptySegment, isEmpty_eq_of_alike hparent,
        isEmpty_eq_of_alike hname]

end AttributePath

/-! ### Resolution -/

namespace Resource

variable (resource : Resource)

/-- **Alike paths belong to the same schema**, with alike rests behind its URN. -/
theorem locate?_alike {a b : List Char} (h : AlikeChars a b) :
    Option.Rel (fun x y => x.1 = y.1 ∧ AlikeChars x.2 y.2) (resource.locate? a)
      (resource.locate? b) := by
  have hlongest : ∀ path, longestQualified? path resource.namespaces =
      ((resource.namespaces.filter fun schema => Qualifies schema.1 path).argmax
          fun schema => schema.1.length).map
        fun schema => ⟨schema.1, schema.2, path.drop (schema.1.length + 1)⟩ := by
    intro path
    have hall := longestQualified?_eq id path resource.namespaces
    simpa using hall
  have hsame : ∀ schema : String × Namespace,
      decide (Qualifies schema.1 a) = decide (Qualifies schema.1 b) := fun schema =>
    decide_eq_decide.mpr (h.qualifies_iff schema.1)
  simp only [locate?, hlongest, hsame, h.isUrnQualified_eq]
  cases (resource.namespaces.filter fun schema => Qualifies schema.1 b).argmax
      fun schema => schema.1.length with
  | some schema => exact .some ⟨rfl, h.drop _⟩
  | none =>
      cases isUrnQualified b with
      | true => exact .none
      | false => exact .some ⟨rfl, h⟩

theorem attribute?_alike {n m : String} (h : Alike n m) :
    resource.attribute? n = resource.attribute? m := by
  rw [attribute?_eq_find?, attribute?_eq_find?, Named.find?_congr h]

theorem isNative_alike {n m : String} (h : Alike n m) :
    resource.isNative n = resource.isNative m := by
  simp only [isNative, Alike, show fold n = fold m from h]

/-- Alike segments lead to the same target in the core schema. -/
theorem coreTarget?_alike {path path' : AttributePath} (h : path.IsAlike path') :
    resource.coreTarget? path = resource.coreTarget? path' := by
  cases h with
  | simple hname =>
      rw [coreTarget?_simple, coreTarget?_simple, resource.isNative_alike hname,
        resource.attribute?_alike hname]
  | @part p q n m hparent hname =>
      have hpart : ∀ a : Attribute, a.part? n = a.part? m := fun a => Named.find?_congr hname
      rw [coreTarget?_part, coreTarget?_part, resource.isNative_alike hparent,
        resource.attribute?_alike hparent]
      simp only [hpart]

/-- Alike segments lead to the same target in an extension. -/
theorem extensionTarget?_alike (urn : String) {path path' : AttributePath}
    (h : path.IsAlike path') :
    resource.extensionTarget? urn path = resource.extensionTarget? urn path' := by
  cases h with
  | @simple n m hname =>
      have hfield : ∀ extension : Extension, extension.field? n = extension.field? m :=
        fun extension => Named.find?_congr hname
      simp only [extensionTarget?_simple, hfield]
  | part hparent hname => rfl

/-- **Alike segments lead to the same target** in each schema. -/
theorem targetIn?_alike (space : Namespace) {path path' : AttributePath} (h : path.IsAlike path') :
    resource.targetIn? space path = resource.targetIn? space path' := by
  cases space with
  | core => exact resource.coreTarget?_alike h
  | extension urn => exact resource.extensionTarget?_alike urn h

/-- **Alike paths resolve to the same target**, or fail with alike errors. -/
theorem resolve_alike {p q : String} (h : Alike p q) :
    Agree AlikeErrors Eq (resource.resolve p) (resource.resolve q) := by
  have hunknown : AlikeErrors (.unknownAttribute p resource.name)
      (.unknownAttribute q resource.name) := .unknownAttribute h Alike.rfl
  have hlocate := resource.locate?_alike (alike_iff_map.mp h)
  rw [resolve, resolve]
  generalize resource.locate? p.toList = x, resource.locate? q.toList = y at hlocate ⊢
  cases hlocate with
  | none => exact .error hunknown
  | @some x y hxy =>
      obtain ⟨space, rest⟩ := x
      obtain ⟨_, rest'⟩ := y
      obtain ⟨rfl, hrest⟩ := hxy
      have hpath := AttributePath.ofChars?_alike hrest
      dsimp only
      generalize AttributePath.ofChars? rest = x, AttributePath.ofChars? rest' = y at hpath ⊢
      cases hpath with
      | none => exact .error (.pathTooDeep h)
      | @some path path' hpaths =>
          dsimp only
          rw [hpaths.hasEmptySegment_eq, resource.targetIn?_alike space hpaths]
          cases path'.hasEmptySegment with
          | true => exact .error hunknown
          | false =>
              cases resource.targetIn? space path' with
              | none => exact .error hunknown
              | some target => exact .ok rfl

end Resource

end ScimDirectory
