import Mathlib.Data.List.Forall2
import Mathlib.Data.List.MinMax
import ScimDirectory.Catalog

/-!
# The same entries in another order

Declarations are lists, and the searches through them run from the front: the first entry of that
name, the longest of several URNs and of two equally long ones the first. Such a search depends on
the order of its list, unless no two entries compete for it. Where names are distinct, what is found
depends on the entries alone.

An entry may hold lists of its own, in another order again. So two lists are compared up to a
relation `Same` that says which entries count as the same one (`Rearranged`). The searches use less
than that: each entry of either list has a counterpart in the other one (`SameEntries`).

## Main results

* `SameEntries.find?_rel`: **a search by name** finds the same entry in both lists.
* `SameEntries.argmax_rel`: **a search for the longest** finds the same entry in both lists.
* `Named.Distinct.find?_eq_of_perm`: a search by name in one list, and in the same list rearranged.
-/

namespace ScimDirectory

variable {α β γ δ : Type} {Same : α → β → Prop} {xs : List α} {ys : List β}

/-- The second list holds the **same entries in another order**. -/
def Rearranged (Same : α → β → Prop) (xs : List α) (ys : List β) : Prop :=
  ∃ arranged, xs.Perm arranged ∧ List.Forall₂ Same arranged ys

/-- Every entry of the first list has a counterpart in the second. -/
def Covered (Same : α → β → Prop) (xs : List α) (ys : List β) : Prop :=
  ∀ x ∈ xs, ∃ y ∈ ys, Same x y

/-- Every entry of either list has a counterpart in the other. -/
structure SameEntries (Same : α → β → Prop) (xs : List α) (ys : List β) : Prop where
  there : Covered Same xs ys
  back : Covered (flip Same) ys xs

namespace Covered

/-- Lists that are related place by place have counterparts at the same places. -/
theorem of_forall₂ (h : List.Forall₂ Same xs ys) : Covered Same xs ys := by
  induction h with
  | nil =>
      rintro x ⟨⟩
  | @cons a b _ _ hsame _ ih =>
      intro x hx
      rcases List.mem_cons.mp hx with rfl | hx
      · exact ⟨b, List.mem_cons_self, hsame⟩
      · obtain ⟨y, hy, hsame⟩ := ih x hx
        exact ⟨y, List.mem_cons_of_mem b hy, hsame⟩

/-- Entries among which further ones were inserted keep their counterparts. -/
theorem of_sublistForall₂ (h : List.SublistForall₂ Same xs ys) : Covered Same xs ys := by
  obtain ⟨kept, hsame, hsublist⟩ := List.sublistForall₂_iff.mp h
  intro x hx
  obtain ⟨y, hy, hxy⟩ := of_forall₂ hsame x hx
  exact ⟨y, hsublist.subset hy, hxy⟩

theorem map {Same' : γ → δ → Prop} {f : α → γ} {g : β → δ} (h : Covered Same xs ys)
    (hf : ∀ x y, Same x y → Same' (f x) (g y)) : Covered Same' (xs.map f) (ys.map g) := by
  intro z hz
  obtain ⟨x, hx, rfl⟩ := List.mem_map.mp hz
  obtain ⟨y, hy, hsame⟩ := h x hx
  exact ⟨g y, List.mem_map_of_mem hy, hf x y hsame⟩

theorem filter {p : α → Bool} {q : β → Bool} (h : Covered Same xs ys)
    (hp : ∀ x y, Same x y → p x = q y) : Covered Same (xs.filter p) (ys.filter q) := by
  intro x hx
  obtain ⟨hmem, hpx⟩ := List.mem_filter.mp hx
  obtain ⟨y, hy, hsame⟩ := h x hmem
  exact ⟨y, List.mem_filter.mpr ⟨hy, hp x y hsame ▸ hpx⟩, hsame⟩

/-- What is found by name has a counterpart that is found, if that is the only one of its name. -/
theorem exists_find? [Named α] [Named β] (h : Covered Same xs ys)
    (hname : ∀ x y, Same x y → Named.nameOf x = Named.nameOf y) (hys : Named.Distinct ys)
    {name : String} {x : α} (hx : Named.find? xs name = some x) :
    ∃ y, Named.find? ys name = some y ∧ Same x y := by
  obtain ⟨y, hy, hsame⟩ := h x (Named.mem_of_find? hx)
  have halike : Alike (Named.nameOf y) name := hname x y hsame ▸ Named.alike_of_find? hx
  exact ⟨y, hys.find?_eq_some_iff.mpr ⟨hy, halike⟩, hsame⟩

end Covered

/-- Rearranged lists have the same entries. -/
theorem Rearranged.sameEntries (h : Rearranged Same xs ys) : SameEntries Same xs ys := by
  obtain ⟨arranged, hperm, hsame⟩ := h
  have hflip : List.Forall₂ (flip Same) ys arranged := List.Forall₂.flip hsame
  constructor
  · intro x hx
    exact Covered.of_forall₂ hsame x (hperm.mem_iff.mp hx)
  · intro y hy
    obtain ⟨x, hx, hxy⟩ := Covered.of_forall₂ hflip y hy
    exact ⟨x, hperm.mem_iff.mpr hx, hxy⟩

namespace SameEntries

theorem map {Same' : γ → δ → Prop} {f : α → γ} {g : β → δ} (h : SameEntries Same xs ys)
    (hf : ∀ x y, Same x y → Same' (f x) (g y)) : SameEntries Same' (xs.map f) (ys.map g) where
  there := h.there.map hf
  back := h.back.map fun y x => hf x y

theorem filter {p : α → Bool} {q : β → Bool} (h : SameEntries Same xs ys)
    (hp : ∀ x y, Same x y → p x = q y) : SameEntries Same (xs.filter p) (ys.filter q) where
  there := h.there.filter hp
  back := h.back.filter fun y x hsame => (hp x y hsame).symm

/-- **A search by name** finds the same entry in both lists, or in neither. -/
theorem find?_rel [Named α] [Named β] (h : SameEntries Same xs ys)
    (hname : ∀ x y, Same x y → Named.nameOf x = Named.nameOf y) (hxs : Named.Distinct xs)
    (hys : Named.Distinct ys) (name : String) :
    Option.Rel Same (Named.find? xs name) (Named.find? ys name) := by
  cases hx : Named.find? xs name with
  | some x =>
      obtain ⟨y, hy, hsame⟩ := h.there.exists_find? hname hys hx
      rw [hy]
      exact .some hsame
  | none =>
      cases hy : Named.find? ys name with
      | none => exact .none
      | some y =>
          have hflip : ∀ y x, flip Same y x → Named.nameOf y = Named.nameOf x :=
            fun y x hsame => (hname x y hsame).symm
          obtain ⟨x, hx', -⟩ := h.back.exists_find? hflip hxs hy
          rw [hx] at hx'
          cases hx'

/-- **A search for the longest** finds the same entry in both lists, or in neither, if counterparts
are equally long and no two entries of a list are. -/
theorem argmax_rel {f : α → Nat} {g : β → Nat} (h : SameEntries Same xs ys)
    (hlength : ∀ x y, Same x y → f x = g y) (hinj : ∀ y ∈ ys, ∀ z ∈ ys, g y = g z → y = z) :
    Option.Rel Same (xs.argmax f) (ys.argmax g) := by
  cases hx : xs.argmax f with
  | none =>
      have hempty : ys = [] := by
        refine List.eq_nil_iff_forall_not_mem.mpr fun y hy => ?_
        obtain ⟨x, hmem, -⟩ := h.back y hy
        rw [List.argmax_eq_none.mp hx] at hmem
        cases hmem
      rw [hempty]
      exact .none
  | some x =>
      obtain ⟨y, hy, hsame⟩ := h.there x (List.argmax_mem hx)
      cases hz : ys.argmax g with
      | none =>
          rw [List.argmax_eq_none.mp hz] at hy
          cases hy
      | some z =>
          -- What the longest entry on the right is the counterpart of is no longer than `x`.
          obtain ⟨w, hw, hwz⟩ := h.back z (List.argmax_mem hz)
          have hle : g y ≤ g z := List.le_of_mem_argmax hy hz
          have hge : g z ≤ g y := by
            rw [← hlength w z hwz, ← hlength x y hsame]
            exact List.le_of_mem_argmax hw hx
          obtain rfl := hinj y hy z (List.argmax_mem hz) (Nat.le_antisymm hle hge)
          exact .some hsame

end SameEntries

/-! ### Distinct names -/

namespace Named.Distinct

variable [Named α] {entries : List α}

/-- Among distinct names two entries of alike names are one. -/
theorem eq_of_alike (h : Named.Distinct entries) {x y : α} (hx : x ∈ entries) (hy : y ∈ entries)
    (halike : Alike (Named.nameOf x) (Named.nameOf y)) : x = y := by
  have hfindx := h.find?_eq_some_iff.mpr ⟨hx, halike⟩
  have hfindy := h.find?_eq_some_iff.mpr ⟨hy, Alike.rfl⟩
  exact Option.some.inj (hfindx.symm.trans hfindy)

/-- Among distinct names, what is found in a part of the entries is found in all of them. -/
theorem find?_of_subset (h : Named.Distinct entries) {part : List α} (hpart : part ⊆ entries)
    {name : String} {x : α} (hx : Named.find? part name = some x) :
    Named.find? entries name = some x :=
  h.find?_eq_some_iff.mpr ⟨hpart (Named.mem_of_find? hx), Named.alike_of_find? hx⟩

/-- **Among distinct names the order does not matter** to a search by name. -/
theorem find?_eq_of_perm (h : Named.Distinct entries) {arranged : List α}
    (hperm : entries.Perm arranged) (name : String) :
    Named.find? entries name = Named.find? arranged name := by
  have harranged : Named.Distinct arranged :=
    hperm.pairwise h fun hxy hyx => hxy hyx.symm
  have hsame : Rearranged Eq entries arranged :=
    ⟨arranged, hperm, List.forall₂_same.mpr fun _ _ => rfl⟩
  have hrel := hsame.sameEntries.find?_rel (fun _ _ hxy => congrArg Named.nameOf hxy) h harranged
    name
  generalize Named.find? entries name = a, Named.find? arranged name = b at hrel ⊢
  cases hrel with
  | none => rfl
  | some hxy => rw [hxy]

end Named.Distinct

end ScimDirectory
