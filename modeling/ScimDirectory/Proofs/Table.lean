import Mathlib.Data.List.Induction
import ScimDirectory.Proofs.Access
import ScimDirectory.Schema.Basic

/-!
# Entries with an index beside them

A catalog carries the proof that its index belongs to its entries. Here the two are filled side by
side, with nothing to tie them together: an entry is put behind the others, and its position into
the index under its folded name, where it takes the place of whatever stood there. A look-up goes to
the position that the index gives, and fails if there is no entry.

What ties entries and index together is that no name is put in twice. The invariant says that the
index holds under each key exactly the position of the entry of that name. It is kept by each entry
with a new name, and makes the look-up one that never fails and finds what the catalog finds.

## Main results

* `Table.IsExact.push`: **one entry with a new name** keeps the invariant.
* `Table.isExact_ofList`: a list of entries with distinct names establishes it.
* `Table.IsExact.fetch_eq`: **the look-up never fails**, and is a search through the entries.
* `Table.isTableOf_ofList`: the index is that of the catalog, and no position in it is out of range.
-/

namespace ScimDirectory

variable {α : Type}

/-- A **table**: entries in their order, and beside them positions under folded names. -/
structure Table (α : Type) where
  entries : Array α := #[]
  index : Std.TreeMap String Nat := ∅

namespace Table

variable [Named α]

/-- Put an entry behind the others, and its position into the index. -/
def push (table : Table α) (entry : α) : Table α where
  entries := table.entries.push entry
  index := table.index.insert (fold (Named.nameOf entry)) table.entries.size

/-- The table that is filled with the entries of a list, one after the other. -/
def ofList (entries : List α) : Table α :=
  entries.foldl push {}

/-- The entry at the position that the index gives for a name. -/
def fetch (table : Table α) (name : String) : Except AccessError (Option α) :=
  match table.index[fold name]? with
  | none => return none
  | some position => return some (← entryAt table.entries position)

theorem ofList_concat (entries : List α) (entry : α) :
    ofList (entries ++ [entry]) = (ofList entries).push entry := by
  rw [ofList, List.foldl_append]
  rfl

/-- A table that is filled with a list has its entries in their order. -/
theorem entries_ofList (entries : List α) : (ofList entries).entries = entries.toArray := by
  induction entries using List.reverseRecOn with
  | nil => rfl
  | append_singleton entries entry ih =>
      rw [ofList_concat, push, ih, List.push_toArray]

/-! ### The invariant -/

/-- **The index is exact**: it holds under each key the position of the entry of that name, and
nothing else. -/
structure IsExact (table : Table α) : Prop where
  index_iff : ∀ key position, table.index[key]? = some position ↔
    ∃ entry, table.entries[position]? = some entry ∧ fold (Named.nameOf entry) = key

namespace IsExact

variable {table : Table α} (h : table.IsExact)
include h

/-- **No position in the index is out of range.** -/
theorem lt_size {key : String} {position : Nat} (hindex : table.index[key]? = some position) :
    position < table.entries.size := by
  obtain ⟨entry, hentry, -⟩ := (h.index_iff key position).mp hindex
  exact (Array.getElem?_eq_some_iff.mp hentry).1

/-- Each entry is at the position that the index gives for its name. -/
theorem index_of_mem {entry : α} (hmem : entry ∈ table.entries.toList) {name : String}
    (hname : Alike (Named.nameOf entry) name) :
    ∃ position, table.index[fold name]? = some position ∧
      table.entries[position]? = some entry := by
  obtain ⟨position, hposition⟩ := List.mem_iff_getElem?.mp hmem
  rw [Array.getElem?_toList] at hposition
  exact ⟨position, (h.index_iff _ _).mpr ⟨entry, hposition, hname⟩, hposition⟩

/-- A name is in the index where some entry has it. -/
theorem contains_eq (name : String) :
    table.index.contains (fold name) = Named.has table.entries.toList name := by
  rw [Bool.eq_iff_iff, Std.TreeMap.contains_eq_isSome_getElem?, Option.isSome_iff_exists,
    Named.has_iff]
  constructor
  · rintro ⟨position, hposition⟩
    obtain ⟨entry, hentry, hname⟩ := (h.index_iff _ _).mp hposition
    rw [← Array.getElem?_toList] at hentry
    exact ⟨entry, List.mem_of_getElem? hentry, hname⟩
  · rintro ⟨entry, hmem, hname⟩
    obtain ⟨position, hposition, -⟩ := h.index_of_mem hmem hname
    exact ⟨position, hposition⟩

/-- **An entry with a new name keeps the index exact.** The entries before it stay where they are,
and none of them is under the key that is put in. -/
theorem push {entry : α}
    (hfresh : ∀ earlier ∈ table.entries.toList,
      ¬ Alike (Named.nameOf earlier) (Named.nameOf entry)) :
    (table.push entry).IsExact where
  index_iff := by
    intro key position
    have hothers : ∀ other, table.entries[position]? = some other →
        position ≠ table.entries.size ∧ ¬ Alike (Named.nameOf other) (Named.nameOf entry) := by
      intro other hother
      refine ⟨Nat.ne_of_lt (Array.getElem?_eq_some_iff.mp hother).1, hfresh other ?_⟩
      rw [← Array.getElem?_toList] at hother
      exact List.mem_of_getElem? hother
    rw [Table.push, Std.TreeMap.getElem?_insert, Array.getElem?_push]
    by_cases hkey : fold (Named.nameOf entry) = key
    · subst hkey
      rw [if_pos Std.ReflCmp.compare_self, Option.some.injEq]
      constructor
      · rintro rfl
        exact ⟨entry, if_pos rfl, rfl⟩
      · rintro ⟨other, hother, hname⟩
        split at hother
        · next hposition => exact hposition.symm
        · exact absurd hname (hothers other hother).2
    · rw [if_neg (by simpa using hkey), h.index_iff]
      constructor
      · rintro ⟨other, hother, hname⟩
        exact ⟨other, by rw [if_neg (hothers other hother).1, hother], hname⟩
      · rintro ⟨other, hother, hname⟩
        split at hother
        · cases hother
          exact absurd hname hkey
        · exact ⟨other, hother, hname⟩

/-- **The look-up never fails**, and is a search through the entries. -/
theorem fetch_eq (name : String) :
    table.fetch name = .ok (Named.find? table.entries.toList name) := by
  cases hfind : Named.find? table.entries.toList name with
  | none =>
      have hnone : table.index[fold name]? = none := by
        rw [← Option.not_isSome_iff_eq_none, ← Std.TreeMap.contains_eq_isSome_getElem?,
          h.contains_eq, ← Named.find?_isSome, hfind]
        exact Bool.false_ne_true
      rw [fetch, hnone]
      rfl
  | some entry =>
      obtain ⟨position, hindex, hentry⟩ :=
        h.index_of_mem (Named.mem_of_find? hfind) (Named.alike_of_find? hfind)
      simp only [fetch, hindex, entryAt_eq_ok_iff.mpr hentry]
      rfl

end IsExact

/-- Entries with distinct names fill a table whose index is exact. -/
theorem isExact_ofList {entries : List α} (h : Named.Distinct entries) :
    (ofList entries).IsExact := by
  induction entries using List.reverseRecOn with
  | nil => exact ⟨fun key position => by simp [ofList]⟩
  | append_singleton entries entry ih =>
      obtain ⟨hentries, -, hfresh⟩ := List.pairwise_append.mp h
      rw [ofList_concat]
      refine (ih hentries).push ?_
      rw [entries_ofList]
      intro earlier hearlier
      exact hfresh earlier hearlier entry (List.mem_singleton_self entry)

/-! ### The table of a catalog -/

/-- **The table of a catalog**: the same entries, the same index though it was filled in another
way, and no position in it out of range. -/
structure IsTableOf (table : Table α) (catalog : Catalog α) : Prop where
  entries : table.entries = catalog.entries
  index : ∀ key : String, table.index[key]? = catalog.index[key]?
  inRange : ∀ (key : String) (position : Nat),
    table.index[key]? = some position → position < table.entries.size

/-- An exact index is that of the catalog of the same entries, where the first entry of a name
counts. -/
theorem IsExact.index_eq {catalog : Catalog α} {table : Table α} (h : table.IsExact)
    (hentries : table.entries.toList = catalog.toList) (key : String) :
    table.index[key]? = catalog.index[key]? := by
  rw [catalog.index_eq, Catalog.getElem?_positions, Std.TreeMap.getElem?_emptyc, Option.none_or]
  change _ = (catalog.toList.findIdx? fun entry => fold (Named.nameOf entry) = key).map _
  rw [← hentries]
  cases hfound : table.entries.toList.findIdx? fun entry => fold (Named.nameOf entry) = key with
  | none =>
      rw [Option.map_none, Option.eq_none_iff_forall_ne_some]
      intro position hposition
      obtain ⟨entry, hentry, hname⟩ := (h.index_iff key position).mp hposition
      rw [← Array.getElem?_toList] at hentry
      have hother := List.findIdx?_eq_none_iff.mp hfound entry (List.mem_of_getElem? hentry)
      exact of_decide_eq_false hother hname
  | some position =>
      obtain ⟨hlt, hname, -⟩ := List.findIdx?_eq_some_iff_getElem.mp hfound
      refine (h.index_iff key position).mpr ⟨_, ?_, of_decide_eq_true hname⟩
      rw [← Array.getElem?_toList]
      exact List.getElem?_eq_getElem hlt

/-- **A catalog with distinct names is filled entry by entry**, and no position in its index is out
of range. -/
theorem isTableOf_ofList {catalog : Catalog α} (h : Named.Distinct catalog.toList) :
    (ofList catalog.toList).IsTableOf catalog where
  entries := by
    rw [entries_ofList, Catalog.toList, Array.toArray_toList]
  index := (isExact_ofList h).index_eq (by rw [entries_ofList])
  inRange := fun _ _ => (isExact_ofList h).lt_size

/-- Looking up a name in a table that is filled with distinct names is looking it up in the
catalog. -/
theorem fetch_ofList {catalog : Catalog α} (h : Named.Distinct catalog.toList) (name : String) :
    (ofList catalog.toList).fetch name = .ok (catalog.find? name) := by
  rw [(isExact_ofList h).fetch_eq, entries_ofList, Catalog.find?_eq]

/-- Of two entries of one name the table keeps the position of the last one, and a catalog that of
the first. -/
example :
    let first : Field := ⟨"rank", "a", .string, false, ""⟩
    let last : Field := ⟨"rank", "b", .string, false, ""⟩
    (ofList [first, last]).fetch "rank" = .ok (some last) ∧
      (Catalog.ofList [first, last]).find? "rank" = some first := by decide +kernel

end Table

end ScimDirectory
