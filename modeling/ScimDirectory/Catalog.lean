import ScimDirectory.Text.LetterCase
import Std.Data.TreeMap

/-!
# Named entries and catalogs

Resource types, attributes, sub-attributes and extension fields are all found by name, with letter
case set aside. `Named` gives an entry its name; lists of named entries are searched from the front;
a `Catalog` is such a list together with an index from folded names to positions.

## Main results

* `Catalog.find?_eq`: looking up through the index finds what a search from the front finds.
-/

namespace ScimDirectory

/-- Entries that are found by name. -/
class Named (α : Type) where
  /-- The name under which an entry is found. -/
  nameOf : α → String

variable {α : Type} [Named α]

namespace Named

/-- The first entry whose name is alike to `name`. -/
def find? (entries : List α) (name : String) : Option α :=
  entries.find? fun entry => Alike (nameOf entry) name

/-- Some entry has a name alike to `name`. -/
def has (entries : List α) (name : String) : Bool :=
  entries.any fun entry => Alike (nameOf entry) name

theorem has_iff {entries : List α} {name : String} :
    has entries name = true ↔ ∃ entry ∈ entries, Alike (nameOf entry) name := by
  simp [has]

theorem find?_isSome {entries : List α} {name : String} :
    (find? entries name).isSome = has entries name := by
  rw [find?, has, List.isSome_find?]

theorem mem_of_find? {entries : List α} {name : String} {entry : α}
    (h : find? entries name = some entry) : entry ∈ entries :=
  List.mem_of_find?_eq_some h

theorem alike_of_find? {entries : List α} {name : String} {entry : α}
    (h : find? entries name = some entry) : Alike (nameOf entry) name := by
  simpa using List.find?_some h

/-- The entries have **distinct names**: no two of them are alike. -/
def Distinct (entries : List α) : Prop :=
  entries.Pairwise fun a b => ¬ Alike (nameOf a) (nameOf b)

/-- **Among distinct names the search finds all entries of a name**, as there is one at most. -/
theorem Distinct.filter_eq {entries : List α} (h : Distinct entries) (name : String) :
    (entries.filter fun entry => Alike (nameOf entry) name) = (find? entries name).toList := by
  induction entries with
  | nil => rfl
  | cons first rest ih =>
      obtain ⟨hfirst, hrest⟩ := List.pairwise_cons.1 h
      by_cases hname : Alike (nameOf first) name
      · have hnone : (rest.filter fun entry => Alike (nameOf entry) name) = [] := by
          refine List.filter_eq_nil_iff.2 fun entry hentry hentryName => ?_
          exact hfirst entry hentry (hname.trans (of_decide_eq_true hentryName).symm)
        rw [find?, List.find?_cons_of_pos (by simpa using hname),
          List.filter_cons_of_pos (by simpa using hname), hnone]
        rfl
      · rw [find?, List.find?_cons_of_neg (by simpa using hname),
          List.filter_cons_of_neg (by simpa using hname)]
        exact ih hrest

/-- Among distinct names the search finds exactly the entry of that name. -/
theorem Distinct.find?_eq_some_iff {entries : List α} {name : String} {entry : α}
    (h : Distinct entries) :
    find? entries name = some entry ↔ entry ∈ entries ∧ Alike (nameOf entry) name := by
  rw [← Option.mem_toList, ← h.filter_eq, List.mem_filter, decide_eq_true_iff]

end Named

/-- For each folded name the position of the first entry that bears it. -/
def positions : List α → Nat → Std.TreeMap String Nat → Std.TreeMap String Nat
  | [], _, index => index
  | entry :: rest, next, index =>
      positions rest (next + 1) (index.insertIfNew (fold (Named.nameOf entry)) next)

variable (α) in
/-- A **catalog**: named entries in their order, with an index from folded names to positions. -/
structure Catalog where
  /-- The entries in their order. -/
  entries : Array α
  /-- For each folded name a position in `entries`. -/
  index : Std.TreeMap String Nat
  /-- The index belongs to the entries. -/
  index_eq : index = positions entries.toList 0 ∅

namespace Catalog

/-- The catalog of a list of entries. -/
def ofList (entries : List α) : Catalog α where
  entries := entries.toArray
  index := positions entries 0 ∅
  index_eq := by simp

/-- The entries of a catalog in their order. -/
def toList (catalog : Catalog α) : List α :=
  catalog.entries.toList

/-- The entry found under `name` through the index. -/
def find? (catalog : Catalog α) (name : String) : Option α :=
  catalog.index[fold name]?.bind fun position => catalog.entries[position]?

@[simp] theorem toList_ofList (entries : List α) : (ofList entries).toList = entries := by
  simp [ofList, toList]

/-- What the index gives for a key: a position that was there before, else the first entry whose
folded name is the key. -/
theorem getElem?_positions (entries : List α) (next : Nat) (index : Std.TreeMap String Nat)
    (key : String) :
    (positions entries next index)[key]? =
      index[key]?.or
        ((entries.findIdx? fun entry => fold (Named.nameOf entry) = key).map (· + next)) := by
  induction entries generalizing next index with
  | nil => simp [positions]
  | cons entry rest ih =>
      rw [positions, ih, Std.TreeMap.getElem?_insertIfNew, List.findIdx?_cons]
      by_cases hk : fold (Named.nameOf entry) = key
      · subst hk
        cases hi : index[fold (Named.nameOf entry)]? with
        | none =>
            have hn : fold (Named.nameOf entry) ∉ index := by
              rw [← Std.TreeMap.isSome_getElem?_iff_mem, hi]
              simp
            simp [hn]
        | some position =>
            have hm : fold (Named.nameOf entry) ∈ index := by
              rw [← Std.TreeMap.isSome_getElem?_iff_mem, hi]
              simp
            simp [hm]
      · have hc : ¬ compare (fold (Named.nameOf entry)) key = .eq := by
          simpa using hk
        cases index[key]? with
        | none =>
            simp only [hc, hk, false_and, if_false, Option.none_or, decide_false,
              Bool.false_eq_true, Option.map_map]
            congr 1
            funext position
            simp only [Function.comp_apply]
            omega
        | some position => simp [hc]

omit [Named α] in
/-- A search by position and then by entry is a search by entry. -/
theorem findIdx?_bind_getElem? (entries : List α) (p : α → Bool) :
    ((entries.findIdx? p).bind fun position => entries[position]?) = entries.find? p := by
  induction entries with
  | nil => rfl
  | cons entry rest ih =>
      by_cases hp : p entry = true
      · simp [List.findIdx?_cons, hp]
      · rw [List.findIdx?_cons, List.find?_cons, ← ih]
        cases hi : rest.findIdx? p <;> simp [hp]

/-- **Indexed look-up is a search from the front.** -/
theorem find?_eq (catalog : Catalog α) (name : String) :
    catalog.find? name = Named.find? catalog.toList name := by
  rw [find?, catalog.index_eq, getElem?_positions, Std.TreeMap.getElem?_emptyc, Option.none_or,
    toList, Named.find?, ← findIdx?_bind_getElem?]
  simp

end Catalog

end ScimDirectory
