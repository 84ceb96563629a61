import Mathlib.Data.List.Sort
import Mathlib.Data.String.Basic
import Mathlib.Tactic.SplitIfs
import ScimDirectory.Validator.Basic

/-!
# Which files are validated

An argument selects the file that it names, or from the folder that it names the entries with the
extension `json`, whatever they are, in the order of their paths. Paths are ordered by the bytes of
their UTF-8 encoding. The validator sorts by the characters of the names instead, and makes paths of
them only then. That is the same order: the encoding of a larger character begins with a larger byte
or, with as many bytes, holds the larger digits, and a common beginning does not matter.

## Main results

* `isDeclarationFile_iff`: the names that are selected, by their text.
* `utf8Bytes_lt_of_lt`: **the encoding keeps the order of texts.**
* `sortByName_eq`: the entries are put in order by an insertion sort.
* `Selects.exists_selected`, `selects_of_selected`: **what is selected**, apart from how.
-/

namespace ScimDirectory

/-! ### The order of bytes -/

/-- The bytes of a file with that text. -/
def utf8Bytes (text : String) : List UInt8 :=
  text.toUTF8.data.toList

/-- The bytes of a text are those of its characters. -/
theorem utf8Bytes_eq (text : String) :
    utf8Bytes text = text.toList.flatMap String.utf8EncodeChar := by
  rw [utf8Bytes, String.toUTF8, ← String.utf8Encode_toList, List.utf8Encode, List.data_toByteArray]

theorem utf8Bytes_append (a b : String) : utf8Bytes (a ++ b) = utf8Bytes a ++ utf8Bytes b := by
  simp only [utf8Bytes_eq, String.toList_append, List.flatMap_append]

/-- The bytes of a character are less than those of a larger one, whatever follows. With fewer bytes
the first one is less; with as many, they are digits to the base 64 behind the same mark. -/
theorem utf8EncodeChar_append_lt {c d : Char} (h : c < d) (s t : List UInt8) :
    String.utf8EncodeChar c ++ s < String.utf8EncodeChar d ++ t := by
  have hlt : c.val.toNat < d.val.toNat := h
  have hbound : d.val.toNat < 1114112 := by rcases d.valid with hd | hd <;> omega
  -- nested quotients, so that the digits of both values are over the same terms
  have htwo : ∀ n, n / 4096 = n / 64 / 64 := fun n => by omega
  have hthree : ∀ n, n / 262144 = n / 64 / 64 / 64 := fun n => by omega
  simp only [String.utf8EncodeChar, htwo, hthree]
  generalize c.val.toNat = v at *
  generalize d.val.toNat = w at *
  split_ifs
  all_goals
    first
    | omega
    | simp only [List.cons_append, List.nil_append, List.cons_lt_cons_iff, UInt8.lt_iff_toNat_lt,
        ← UInt8.toNat_inj, UInt8.toNat_ofNat']
      simp (disch := omega) only [Nat.mod_eq_of_lt]
      omega

/-- **The encoding keeps the order of texts.** -/
theorem utf8Bytes_lt_of_lt {a b : String} (h : a < b) : utf8Bytes a < utf8Bytes b := by
  rw [String.lt_iff_toList_lt] at h
  rw [utf8Bytes_eq, utf8Bytes_eq]
  generalize a.toList = xs, b.toList = ys at h
  induction h with
  | @nil d ys =>
      obtain ⟨byte, more, hd⟩ := List.exists_cons_of_ne_nil (String.utf8EncodeChar_ne_nil (c := d))
      rw [List.flatMap_nil, List.flatMap_cons, hd]
      exact List.nil_lt_cons byte _
  | cons _ ih =>
      rw [List.flatMap_cons, List.flatMap_cons]
      exact List.append_left_lt ih
  | rel h =>
      rw [List.flatMap_cons, List.flatMap_cons]
      exact utf8EncodeChar_append_lt h _ _

theorem utf8Bytes_le_of_le {a b : String} (h : a ≤ b) : utf8Bytes a ≤ utf8Bytes b := by
  rcases h.eq_or_lt with rfl | h
  · exact List.le_refl _
  · exact List.le_of_lt (utf8Bytes_lt_of_lt h)

namespace Validator

/-! ### Sorting by name -/

/-- The order of two entries is that of their names. -/
def ByName (a b : String × Node) : Prop :=
  a.1 ≤ b.1

instance : DecidableRel ByName := fun a b => inferInstanceAs (Decidable (a.1 ≤ b.1))

instance : Std.Total ByName := ⟨fun a b => le_total a.1 b.1⟩

instance : IsTrans (String × Node) ByName := ⟨fun _ _ _ => le_trans⟩

theorem insertByName_eq (entry : String × Node) (entries : List (String × Node)) :
    insertByName entry entries = entries.orderedInsert ByName entry := by
  induction entries with
  | nil => rfl
  | cons next more ih =>
      rw [insertByName, List.orderedInsert, ih]
      by_cases h : ByName entry next
      · rw [if_pos h, if_neg (not_lt.mpr h)]
      · rw [if_neg h, if_pos (not_le.mp h)]

/-- **The entries are put in order by an insertion sort.** -/
theorem sortByName_eq (entries : List (String × Node)) :
    sortByName entries = entries.insertionSort ByName := by
  rw [sortByName, List.insertionSort, funext₂ insertByName_eq]

/-! ### Names and paths -/

/-- The extension of the name is `json`: something stands before the dot. -/
def HasJsonExtension (name : String) : Prop :=
  ∃ stem, stem ≠ "" ∧ name = stem ++ ".json"

theorem isDeclarationFile_iff {name : String} :
    isDeclarationFile name = true ↔ HasJsonExtension name := by
  simp only [isDeclarationFile, Bool.and_eq_true, decide_eq_true_iff]
  constructor
  · rintro ⟨hlength, hending⟩
    refine ⟨String.ofList (name.toList.take (name.toList.length - ending.length)), ?_, ?_⟩
    · intro hstem
      have hempty := congrArg (List.length ∘ String.toList) hstem
      simp only [Function.comp_apply, String.toList_ofList, List.length_take, String.toList_empty,
        List.length_nil] at hempty
      omega
    · rw [← String.toList_inj, String.toList_append, String.toList_ofList]
      exact (List.take_append_drop _ _).symm.trans (congrArg (_ ++ ·) hending)
  · rintro ⟨stem, hstem, rfl⟩
    have hlength : 0 < stem.toList.length :=
      List.length_pos_iff.mpr (mt String.toList_eq_nil_iff.mp hstem)
    have htext : (stem ++ ".json").toList = stem.toList ++ ending := String.toList_append
    rw [htext, List.length_append, Nat.add_sub_cancel, List.drop_left]
    exact ⟨by omega, rfl⟩

instance : DecidablePred HasJsonExtension := fun _ => decidable_of_iff _ isDeclarationFile_iff

/-- The path of an entry is its name behind the same beginning. -/
theorem utf8Bytes_entryPath_le {argument a b : String} (h : a ≤ b) :
    utf8Bytes (entryPath argument a) ≤ utf8Bytes (entryPath argument b) := by
  rw [entryPath, entryPath]
  split
  · rw [utf8Bytes_append, utf8Bytes_append]
    exact List.append_left_le (utf8Bytes_le_of_le h)
  · rw [utf8Bytes_append _ a, utf8Bytes_append _ b]
    exact List.append_left_le (utf8Bytes_le_of_le h)

/-! ### Selection -/

/-- **The files that an argument selects**: the file that it names, or in a folder all entries with
the extension `json`, in the order of the bytes of their paths. -/
inductive Selects (argument : String) : Node → List (String × Node) → Prop
  | file (contents : Except String ByteArray) :
      Selects argument (.file contents) [(argument, .file contents)]
  | folder {entries files : List (String × Node)}
      (perm : files.Perm ((entries.filter fun entry => HasJsonExtension entry.1).map
        fun entry => (entryPath argument entry.1, entry.2)))
      (sorted : files.Pairwise fun a b => utf8Bytes a.1 ≤ utf8Bytes b.1) :
      Selects argument (.folder entries) files

variable {argument : String} {node : Node} {files : List (String × Node)}

/-- What is selected in a folder is all of its declaration files, in order. -/
theorem selects_of_selected (h : selected argument node = .ok files) :
    Selects argument node files := by
  cases node with
  | file contents =>
      obtain rfl := Except.ok.inj h
      exact .file contents
  | folder entries =>
      obtain rfl := Except.ok.inj h
      rw [sortByName_eq]
      refine .folder ?_ ?_
      · simp only [← isDeclarationFile_iff, Bool.decide_eq_true]
        exact (List.perm_insertionSort ByName _).map _
      · refine List.pairwise_map.mpr ((List.pairwise_insertionSort ByName _).imp ?_)
        exact fun h => utf8Bytes_entryPath_le h
  | closedFolder reason => cases h

/-- Only the entries of a folder that cannot be read are not selected. -/
theorem selected_eq_error_iff {reason : String} :
    selected argument node = .error reason ↔ node = .closedFolder reason := by
  cases node with
  | file | folder => exact iff_of_false (by rintro ⟨⟩) (by rintro ⟨⟩)
  | closedFolder reason' =>
      constructor
      · rintro ⟨⟩
        rfl
      · rintro ⟨⟩
        rfl

/-- What should be selected is selected, up to the order of entries with one name. -/
theorem Selects.exists_selected (h : Selects argument node files) :
    ∃ chosen, selected argument node = .ok chosen ∧ chosen.Perm files := by
  cases h with
  | file contents => exact ⟨_, rfl, .rfl⟩
  | folder perm _ =>
      refine ⟨_, rfl, ?_⟩
      rw [sortByName_eq]
      refine ((List.perm_insertionSort ByName _).map _).trans ?_
      simpa only [← isDeclarationFile_iff, Bool.decide_eq_true] using perm.symm

end Validator

end ScimDirectory
