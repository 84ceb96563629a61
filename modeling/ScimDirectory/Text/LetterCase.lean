/-!
# Letter case

Names in a directory are compared with the case of the ASCII letters set aside; every other
character counts as it is written. This module fixes that comparison once, for whole names and for
the beginning of a text.

## Main results

* `Alike` is an equivalence: `Alike.rfl`, `Alike.symm`, `Alike.trans`.
* `after?_eq_some_iff`: what `after?` returns is exactly the rest of a text that begins, letter
  case aside, with the given head.
-/

namespace ScimDirectory

/-- The text with its ASCII capitals written small. -/
def fold (s : String) : String :=
  s.map Char.toLower

/-- Two names are **alike** when they differ at most in the case of ASCII letters. -/
abbrev Alike (a b : String) : Prop :=
  fold a = fold b

theorem Alike.rfl {a : String} : Alike a a :=
  Eq.refl _

theorem Alike.symm {a b : String} (h : Alike a b) : Alike b a :=
  Eq.symm h

theorem Alike.trans {a b c : String} (hab : Alike a b) (hbc : Alike b c) : Alike a c :=
  Eq.trans hab hbc

/-- What follows `head` in a text that begins with it, letter case aside. -/
def after? : (head text : List Char) → Option (List Char)
  | [], text => some text
  | _ :: _, [] => none
  | h :: hs, c :: cs => if h.toLower = c.toLower then after? hs cs else none

/-- **The rest after a head** is found exactly when the text is the head, letter case aside,
followed by that rest. -/
theorem after?_eq_some_iff {head text rest : List Char} :
    after? head text = some rest ↔
      ∃ front, text = front ++ rest ∧ front.map Char.toLower = head.map Char.toLower := by
  induction head generalizing text with
  | nil =>
      constructor
      · intro h
        exact ⟨[], by simpa [after?] using h, by simp⟩
      · rintro ⟨front, rfl, hf⟩
        rw [List.map_nil, List.map_eq_nil_iff] at hf
        simp [after?, hf]
  | cons h hs ih =>
      cases text with
      | nil =>
          simp only [after?, reduceCtorEq, false_iff]
          rintro ⟨front, hf, hl⟩
          obtain ⟨rfl, -⟩ := List.append_eq_nil_iff.1 hf.symm
          simp at hl
      | cons c cs =>
          by_cases hc : h.toLower = c.toLower
          · rw [after?, if_pos hc, ih]
            constructor
            · rintro ⟨front, rfl, hl⟩
              exact ⟨c :: front, rfl, by simp [hl, hc]⟩
            · rintro ⟨front, hf, hl⟩
              cases front with
              | nil => simp at hl
              | cons d front =>
                  obtain ⟨rfl, rfl⟩ := List.cons.inj hf
                  exact ⟨front, rfl, (List.cons.inj hl).2⟩
          · rw [after?, if_neg hc]
            simp only [reduceCtorEq, false_iff]
            rintro ⟨front, hf, hl⟩
            cases front with
            | nil => simp at hl
            | cons d front =>
                obtain ⟨rfl, -⟩ := List.cons.inj hf
                exact hc (List.cons.inj hl).1.symm

end ScimDirectory
