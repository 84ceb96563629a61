import Mathlib.Data.List.Induction

/-!
# Checked computations

A computation that checks as it goes either fails or gives a result. What matters of it here is when
it succeeds, and with what. For a list of entries that are placed one behind the other, each checked
against those before it, that comes down to one step: if every step that succeeds keeps a closed
form of what was placed, the whole list succeeds exactly when each entry is admitted by those before
it, and gives the closed form.

## Main results

* `bind_eq_ok_iff`, `guard_eq_ok_iff`: a sequence of two steps, and a check before a step.
* `failsFirst_append`: of two lists of entries the second one is looked at where the first succeeds.
* `foldlM_eq_ok_iff`: **a list of checked entries**.
-/

namespace ScimDirectory

/-- A step behind one that succeeded goes on with its result. -/
theorem ok_bind {ε α β : Type} (a : α) (f : α → Except ε β) : Except.ok a >>= f = f a :=
  rfl

/-- A sequence of two steps succeeds exactly when both do. -/
theorem bind_eq_ok_iff {ε α β : Type} {x : Except ε α} {f : α → Except ε β} {b : β} :
    x >>= f = .ok b ↔ ∃ a, x = .ok a ∧ f a = .ok b := by
  cases x with
  | error e =>
      constructor
      · rintro ⟨⟩
      · rintro ⟨_, ⟨⟩, _⟩
  | ok a =>
      constructor
      · intro h
        exact ⟨a, rfl, h⟩
      · rintro ⟨_, ⟨⟩, h⟩
        exact h

/-- A check that fails on a condition succeeds exactly where that does not hold and the rest
succeeds. -/
theorem guard_eq_ok_iff {ε α β : Type} {c : Prop} [Decidable c] {e : ε} {f : α → Except ε β}
    {x : Except ε β} {b : β} : (if c then throw e >>= f else x) = .ok b ↔ ¬ c ∧ x = .ok b := by
  by_cases hc : c
  · rw [if_pos hc]
    constructor
    · rintro ⟨⟩
    · rintro ⟨hnot, -⟩
      exact absurd hc hnot
  · rw [if_neg hc]
    exact (and_iff_right hc).symm

/-- A refusal on a condition leaves the result where the condition does not hold. -/
theorem refusal_eq_ok_iff {ε β : Type} {c : Prop} [Decidable c] {e : ε} {x : Except ε β} {b : β} :
    (if c then throw e else x) = .ok b ↔ ¬ c ∧ x = .ok b := by
  by_cases hc : c
  · rw [if_pos hc]
    exact iff_of_false (by rintro ⟨⟩) fun h => h.1 hc
  · rw [if_neg hc]
    exact (and_iff_right hc).symm

theorem pure_eq_ok_iff {ε α : Type} {a b : α} : (pure a : Except ε α) = .ok b ↔ a = b :=
  ⟨Except.ok.inj, congrArg Except.ok⟩

/-- Another error leaves the result alone. -/
theorem mapError_eq_ok_iff {ε ε' α : Type} {f : ε → ε'} {x : Except ε α} {a : α} :
    x.mapError f = .ok a ↔ x = .ok a := by
  cases x with
  | error e => exact iff_of_false (by rintro ⟨⟩) (by rintro ⟨⟩)
  | ok b => exact ⟨fun h => congrArg Except.ok (Except.ok.inj h), fun h => by cases h; rfl⟩

theorem exists_ok_of_isOk {ε α : Type} {x : Except ε α} (h : x.isOk = true) : ∃ a, x = .ok a := by
  cases x with
  | error e => cases h
  | ok a => exact ⟨a, rfl⟩

/-- A property that is tested on the result of a computation holds of it. -/
theorem exists_ok_of_decide {ε α : Type} {x : Except ε α} {P : α → Prop} [DecidablePred P]
    (h : x.map (fun a => decide (P a)) = .ok true) : ∃ a, x = .ok a ∧ P a := by
  cases x with
  | error e => cases h
  | ok a => exact ⟨a, rfl, of_decide_eq_true (Except.ok.inj h)⟩

/-- A computation fails as it does with its result mapped. -/
theorem eq_error_of_map {ε α β : Type} {x : Except ε α} {f : α → β} {e : ε}
    (h : x.map f = .error e) : x = .error e := by
  cases x with
  | error e' => exact congrArg Except.error (Except.error.inj h)
  | ok a => cases h

/-! ### The first of several failures -/

variable {α β ε : Type}

/-- A sequence of two steps fails where the first one does, or the second one after it. -/
theorem bind_eq_error_iff {γ : Type} {x : Except ε β} {f : β → Except ε γ} {e : ε} :
    x >>= f = .error e ↔ x = .error e ∨ ∃ b, x = .ok b ∧ f b = .error e := by
  cases x with
  | error e' =>
      constructor
      · intro h
        exact .inl (congrArg Except.error (Except.error.inj h))
      · rintro (h | ⟨_, h, -⟩) <;> cases h
        rfl
  | ok b =>
      constructor
      · intro h
        exact .inr ⟨b, rfl, h⟩
      · rintro (h | ⟨_, h, hnext⟩) <;> cases h
        exact hnext

/-- The computation succeeds on the first entries, and then fails with `e` on the next one. -/
def FailsFirst (f : α → Except ε β) (entries : List α) (e : ε) : Prop :=
  ∃ done entry rest, entries = done ++ entry :: rest ∧ (∀ earlier ∈ done, ∃ b, f earlier = .ok b) ∧
    f entry = .error e

theorem failsFirst_singleton {f : α → Except ε β} {entry : α} {e : ε} :
    FailsFirst f [entry] e ↔ f entry = .error e := by
  constructor
  · rintro ⟨done, found, rest, heq, -, hfails⟩
    obtain rfl : entry = found := by
      cases done with
      | nil => exact (List.cons.inj heq).1
      | cons _ done => exact absurd (List.cons.inj heq).2 (by simp)
    exact hfails
  · intro h
    exact ⟨[], entry, [], rfl, nofun, h⟩

/-- **Entries behind others** are looked at only where all of those succeed. -/
theorem failsFirst_append {f : α → Except ε β} {xs ys : List α} {e : ε} :
    FailsFirst f (xs ++ ys) e ↔
      FailsFirst f xs e ∨ (∀ x ∈ xs, ∃ b, f x = .ok b) ∧ FailsFirst f ys e := by
  constructor
  · rintro ⟨done, entry, rest, heq, hdone, hfails⟩
    rcases List.append_eq_append_iff.mp heq with ⟨front, rfl, rfl⟩ | ⟨back, rfl, hback⟩
    · refine .inr ⟨fun x hx => hdone x (List.mem_append_left front hx), ?_⟩
      exact ⟨front, entry, rest, rfl, fun y hy => hdone y (List.mem_append_right xs hy), hfails⟩
    · cases back with
      | nil =>
          rw [List.append_nil]
          exact .inr ⟨hdone, [], entry, rest, hback.symm, nofun, hfails⟩
      | cons next back =>
          obtain ⟨rfl, -⟩ := List.cons.inj hback
          exact .inl ⟨done, entry, back, rfl, hdone, hfails⟩
  · rintro (⟨done, entry, rest, rfl, hdone, hfails⟩ |
      ⟨hxs, done, entry, rest, rfl, hdone, hfails⟩)
    · exact ⟨done, entry, rest ++ ys, by simp, hdone, hfails⟩
    · refine ⟨xs ++ done, entry, rest, by simp, fun earlier hmem => ?_, hfails⟩
      exact (List.mem_append.mp hmem).elim (hxs earlier) (hdone earlier)

/-! ### Entries checked against those before them -/

/-- Each entry of the list is admitted by the entries before it. -/
def Throughout (Admits : List α → α → Prop) (entries : List α) : Prop :=
  ∀ done entry rest, entries = done ++ entry :: rest → Admits done entry

variable {Admits : List α → α → Prop}

theorem throughout_nil : Throughout Admits [] := by
  intro done entry rest h
  cases done <;> cases h

/-- A last entry is admitted by the entries before it, and these by those before them. -/
theorem throughout_concat {done : List α} {entry : α} :
    Throughout Admits (done ++ [entry]) ↔ Throughout Admits done ∧ Admits done entry := by
  constructor
  · intro h
    refine ⟨?_, h done entry [] rfl⟩
    rintro front middle back rfl
    exact h front middle (back ++ [entry]) (by simp)
  · rintro ⟨hdone, hentry⟩ front middle back heq
    rcases List.eq_nil_or_concat back with rfl | ⟨back, last, rfl⟩
    · obtain ⟨rfl, hlast⟩ := List.append_inj' heq rfl
      obtain ⟨rfl, -⟩ := List.cons.inj hlast
      exact hentry
    · rw [List.concat_eq_append, ← List.cons_append, ← List.append_assoc] at heq
      exact hdone front middle back (List.append_inj' heq rfl).1

/-- Every entry is admitted by the entries before it. -/
theorem Throughout.exists_admits {entries : List α} (h : Throughout Admits entries) {entry : α}
    (hmem : entry ∈ entries) :
    ∃ done rest, entries = done ++ entry :: rest ∧ Admits done entry := by
  obtain ⟨done, rest, heq⟩ := List.append_of_mem hmem
  exact ⟨done, rest, heq, h done entry rest heq⟩

theorem throughout_congr {Admits' : List α → α → Prop}
    (h : ∀ done entry, Admits done entry ↔ Admits' done entry) {entries : List α} :
    Throughout Admits entries ↔ Throughout Admits' entries := by
  have hsame : Admits = Admits' := funext₂ fun done entry => propext (h done entry)
  rw [hsame]

/-- What is asked of each entry alone can be asked apart from what is asked of it among those
before it. -/
theorem throughout_and_iff {P : α → Prop} {entries : List α} :
    Throughout (fun done entry => Admits done entry ∧ P entry) entries ↔
      Throughout Admits entries ∧ ∀ entry ∈ entries, P entry := by
  constructor
  · intro h
    refine ⟨fun done entry rest heq => (h done entry rest heq).1, fun entry hmem => ?_⟩
    obtain ⟨_, _, -, -, hentry⟩ := h.exists_admits hmem
    exact hentry
  · rintro ⟨h, hall⟩ done entry rest heq
    have hmem : entry ∈ entries := heq ▸ List.mem_append_right done List.mem_cons_self
    exact ⟨h done entry rest heq, hall entry hmem⟩

/-- A relation between each entry and those before it holds between all pairs. -/
theorem throughout_forall_iff_pairwise {R : α → α → Prop} {entries : List α} :
    Throughout (fun done entry => ∀ earlier ∈ done, R earlier entry) entries ↔
      entries.Pairwise R := by
  induction entries using List.reverseRecOn with
  | nil => exact iff_of_true throughout_nil List.Pairwise.nil
  | append_singleton done entry ih =>
      rw [throughout_concat, ih, List.pairwise_append]
      simp

/-- **A list of checked entries** succeeds exactly when each entry is admitted by those before it,
and its result is the closed form, if that holds of every step. -/
theorem foldlM_eq_ok_iff {step : β → α → Except ε β} (closed : List α → β)
    (hstep : ∀ done entry result, Throughout Admits done →
      (step (closed done) entry = .ok result ↔
        Admits done entry ∧ closed (done ++ [entry]) = result))
    {entries : List α} {result : β} :
    entries.foldlM step (closed []) = .ok result ↔
      Throughout Admits entries ∧ closed entries = result := by
  induction entries using List.reverseRecOn generalizing result with
  | nil => simp [throughout_nil, pure, Except.pure]
  | append_singleton done entry ih =>
      rw [List.foldlM_append, bind_eq_ok_iff, throughout_concat]
      simp only [List.foldlM_cons, List.foldlM_nil, bind_pure]
      constructor
      · rintro ⟨placed, hplaced, hlast⟩
        obtain ⟨hdone, rfl⟩ := ih.mp hplaced
        obtain ⟨hentry, rfl⟩ := (hstep done entry result hdone).mp hlast
        exact ⟨⟨hdone, hentry⟩, rfl⟩
      · rintro ⟨⟨hdone, hentry⟩, rfl⟩
        exact ⟨closed done, ih.mpr ⟨hdone, rfl⟩, (hstep done entry _ hdone).mpr ⟨hentry, rfl⟩⟩

end ScimDirectory
