import Mathlib.Data.List.Basic

/-!
# The first fault

A run over a list that may fail at any member fails at one of them, after a run
over those before it that did not.
-/

namespace FirstFault

set_option autoImplicit false

universe u v

variable {α σ : Type u} {ε : Type v}

theorem bind_eq_error_iff {β : Type u} (x : Except ε α) (f : α → Except ε β) (failure : ε) :
    (x >>= f) = .error failure ↔ x = .error failure ∨ ∃ a, x = .ok a ∧ f a = .error failure := by
  cases x with
  | error other =>
    constructor
    · intro h
      cases h
      exact .inl rfl
    · rintro (h | ⟨_, h, _⟩)
      · cases h
        rfl
      · cases h
  | ok a =>
    constructor
    · intro h
      exact .inr ⟨a, rfl, h⟩
    · rintro (h | ⟨_, h, hFailure⟩)
      · cases h
      · cases h
        exact hFailure

theorem mapError_eq_error_iff {δ : Type v} (x : Except ε α) (f : ε → δ) (failure : δ) :
    x.mapError f = .error failure ↔ ∃ cause, x = .error cause ∧ failure = f cause := by
  cases x with
  | error cause => simp [Except.mapError, eq_comm]
  | ok a => simp [Except.mapError]

theorem foldlM_eq_error_iff (f : σ → α → Except ε σ) (start : σ) (l : List α) (failure : ε) :
    l.foldlM f start = .error failure ↔
      ∃ before a after s, l = before ++ a :: after ∧ before.foldlM f start = .ok s ∧
        f s a = .error failure := by
  induction l generalizing start with
  | nil =>
    constructor
    · intro h
      cases h
    · rintro ⟨before, a, after, _, hNil, _⟩
      simp at hNil
  | cons first rest ih =>
    rw [List.foldlM_cons, bind_eq_error_iff]
    constructor
    · rintro (hFirst | ⟨s, hFirst, hRest⟩)
      · exact ⟨[], first, rest, start, rfl, rfl, hFirst⟩
      · obtain ⟨before, a, after, t, rfl, hBefore, hFailure⟩ := (ih s).mp hRest
        refine ⟨first :: before, a, after, t, rfl, ?_, hFailure⟩
        rw [List.foldlM_cons, hFirst]
        exact hBefore
    · rintro ⟨before, a, after, t, hList, hBefore, hFailure⟩
      cases before with
      | nil =>
        obtain ⟨rfl, rfl⟩ := List.cons.inj hList
        cases hBefore
        exact .inl hFailure
      | cons b before =>
        obtain ⟨rfl, rfl⟩ := List.cons.inj hList
        rw [List.foldlM_cons] at hBefore
        cases hStep : f start first with
        | error other =>
          rw [hStep] at hBefore
          cases hBefore
        | ok s =>
          rw [hStep] at hBefore
          exact .inr ⟨s, rfl, (ih s).mpr ⟨before, a, after, t, rfl, hBefore, hFailure⟩⟩

end FirstFault
