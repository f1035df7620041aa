import Mathlib.Data.List.Basic

/-!
# Agreement of partial values

Two values agree where both are known. That does not pass from one to the next
through what is not known, but values that agree two by two are all found in
one of them.
-/

namespace Agree

set_option autoImplicit false

universe u v

variable {α : Type u} {β : Type v}

def Agrees (a b : Option α) : Prop := ∀ x ∈ a, ∀ y ∈ b, x = y

theorem Agrees.refl (a : Option α) : Agrees a a := fun _ hx _ hy => Option.some.inj (hx.symm.trans hy)

theorem Agrees.symm {a b : Option α} (h : Agrees a b) : Agrees b a :=
  fun x hx y hy => (h y hy x hx).symm

theorem Agrees.trans_of_known {a b c : Option α} (hKnown : b ≠ none) (h : Agrees a b)
    (h' : Agrees b c) : Agrees a c := by
  obtain ⟨z, hz⟩ := Option.ne_none_iff_exists'.mp hKnown
  intro x hx y hy
  exact (h x hx z hz).trans (h' z hz y hy)

/-- Whatever is said of a list is said by its fullest member. -/
theorem pairwise_iff_fullest (value : β → Option α) {l : List β} (hl : l ≠ []) :
    (∀ a ∈ l, ∀ b ∈ l, Agrees (value a) (value b)) ↔
      ∃ n ∈ l, ∀ a ∈ l, value a = none ∨ value a = value n := by
  constructor
  · intro h
    by_cases hKnown : ∃ n ∈ l, value n ≠ none
    · obtain ⟨n, hn, hValue⟩ := hKnown
      obtain ⟨x, hx⟩ := Option.ne_none_iff_exists'.mp hValue
      refine ⟨n, hn, fun a ha => ?_⟩
      cases hOther : value a with
      | none => exact .inl rfl
      | some y => exact .inr (by rw [hx, h a ha n hn y hOther x hx])
    · obtain ⟨n, hn⟩ := List.exists_mem_of_ne_nil l hl
      refine ⟨n, hn, fun a ha => .inl ?_⟩
      exact not_not.mp fun hValue => hKnown ⟨a, ha, hValue⟩
  · rintro ⟨n, _, h⟩ a ha b hb x hx y hy
    rcases h a ha with hNone | hSame
    · cases hNone.symm.trans hx
    · rcases h b hb with hNone | hSame'
      · cases hNone.symm.trans hy
      · exact Option.some.inj (hx.symm.trans (hSame.trans (hSame'.symm.trans hy)))

end Agree
