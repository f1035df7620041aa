import Mathlib.Data.List.TakeDrop
import Mathlib.Logic.Nontrivial.Basic

/-!
# Glimpses

What is shown of a list is its first few members. That tells two lists apart
as far as it goes, and gives one away only when there is no more of it.
-/

namespace Glimpse

set_option autoImplicit false

universe u v

variable {α : Type u} {γ : Type v}

/-- The first `k` members decide what is shown, and are decided by it. -/
def Shows (k : Nat) (shown : List α → γ) : Prop :=
  ∀ l l', shown l = shown l' ↔ l.take k = l'.take k

theorem shows_of_injective {g : List α → γ} (hg : Function.Injective g) (k : Nat) :
    Shows k fun l => g (l.take k) := fun _ _ => hg.eq_iff

variable {k : Nat} {shown : List α → γ}

/-- Among all lists only one shorter than the glimpse is given away. -/
theorem Shows.gives_away_iff [Nonempty α] (h : Shows k shown) (l : List α) :
    (∀ l', shown l' = shown l → l' = l) ↔ l.length < k := by
  constructor
  · intro hAway
    by_contra hLong
    obtain ⟨a⟩ := ‹Nonempty α›
    have hTake : (l ++ [a]).take k = l.take k :=
      List.take_append_of_le_length (Nat.le_of_not_lt hLong)
    have hSame := congrArg List.length (hAway (l ++ [a]) ((h _ l).mpr hTake))
    simp at hSame
  · intro hShort l' hShown
    have hTake := (h l' l).mp hShown
    rw [List.take_of_length_le (Nat.le_of_lt hShort)] at hTake
    have hLength := congrArg List.length hTake
    rw [List.length_take] at hLength
    rwa [List.take_of_length_le (by omega)] at hTake

/-- Among the lists of its own length one no longer than the glimpse is. -/
theorem Shows.gives_away_length_iff [Nontrivial α] (h : Shows k shown) (l : List α) :
    (∀ l', l'.length = l.length → shown l' = shown l → l' = l) ↔ l.length ≤ k := by
  constructor
  · intro hAway
    by_contra hLong
    obtain ⟨a, rest, hDrop⟩ : ∃ a rest, l.drop k = a :: rest :=
      List.exists_cons_of_ne_nil (mt List.drop_eq_nil_iff.mp (by omega))
    obtain ⟨b, hb⟩ := exists_ne a
    have hFront : (l.take k).length = k := by
      rw [List.length_take]
      omega
    have hLength : (l.take k ++ b :: rest).length = l.length := by
      conv_rhs => rw [← List.take_append_drop k l, hDrop]
      simp
    have hTake : (l.take k ++ b :: rest).take k = l.take k := List.take_left' hFront
    have hSame := hAway _ hLength ((h _ l).mpr hTake)
    conv_rhs at hSame => rw [← List.take_append_drop k l, hDrop]
    exact hb (List.cons.inj (List.append_cancel_left hSame)).1
  · intro hShort l' hLength hShown
    have hTake := (h l' l).mp hShown
    rwa [List.take_of_length_le hShort, List.take_of_length_le (hLength ▸ hShort)] at hTake

end Glimpse
