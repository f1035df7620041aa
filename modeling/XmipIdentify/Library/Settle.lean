import Mathlib.Data.List.Forall2
import Mathlib.Order.WellFounded

/-!
# Rewriting that settles

A partial rewriting that leaves a value as it is or makes it lighter comes to a
value it leaves, or refuses. Dropping members of a list and moving others to
where they stay is such a rewriting.
-/

namespace Settle

set_option autoImplicit false

universe u

variable {α : Type u}

def iterate (f : α → Option α) : Nat → α → Option α
  | 0, a => some a
  | k + 1, a => (f a).bind (iterate f k)

/-- After `k` steps nothing is left to do: the value was refused, or is rewritten to itself. -/
def Settled (f : α → Option α) (k : Nat) (a : α) : Prop :=
  iterate f k a = none ∨ ∃ b, iterate f k a = some b ∧ f b = some b

theorem Settled.step {f : α → Option α} {k : Nat} {a b : α} (hStep : f a = some b)
    (h : Settled f k b) : Settled f (k + 1) a := by
  rw [Settled, iterate, hStep]
  exact h

/-- A value settles within its weight, and one step that may still be refused. -/
theorem exists_settled {f : α → Option α} {P : α → Prop} {weight : α → Nat}
    (hStep : ∀ a b, P a → f a = some b → P b ∧ (b = a ∨ weight b < weight a)) {a : α} (ha : P a) :
    ∃ k ≤ weight a + 1, Settled f k a := by
  induction a using (measure weight).wf.induction with
  | h a ih =>
    cases hNext : f a with
    | none => exact ⟨1, by omega, .inl (by rw [iterate, hNext]; rfl)⟩
    | some b =>
      obtain ⟨hb, hLighter⟩ := hStep a b ha hNext
      rcases hLighter with rfl | hLess
      · exact ⟨0, by omega, .inr ⟨b, rfl, hNext⟩⟩
      · obtain ⟨k, hk, hSettled⟩ := ih b hLess hb
        exact ⟨k + 1, by omega, hSettled.step hNext⟩

variable (move : α → α)

/-- Some members of the list, in their order, each as it was or moved. -/
def Thinned (l r : List α) : Prop := List.SublistForall₂ (fun a b => a = b ∨ a = move b) l r

variable {move}

theorem Thinned.of_sublist {l r : List α} (h : l.Sublist r) : Thinned move l r := by
  rw [Thinned, List.sublistForall₂_iff]
  exact ⟨l, List.forall₂_same.mpr fun _ _ => .inl rfl, h⟩

theorem Thinned.map {l r : List α} (h : l.Sublist r) : Thinned move (l.map move) r := by
  rw [Thinned, List.sublistForall₂_iff]
  exact ⟨l, List.forall₂_map_left_iff.mpr (List.forall₂_same.mpr fun _ _ => .inr rfl), h⟩

theorem Thinned.sublist {l r s : List α} (h : Thinned move l r) (hSublist : r.Sublist s) :
    Thinned move l s := by
  rw [Thinned, List.sublistForall₂_iff] at h ⊢
  obtain ⟨kept, hKept, hMem⟩ := h
  exact ⟨kept, hKept, hMem.trans hSublist⟩

theorem Thinned.append {l l' r r' : List α} (h : Thinned move l r) (h' : Thinned move l' r') :
    Thinned move (l ++ l') (r ++ r') := by
  rw [Thinned, List.sublistForall₂_iff] at h h' ⊢
  obtain ⟨kept, hKept, hSublist⟩ := h
  obtain ⟨kept', hKept', hSublist'⟩ := h'
  exact ⟨kept ++ kept', List.rel_append hKept hKept', hSublist.append hSublist'⟩

theorem Thinned.cons {l r : List α} (a : α) (h : Thinned move l r) : Thinned move (a :: l) (a :: r) :=
  Thinned.append (.of_sublist (List.Sublist.refl [a])) h

variable (move) [DecidableEq α]

/-- How long a list is, and how many of its members can still be moved. -/
def weight (l : List α) : Nat := l.length + l.countP fun a => decide (move a ≠ a)

variable {move}

theorem weight_le (l : List α) : weight move l ≤ 2 * l.length := by
  have hCount : l.countP (fun a => decide (move a ≠ a)) ≤ l.length := List.countP_le_length
  rw [weight]
  omega

theorem movable_le (hIdem : ∀ a, move (move a) = move a) {l r : List α}
    (h : List.Forall₂ (fun a b => a = b ∨ a = move b) l r) :
    l.countP (fun a => decide (move a ≠ a)) ≤ r.countP (fun a => decide (move a ≠ a)) ∧
      (l = r ∨ l.countP (fun a => decide (move a ≠ a)) < r.countP (fun a => decide (move a ≠ a))) := by
  induction h with
  | nil => exact ⟨Nat.le_refl _, .inl rfl⟩
  | @cons a b l r hHead _ ih =>
    obtain ⟨hLe, hTail⟩ := ih
    rw [List.countP_cons, List.countP_cons]
    by_cases hSame : a = b
    · subst hSame
      refine ⟨by omega, ?_⟩
      rcases hTail with rfl | hLess
      · exact .inl rfl
      · exact .inr (by omega)
    · obtain rfl : a = move b := hHead.resolve_left hSame
      have hMoved : ¬move (move b) ≠ move b := not_not.mpr (hIdem b)
      rw [if_neg (by simpa using hMoved), if_pos (by simpa using hSame)]
      exact ⟨by omega, .inr (by omega)⟩

theorem Thinned.eq_or_lighter (hIdem : ∀ a, move (move a) = move a) {l r : List α}
    (h : Thinned move l r) : l = r ∨ weight move l < weight move r := by
  obtain ⟨kept, hKept, hSublist⟩ := List.sublistForall₂_iff.mp h
  obtain ⟨hLe, hMoved⟩ := movable_le hIdem hKept
  have hLength : l.length = kept.length := hKept.length_eq
  have hCount : kept.countP (fun a => decide (move a ≠ a)) ≤ r.countP (fun a => decide (move a ≠ a)) :=
    hSublist.countP_le
  rw [weight, weight]
  by_cases hAll : kept.length = r.length
  · obtain rfl := hSublist.eq_of_length hAll
    rcases hMoved with rfl | hLess
    · exact .inl rfl
    · exact .inr (by omega)
  · have hShorter := hSublist.length_le
    exact .inr (by omega)

end Settle
