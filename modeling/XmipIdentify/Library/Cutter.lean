import XmipIdentify.Library.Transducer

/-!
# Cutting where an automaton allows it

A separator ends a piece only in the states that let it, and the automaton then
starts anew. Every list is cut in one way, and a transducer that is silent
within a piece and starts anew after it is read piece by piece.
-/

universe u v w x

structure Cutter (σ : Type u) (α : Type v) where
  sep : α
  start : σ
  next : σ → α → σ
  cuts : σ → Bool

namespace Cutter

set_option autoImplicit false

variable {σ : Type u} {α : Type v} (C : Cutter σ α)

def run (q : σ) (l : List α) : σ := l.foldl C.next q

/-- No piece ends inside the list. -/
def Unbroken : σ → List α → Prop
  | _, [] => True
  | q, a :: l => ¬(C.cuts q = true ∧ a = C.sep) ∧ Unbroken (C.next q a) l

/-- The pieces of a list; each but the last is followed by a separator that cuts. -/
inductive Pieces : List α → List (List α) → Prop
  | last {p : List α} (hPiece : C.Unbroken C.start p) : Pieces p [p]
  | cut {p r : List α} {ps : List (List α)} (hPiece : C.Unbroken C.start p)
      (hCut : C.cuts (C.run C.start p) = true) (hRest : Pieces r ps) :
      Pieces (p ++ C.sep :: r) (p :: ps)

theorem unbroken_append (q : σ) (l r : List α) :
    C.Unbroken q (l ++ r) ↔ C.Unbroken q l ∧ C.Unbroken (C.run q l) r := by
  induction l generalizing q with
  | nil => simp [Unbroken, run]
  | cons a l ih => exact (and_congr_right fun _ => ih (C.next q a)).trans and_assoc.symm

theorem not_unbroken_cut {q : σ} {p : List α} (h : C.cuts (C.run q p) = true) (r : List α) :
    ¬C.Unbroken q (p ++ C.sep :: r) := by
  rw [unbroken_append]
  rintro ⟨_, hHere, _⟩
  exact hHere ⟨h, rfl⟩

/-- The first cut of a list, where it has one. -/
theorem unbroken_or_cut [DecidableEq α] (q : σ) (l : List α) :
    C.Unbroken q l ∨ ∃ p r, l = p ++ C.sep :: r ∧ C.Unbroken q p ∧ C.cuts (C.run q p) = true := by
  induction l generalizing q with
  | nil => exact .inl trivial
  | cons a l ih =>
    by_cases hHere : C.cuts q = true ∧ a = C.sep
    · obtain ⟨hCut, rfl⟩ := hHere
      exact .inr ⟨[], l, rfl, trivial, hCut⟩
    · rcases ih (C.next q a) with hRest | ⟨p, r, rfl, hPiece, hCut⟩
      · exact .inl ⟨hHere, hRest⟩
      · exact .inr ⟨a :: p, r, rfl, ⟨hHere, hPiece⟩, hCut⟩

/-- Two first cuts of one list are one. -/
theorem cut_unique {q : σ} {p p' r r' : List α} (h : p ++ C.sep :: r = p' ++ C.sep :: r')
    (hPiece : C.Unbroken q p) (hPiece' : C.Unbroken q p') (hCut : C.cuts (C.run q p) = true)
    (hCut' : C.cuts (C.run q p') = true) : p = p' ∧ r = r' := by
  rcases List.append_eq_append_iff.mp h with ⟨u, rfl, hRest⟩ | ⟨u, rfl, hRest⟩
  · cases u with
    | nil => exact ⟨(List.append_nil p).symm, (List.cons.inj hRest).2⟩
    | cons a u =>
      obtain ⟨rfl, _⟩ := List.cons.inj hRest
      exact absurd hPiece' (C.not_unbroken_cut hCut u)
  · cases u with
    | nil => exact ⟨List.append_nil p', (List.cons.inj hRest).2.symm⟩
    | cons a u =>
      obtain ⟨rfl, _⟩ := List.cons.inj hRest
      exact absurd hPiece (C.not_unbroken_cut hCut' u)

theorem exists_pieces [DecidableEq α] (l : List α) : ∃ ps, C.Pieces l ps := by
  induction l using (measure List.length).wf.induction with
  | h l ih =>
    rcases C.unbroken_or_cut C.start l with hPiece | ⟨p, r, rfl, hPiece, hCut⟩
    · exact ⟨[l], .last hPiece⟩
    · have hShorter : r.length < (p ++ C.sep :: r).length := by
        rw [List.length_append, List.length_cons]
        omega
      obtain ⟨ps, hRest⟩ := ih r hShorter
      exact ⟨p :: ps, .cut hPiece hCut hRest⟩

theorem Pieces.unique {l : List α} {ps ps' : List (List α)} (h : C.Pieces l ps)
    (h' : C.Pieces l ps') : ps = ps' := by
  induction h generalizing ps' with
  | last hPiece =>
    cases h' with
    | last _ => rfl
    | cut _ hCut _ => exact absurd hPiece (C.not_unbroken_cut hCut _)
  | @cut p r ps hPiece hCut _ ih =>
    generalize hList : p ++ C.sep :: r = l at h'
    cases h' with
    | last hPiece' => exact absurd (hList ▸ hPiece') (C.not_unbroken_cut hCut _)
    | cut hPiece' hCut' hRest' =>
      obtain ⟨rfl, rfl⟩ := C.cut_unique hList hPiece hPiece' hCut hCut'
      rw [ih hRest']

theorem Pieces.unbroken {l : List α} {ps : List (List α)} (h : C.Pieces l ps) :
    ∀ p ∈ ps, C.Unbroken C.start p := by
  induction h with
  | last hPiece => exact fun p hp => List.mem_singleton.mp hp ▸ hPiece
  | cut hPiece _ _ ih => exact List.forall_mem_cons.mpr ⟨hPiece, ih⟩

section Reading

variable {τ : Type w} {β : Type x} (T : Transducer τ α β) (rel : τ → σ → Prop)

/-- What a transducer must keep to be read piece by piece. -/
structure Follows (begin : τ) : Prop where
  start : rel begin C.start
  step : ∀ t q a, rel t q → rel (T.step t a).1 (C.next q a)
  silent : ∀ t q a, rel t q → ¬(C.cuts q = true ∧ a = C.sep) → (T.step t a).2 = []
  again : ∀ t q, rel t q → C.cuts q = true → (T.step t C.sep).1 = begin

variable {C T rel} {begin : τ} (h : C.Follows T rel begin)
include h

theorem Follows.run (l : List α) : rel (T.state begin l) (C.run C.start l) :=
  T.simulates C.next rel h.step begin C.start h.start l

theorem Follows.output_unbroken {p : List α} (hPiece : C.Unbroken C.start p) :
    T.output begin p = [] := by
  refine T.output_eq_nil (fun t l => ∃ q, rel t q ∧ C.Unbroken q l) ?_ begin p
    ⟨C.start, h.start, hPiece⟩
  rintro t a l ⟨q, hRel, hHere, hRest⟩
  exact ⟨h.silent t q a hRel hHere, C.next q a, h.step t q a hRel, hRest⟩

/-- A piece that no separator can end leaves nothing. -/
theorem Follows.output_open {p : List α} (hPiece : C.Unbroken C.start p)
    (hOpen : C.cuts (C.run C.start p) = false) : T.output begin (p ++ [C.sep]) = [] := by
  apply h.output_unbroken
  rw [unbroken_append]
  refine ⟨hPiece, ?_, trivial⟩
  rw [hOpen]
  exact fun hCut => Bool.false_ne_true hCut.1

theorem Follows.output_cut {p : List α} (hCut : C.cuts (C.run C.start p) = true) (r : List α) :
    T.output begin (p ++ C.sep :: r) = T.output begin (p ++ [C.sep]) ++ T.output begin r := by
  have hState : T.state begin (p ++ [C.sep]) = begin := by
    rw [T.state_append]
    exact h.again _ _ (h.run p) hCut
  rw [List.append_cons, T.output_append, hState]

theorem Follows.output_pieces {l : List α} {ps : List (List α)} (hPieces : C.Pieces l ps) :
    T.output begin (l ++ [C.sep]) = ps.flatMap fun p => T.output begin (p ++ [C.sep]) := by
  induction hPieces with
  | last _ => simp
  | cut _ hCut _ ih =>
    rw [List.append_assoc, List.cons_append, h.output_cut hCut, ih, List.flatMap_cons]

end Reading

end Cutter
