import Mathlib.Data.List.Basic

/-!
# Sequential transducers

A machine that reads letters one at a time and emits a finite list at each.
Runs compose over concatenation, and a relation to a plain automaton that one
step preserves is preserved by every run.
-/

universe u v w x

structure Transducer (σ : Type u) (α : Type v) (β : Type w) where
  step : σ → α → σ × List β

namespace Transducer

set_option autoImplicit false

variable {σ : Type u} {α : Type v} {β : Type w} (T : Transducer σ α β)

def run : σ → List α → σ × List β
  | s, [] => (s, [])
  | s, a :: l => ((run (T.step s a).1 l).1, (T.step s a).2 ++ (run (T.step s a).1 l).2)

theorem run_cons {s s' : σ} {a : α} {out : List β} (h : T.step s a = (s', out)) (l : List α) :
    T.run s (a :: l) = ((T.run s' l).1, out ++ (T.run s' l).2) := by
  rw [run, h]

theorem run_append (s : σ) (l r : List α) :
    T.run s (l ++ r) = ((T.run (T.run s l).1 r).1, (T.run s l).2 ++ (T.run (T.run s l).1 r).2) := by
  induction l generalizing s with
  | nil => rfl
  | cons a l ih => simp only [List.cons_append, run, ih, List.append_assoc]

def state (s : σ) (l : List α) : σ := (T.run s l).1

def output (s : σ) (l : List α) : List β := (T.run s l).2

theorem state_append (s : σ) (l r : List α) : T.state s (l ++ r) = T.state (T.state s l) r := by
  rw [state, run_append]
  rfl

theorem output_append (s : σ) (l r : List α) :
    T.output s (l ++ r) = T.output s l ++ T.output (T.state s l) r := by
  rw [output, run_append]
  rfl

/-- A simulation by an automaton, kept step by step, holds of every run. -/
theorem simulates {τ : Type x} (next : τ → α → τ) (rel : σ → τ → Prop)
    (hStep : ∀ s t a, rel s t → rel (T.step s a).1 (next t a)) (s : σ) (t : τ) (h : rel s t)
    (l : List α) : rel (T.state s l) (l.foldl next t) := by
  induction l generalizing s t with
  | nil => exact h
  | cons a l ih => exact ih _ _ (hStep s t a h)

/-- Silence along a run: an invariant of the unread input under which no step emits. -/
theorem output_eq_nil (quiet : σ → List α → Prop)
    (hQuiet : ∀ s a l, quiet s (a :: l) → (T.step s a).2 = [] ∧ quiet (T.step s a).1 l)
    (s : σ) (l : List α) (h : quiet s l) : T.output s l = [] := by
  induction l generalizing s with
  | nil => rfl
  | cons a l ih =>
    obtain ⟨hEmit, hRest⟩ := hQuiet s a l h
    have hTail := ih _ hRest
    rw [output] at hTail ⊢
    rw [run, hEmit, hTail]
    rfl

end Transducer
