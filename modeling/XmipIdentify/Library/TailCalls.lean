import Mathlib.Logic.Relation
import Mathlib.Order.WellFounded

/-!
# Functions that end in a call

Functions that call each other in tail position are one step: a call answers, or
ends in a further call. Where every call is lighter than the one it comes from,
the functions have the answers their equations say, and no calls go on forever.
-/

namespace TailCalls

set_option autoImplicit false

universe u v

variable {σ : Type u} {ρ : Type v} (step : σ → ρ ⊕ σ)

def Calls (call next : σ) : Prop := step call = .inr next

instance [DecidableEq ρ] [DecidableEq σ] (call next : σ) : Decidable (Calls step call next) :=
  inferInstanceAs (Decidable (_ = _))

def run : Nat → σ → Option ρ
  | 0, _ => none
  | fuel + 1, call =>
    match step call with
    | .inl answer => some answer
    | .inr next => run fuel next

/-- What the functions' own equations say of their answers. -/
def Answers (answer : σ → ρ) : Prop := ∀ call, answer call = Sum.elim id answer (step call)

/-- A further call is lighter. -/
def Descends (weight : σ → Nat) : Prop := ∀ call next, Calls step call next → weight next < weight call

variable {step}

theorem run_eq_answer {answer : σ → ρ} (hAnswer : Answers step answer) {weight : σ → Nat}
    (hWeight : Descends step weight) {fuel : Nat} {call : σ} (hFuel : weight call < fuel) :
    run step fuel call = some (answer call) := by
  induction fuel generalizing call with
  | zero => exact absurd hFuel (Nat.not_lt_zero _)
  | succ fuel ih =>
    rw [run, hAnswer call]
    split
    · rename_i result hStep
      rw [hStep]
      rfl
    · rename_i next hStep
      have hLess := hWeight call next hStep
      rw [hStep, ih (by omega)]
      rfl

theorem not_forever {weight : σ → Nat} (hWeight : Descends step weight) (calls : Nat → σ) :
    ∃ n, ¬Calls step (calls n) (calls (n + 1)) := by
  obtain ⟨n, hLess⟩ :=
    WellFounded.not_rel_apply_succ (r := fun a b : Nat => a < b) fun n => weight (calls n)
  exact ⟨n, fun hCall => hLess (hWeight _ _ hCall)⟩

/-- What holds of every first call, and passes from call to call, holds of every call that follows. -/
theorem of_transGen {P : σ → Prop} {call last : σ} (hFirst : ∀ next, Calls step call next → P next)
    (hNext : ∀ c next, P c → Calls step c next → P next)
    (h : Relation.TransGen (Calls step) call last) : P last := by
  induction h with
  | single hCall => exact hFirst _ hCall
  | tail _ hCall ih => exact hNext _ _ ih hCall

end TailCalls
