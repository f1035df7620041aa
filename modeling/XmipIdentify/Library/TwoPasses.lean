import Mathlib.Data.List.Forall2
import XmipIdentify.Library.Gather

/-!
# Two passes side by side

Two passes whose members answer alike, one by one, end at the same member or
gather as many answers, alike in their turn.
-/

namespace Gather

set_option autoImplicit false

universe u v w

variable {α α' : Type u} {β β' : Type v} {ε : Type w}

/-- Both fail, and with the same failure, or both succeed with related results. -/
inductive Both {γ γ' : Type v} (R : γ → γ' → Prop) : Except ε γ → Except ε γ' → Prop where
  | failed (failure : ε) : Both R (.error failure) (.error failure)
  | answered {a : γ} {b : γ'} (h : R a b) : Both R (.ok a) (.ok b)

/-- One member's answer beside another's. -/
abbrev Reply (R : β → β' → Prop) : Except ε (Option β) → Except ε (Option β') → Prop :=
  Both (Option.Rel R)

theorem Both.mono {γ γ' : Type v} {R S : γ → γ' → Prop} (hRS : ∀ a b, R a b → S a b)
    {a : Except ε γ} {b : Except ε γ'} (h : Both R a b) : Both S a b := by
  cases h with
  | failed failure => exact .failed failure
  | answered h => exact .answered (hRS _ _ h)

theorem both_eq_iff {γ : Type v} (a b : Except ε γ) : Both Eq a b ↔ a = b := by
  constructor
  · intro h
    cases h with
    | failed failure => rfl
    | answered h => exact congrArg Except.ok h
  · rintro rfl
    cases a with
    | error failure => exact .failed failure
    | ok c => exact .answered rfl

theorem both_map_iff {γ γ' δ δ' : Type v} {R : δ → δ' → Prop} (f : γ → δ) (g : γ' → δ')
    (a : Except ε γ) (b : Except ε γ') :
    Both R (a.map f) (b.map g) ↔ Both (fun c d => R (f c) (g d)) a b := by
  constructor
  · intro h
    cases a with
    | error failure =>
      cases b with
      | error failure' =>
        cases h
        exact .failed failure
      | ok d => cases h
    | ok c =>
      cases b with
      | error failure => cases h
      | ok d =>
        cases h with
        | answered h => exact .answered h
  · intro h
    cases h with
    | failed failure => exact .failed failure
    | answered h => exact .answered h

theorem forall₂_map_eq_iff {γ : Type v} (f : β → γ) (g : β' → γ) (l : List β) (l' : List β') :
    List.Forall₂ (fun a b => f a = g b) l l' ↔ l.map f = l'.map g := by
  rw [← List.forall₂_map_left_iff (R := fun c b => c = g b), ← List.forall₂_map_right_iff,
    List.forall₂_eq_eq_eq]

/-- Answers that a function shows as the same, one by one, are shown as one outcome. -/
theorem both_shown_iff {γ : Type v} (f : β → γ) (g : β' → γ) (a : Except ε (List β))
    (b : Except ε (List β')) :
    Both (List.Forall₂ fun c d => f c = g d) a b ↔ a.map (List.map f) = b.map (List.map g) := by
  have hLists : (List.Forall₂ fun c d => f c = g d) = fun c d => c.map f = d.map g := by
    funext c d
    exact propext (forall₂_map_eq_iff f g c d)
  rw [hLists, ← both_map_iff (R := Eq), both_eq_iff]

theorem forall₂_toList {R : β → β' → Prop} {a : Option β} {b : Option β'} (h : Option.Rel R a b) :
    List.Forall₂ R a.toList b.toList := by
  cases h with
  | none => exact .nil
  | some h => exact .cons h .nil

theorem rel_of_forall₂_toList {R : β → β' → Prop} {a : Option β} {b : Option β'}
    (h : List.Forall₂ R a.toList b.toList) : Option.Rel R a b := by
  cases a with
  | none =>
    cases b with
    | none => exact .none
    | some answer => cases h
  | some answer =>
    cases b with
    | none => cases h
    | some answer' => exact .some (List.forall₂_cons.mp h).1

theorem gather_singleton (ask : α → Except ε (Option β)) (a : α) :
    gather ask [] [a] = (ask a).map Option.toList := by
  rw [gather_cons]
  cases ask a with
  | error failure => rfl
  | ok said => rfl

variable {ask : α → Except ε (Option β)} {ask' : α' → Except ε (Option β')}

/-- What is gathered so far may differ too, as long as it is alike. -/
theorem gather_both {R : β → β' → Prop} {l : List α} {l' : List α'}
    (h : List.Forall₂ (fun a b => Reply R (ask a) (ask' b)) l l') {gathered : List β}
    {gathered' : List β'} (hGathered : List.Forall₂ R gathered gathered') :
    Both (List.Forall₂ R) (gather ask gathered l) (gather ask' gathered' l') := by
  induction h generalizing gathered gathered' with
  | nil => exact .answered hGathered
  | @cons a b rest rest' hHead _ ih =>
    rw [gather_cons, gather_cons]
    generalize ask a = reply at hHead
    generalize ask' b = reply' at hHead
    cases hHead with
    | failed failure => exact .failed failure
    | answered hSaid => exact ih (List.rel_append hGathered (forall₂_toList hSaid))

/-- A function of the answers may be applied by each member or once the pass is over. -/
theorem gather_map_answers {γ : Type v} (f : β → γ) (l : List α) :
    gather (fun a => (ask a).map (Option.map f)) [] l = (gather ask [] l).map (List.map f) := by
  have hReply (a : α) : Reply (fun b c => f b = c) (ask a) ((ask a).map (Option.map f)) := by
    cases ask a with
    | error failure => exact .failed failure
    | ok said =>
      cases said with
      | none => exact .answered .none
      | some answer => exact .answered (.some rfl)
  have hSame : List.Forall₂
      (fun a b => Reply (fun b c => f b = c) (ask a) ((ask b).map (Option.map f))) l l :=
    List.forall₂_same.mpr fun a _ => hReply a
  rw [(both_shown_iff f id _ _).mp (gather_both hSame .nil)]
  cases gather (fun a => (ask a).map (Option.map f)) [] l with
  | error failure => rfl
  | ok result => simp [Except.map]

/-- Passes over members of any choice tell two sides apart exactly where some member does. -/
theorem passes_both_iff {σ : Type u} {R : β → β → Prop} (Pair : σ → σ → Prop)
    (ask : σ → α → Except ε (Option β)) (members : List α) :
    (∀ l : List α, (∀ a ∈ l, a ∈ members) → ∀ s t, Pair s t →
        Both (List.Forall₂ R) (gather (ask s) [] l) (gather (ask t) [] l)) ↔
      ∀ a ∈ members, ∀ s t, Pair s t → Reply R (ask s a) (ask t a) := by
  constructor
  · intro h a ha s t hPair
    have hOne := h [a] (fun b hb => List.mem_singleton.mp hb ▸ ha) s t hPair
    rw [gather_singleton, gather_singleton, both_map_iff] at hOne
    exact hOne.mono fun _ _ => rel_of_forall₂_toList
  · intro h l hl s t hPair
    exact gather_both (List.forall₂_same.mpr fun a ha => h a (hl a ha) s t hPair) .nil

end Gather
