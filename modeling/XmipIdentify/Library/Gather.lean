import Mathlib.Data.List.Perm.Basic

/-!
# Gathering answers

One pass over a list, each member of which fails, is silent or answers. The
first failure ends the pass; without one the answers are kept in their order.
-/

namespace Gather

set_option autoImplicit false

universe u v w

variable {α : Type u} {β : Type v} {ε : Type w} (ask : α → Except ε (Option β))

/-- The pass, from what is gathered so far. -/
def gather (gathered : List β) : List α → Except ε (List β)
  | [] => .ok gathered
  | a :: rest =>
    match ask a with
    | .error failure => .error failure
    | .ok none => gather gathered rest
    | .ok (some answer) => gather (gathered ++ [answer]) rest

theorem gather_cons (gathered : List β) (a : α) (rest : List α) :
    gather ask gathered (a :: rest) =
      (ask a).bind fun said => gather ask (gathered ++ said.toList) rest := by
  rw [gather]
  cases ask a with
  | error failure => rfl
  | ok said =>
    cases said with
    | none => simp [Except.bind]
    | some answer => rfl

/-- Every member speaks, and the answers among what is said are gathered. -/
theorem gather_eq_ok_iff (gathered result : List β) (l : List α) :
    gather ask gathered l = .ok result ↔
      ∃ said : List (Option β), l.map ask = said.map .ok ∧ result = gathered ++ said.filterMap id := by
  induction l generalizing gathered with
  | nil =>
    rw [gather]
    constructor
    · intro h
      cases h
      exact ⟨[], rfl, by simp⟩
    · rintro ⟨said, hSaid, rfl⟩
      obtain rfl := List.map_eq_nil_iff.mp hSaid.symm
      simp
  | cons a rest ih =>
    rw [gather_cons]
    cases hAsk : ask a with
    | error failure =>
      refine ⟨(nomatch ·), ?_⟩
      rintro ⟨said, hSaid, _⟩
      cases said with
      | nil => cases hSaid
      | cons answer said =>
        rw [List.map_cons, List.map_cons, hAsk] at hSaid
        cases hSaid
    | ok answer =>
      refine (ih _).trans ⟨?_, ?_⟩
      · rintro ⟨said, hSaid, rfl⟩
        refine ⟨answer :: said, by rw [List.map_cons, List.map_cons, hAsk, hSaid], ?_⟩
        cases answer with
        | none => simp
        | some value => simp
      · rintro ⟨said, hSaid, rfl⟩
        cases said with
        | nil => cases hSaid
        | cons first said =>
          rw [List.map_cons, List.map_cons, hAsk] at hSaid
          obtain ⟨hFirst, hRest⟩ := List.cons.inj hSaid
          cases hFirst
          refine ⟨said, hRest, ?_⟩
          cases answer with
          | none => simp
          | some value => simp

theorem gather_succeeds_iff (gathered : List β) (l : List α) :
    (∃ result, gather ask gathered l = .ok result) ↔ ∀ a ∈ l, ∃ said, ask a = .ok said := by
  induction l generalizing gathered with
  | nil => exact ⟨fun _ _ ha => (nomatch ha), fun _ => ⟨gathered, rfl⟩⟩
  | cons first rest ih =>
    rw [gather_cons, List.forall_mem_cons]
    cases hAsk : ask first with
    | error failure =>
      constructor
      · rintro ⟨_, ⟨⟩⟩
      · rintro ⟨⟨_, ⟨⟩⟩, _⟩
    | ok said =>
      have hFirst : ∃ answer, (Except.ok said : Except ε (Option β)) = .ok answer := ⟨said, rfl⟩
      rw [and_iff_right hFirst]
      exact ih _

/-- The failure is that of the earliest member that fails. -/
theorem gather_eq_error_iff (gathered : List β) (l : List α) (failure : ε) :
    gather ask gathered l = .error failure ↔
      ∃ before a after, l = before ++ a :: after ∧ (∀ b ∈ before, ∃ said, ask b = .ok said) ∧
        ask a = .error failure := by
  induction l generalizing gathered with
  | nil =>
    refine ⟨(nomatch ·), ?_⟩
    rintro ⟨before, a, after, hNil, _⟩
    simp at hNil
  | cons first rest ih =>
    rw [gather_cons]
    cases hAsk : ask first with
    | error failure' =>
      constructor
      · intro h
        cases h
        exact ⟨[], first, rest, rfl, by simp, hAsk⟩
      · rintro ⟨before, a, after, hList, hBefore, hFailure⟩
        cases before with
        | nil =>
          cases hList
          rw [hAsk] at hFailure
          cases hFailure
          rfl
        | cons b before =>
          cases hList
          obtain ⟨said, hSaid⟩ := hBefore _ List.mem_cons_self
          rw [hAsk] at hSaid
          cases hSaid
    | ok said =>
      refine (ih _).trans ⟨?_, ?_⟩
      · rintro ⟨before, a, after, rfl, hBefore, hFailure⟩
        refine ⟨first :: before, a, after, rfl, ?_, hFailure⟩
        intro b hb
        rcases List.mem_cons.mp hb with rfl | hb
        · exact ⟨said, hAsk⟩
        · exact hBefore b hb
      · rintro ⟨before, a, after, hList, hBefore, hFailure⟩
        cases before with
        | nil =>
          cases hList
          rw [hAsk] at hFailure
          cases hFailure
        | cons b before =>
          cases hList
          exact ⟨before, a, after, rfl, fun c hc => hBefore c (List.mem_cons_of_mem _ hc), hFailure⟩

theorem gather_append (gathered : List β) (l r : List α) :
    gather ask gathered (l ++ r) = (gather ask gathered l).bind fun gathered => gather ask gathered r := by
  induction l generalizing gathered with
  | nil => rfl
  | cons a rest ih =>
    rw [List.cons_append, gather_cons, gather_cons]
    cases ask a with
    | error failure => rfl
    | ok said => exact ih _

/-- What is gathered goes before whatever follows. -/
theorem gather_eq_map (gathered : List β) (l : List α) :
    gather ask gathered l = (gather ask [] l).map (gathered ++ ·) := by
  induction l generalizing gathered with
  | nil => simp [gather, Except.map]
  | cons a rest ih =>
    rw [gather_cons, gather_cons]
    cases ask a with
    | error failure => rfl
    | ok said =>
      change gather ask (gathered ++ said.toList) rest = (gather ask ([] ++ said.toList) rest).map _
      rw [ih, ih ([] ++ said.toList)]
      cases gather ask [] rest with
      | error failure => rfl
      | ok answers => simp [Except.map]

/-- The order of the members decides neither whether the pass succeeds nor what it gathers. -/
theorem gather_perm {l l' : List α} (h : l.Perm l') {result : List β}
    (hResult : gather ask [] l = .ok result) :
    ∃ result', gather ask [] l' = .ok result' ∧ result.Perm result' := by
  obtain ⟨said, hSaid, rfl⟩ := (gather_eq_ok_iff ask [] result l).mp hResult
  have hMap : (l'.map ask).Perm (said.map .ok) := hSaid ▸ (h.map ask).symm
  have hComp := congrFun (congrFun (List.eq_map_comp_perm (Except.ok : Option β → Except ε (Option β)))
    (l'.map ask)) said
  obtain ⟨said', hSaid', hPerm⟩ := hComp.mpr hMap
  refine ⟨said'.filterMap id, (gather_eq_ok_iff ask [] _ l').mpr ⟨said', hSaid', rfl⟩, ?_⟩
  exact (hPerm.filterMap id).symm

end Gather
