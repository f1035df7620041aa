import Mathlib.Data.List.Basic

/-!
# Cutting a list at separators

First-match, last-match and bounded cuts, each with the decomposition that
characterises it. All pieces at once is `List.splitOn` of the core library.
-/

namespace ListCut

set_option autoImplicit false

universe u

variable {α : Type u}

/-- The parts before and after the first element satisfying `p`. -/
def splitOnceBy (p : α → Bool) : List α → Option (List α × List α)
  | [] => none
  | a :: rest =>
    if p a then some ([], rest) else (splitOnceBy p rest).map fun (before, after) => (a :: before, after)

theorem splitOnceBy_eq_some_iff (p : α → Bool) (l before after : List α) :
    splitOnceBy p l = some (before, after) ↔
      ∃ a, p a = true ∧ l = before ++ a :: after ∧ ∀ b ∈ before, p b = false := by
  induction l generalizing before with
  | nil => simp [splitOnceBy]
  | cons a rest ih =>
    rw [splitOnceBy]
    by_cases ha : p a = true
    · rw [if_pos ha]
      constructor
      · intro h
        cases h
        exact ⟨a, ha, rfl, by simp⟩
      · rintro ⟨c, _, hl, hBefore⟩
        cases before with
        | nil => cases hl; rfl
        | cons b before =>
          cases hl
          have := hBefore a List.mem_cons_self
          rw [ha] at this
          cases this
    · rw [if_neg ha]
      constructor
      · intro h
        obtain ⟨⟨u, w⟩, hCut, hPair⟩ := Option.map_eq_some_iff.mp h
        cases hPair
        obtain ⟨c, hc, hl, hBefore⟩ := (ih u).mp hCut
        refine ⟨c, hc, by rw [hl]; rfl, ?_⟩
        intro b hb
        rcases List.mem_cons.mp hb with rfl | hb
        · exact Bool.eq_false_iff.mpr ha
        · exact hBefore b hb
      · rintro ⟨c, hc, hl, hBefore⟩
        cases before with
        | nil =>
          cases hl
          exact absurd hc ha
        | cons b before =>
          cases hl
          have hCut := (ih before).mpr
            ⟨c, hc, rfl, fun d hd => hBefore d (List.mem_cons_of_mem _ hd)⟩
          rw [hCut]
          rfl

theorem splitOnceBy_eq_none_iff (p : α → Bool) (l : List α) :
    splitOnceBy p l = none ↔ ∀ a ∈ l, p a = false := by
  induction l with
  | nil => simp [splitOnceBy]
  | cons a rest ih =>
    rw [splitOnceBy]
    by_cases ha : p a = true
    · simp [ha]
    · simp [ha, ih]

/-- A cut of an image is the image of the cut. -/
theorem splitOnceBy_map (f : α → α) (p : α → Bool) (h : ∀ a, p (f a) = p a) (l : List α) :
    splitOnceBy p (l.map f) =
      (splitOnceBy p l).map fun (before, after) => (before.map f, after.map f) := by
  induction l with
  | nil => rfl
  | cons a rest ih =>
    rw [List.map_cons, splitOnceBy, splitOnceBy, h, ih]
    split
    · rfl
    · rw [Option.map_map, Option.map_map]
      rfl

theorem map_intercalate {β : Type u} (f : α → β) (sep : α) (l : List (List α)) :
    ([sep].intercalate l).map f = [f sep].intercalate (l.map (List.map f)) := by
  induction l with
  | nil => rfl
  | cons c rest ih =>
    by_cases hRest : rest = []
    · subst hRest
      rw [List.map_cons, List.map_nil, List.intercalate_singleton, List.intercalate_singleton]
    · rw [List.map_cons, List.intercalate_cons_of_ne_nil hRest,
        List.intercalate_cons_of_ne_nil (mt List.map_eq_nil_iff.mp hRest), List.map_append,
        List.map_append, ih]
      rfl

variable [DecidableEq α]

def splitOnce (sep : α) (l : List α) : Option (List α × List α) :=
  splitOnceBy (fun a => decide (a = sep)) l

theorem splitOnce_eq_some_iff (sep : α) (l before after : List α) :
    splitOnce sep l = some (before, after) ↔ l = before ++ sep :: after ∧ sep ∉ before := by
  rw [splitOnce, splitOnceBy_eq_some_iff]
  constructor
  · rintro ⟨a, ha, hl, hBefore⟩
    obtain rfl : a = sep := of_decide_eq_true ha
    exact ⟨hl, fun hMem => by simpa using hBefore _ hMem⟩
  · rintro ⟨hl, hBefore⟩
    refine ⟨sep, by simp, hl, ?_⟩
    intro b hb
    exact decide_eq_false (fun hEq => hBefore (hEq ▸ hb))

theorem splitOnce_eq_none_iff (sep : α) (l : List α) : splitOnce sep l = none ↔ sep ∉ l := by
  rw [splitOnce, splitOnceBy_eq_none_iff]
  constructor
  · intro h hMem
    simpa using h sep hMem
  · intro h a ha
    exact decide_eq_false (fun hEq => h (hEq ▸ ha))

@[simp] theorem splitOnce_append (sep : α) (before after : List α) (h : sep ∉ before) :
    splitOnce sep (before ++ sep :: after) = some (before, after) :=
  (splitOnce_eq_some_iff sep _ before after).mpr ⟨rfl, h⟩

theorem splitOnce_map {f : α → α} {sep : α} (h : ∀ a, f a = sep ↔ a = sep) (l : List α) :
    splitOnce sep (l.map f) =
      (splitOnce sep l).map fun (before, after) => (before.map f, after.map f) :=
  splitOnceBy_map f _ (fun a => by simp [h]) l

/-- The parts before and after the last occurrence of `sep`. -/
def rsplitOnce (sep : α) (l : List α) : Option (List α × List α) :=
  (splitOnce sep l.reverse).map fun (after, before) => (before.reverse, after.reverse)

theorem rsplitOnce_eq_some_iff (sep : α) (l before after : List α) :
    rsplitOnce sep l = some (before, after) ↔ l = before ++ sep :: after ∧ sep ∉ after := by
  rw [rsplitOnce, Option.map_eq_some_iff]
  constructor
  · rintro ⟨⟨u, w⟩, hCut, hPair⟩
    cases hPair
    obtain ⟨hl, hu⟩ := (splitOnce_eq_some_iff sep _ u w).mp hCut
    refine ⟨?_, by simpa using hu⟩
    rw [← List.reverse_reverse l, hl]
    simp
  · rintro ⟨hl, hAfter⟩
    refine ⟨(after.reverse, before.reverse), ?_, by simp⟩
    rw [splitOnce_eq_some_iff, hl]
    exact ⟨by simp, by simpa using hAfter⟩

theorem rsplitOnce_eq_none_iff (sep : α) (l : List α) : rsplitOnce sep l = none ↔ sep ∉ l := by
  rw [rsplitOnce, Option.map_eq_none_iff, splitOnce_eq_none_iff, List.mem_reverse]

@[simp] theorem rsplitOnce_append (sep : α) (before after : List α) (h : sep ∉ after) :
    rsplitOnce sep (before ++ sep :: after) = some (before, after) :=
  (rsplitOnce_eq_some_iff sep _ before after).mpr ⟨rfl, h⟩

theorem rsplitOnce_map {f : α → α} {sep : α} (h : ∀ a, f a = sep ↔ a = sep) (l : List α) :
    rsplitOnce sep (l.map f) =
      (rsplitOnce sep l).map fun (before, after) => (before.map f, after.map f) := by
  rw [rsplitOnce, rsplitOnce, ← List.map_reverse, splitOnce_map h, Option.map_map, Option.map_map]
  congr 1
  funext cut
  simp

/-- At most `n` pieces, cut at the first separators; the last piece keeps the rest. -/
def splitn (sep : α) : Nat → List α → List (List α)
  | 0, _ => []
  | 1, l => [l]
  | n + 2, l =>
    match splitOnce sep l with
    | none => [l]
    | some (before, after) => before :: splitn sep (n + 1) after

theorem splitn_of_not_mem (sep : α) (n : Nat) (l : List α) (h : sep ∉ l) :
    splitn sep (n + 1) l = [l] := by
  cases n with
  | zero => rfl
  | succ n => rw [splitn, (splitOnce_eq_none_iff sep l).mpr h]

@[simp] theorem splitn_append (sep : α) (n : Nat) (before after : List α) (h : sep ∉ before) :
    splitn sep (n + 2) (before ++ sep :: after) = before :: splitn sep (n + 1) after := by
  rw [splitn, splitOnce_append sep before after h]

theorem splitn_map {f : α → α} {sep : α} (h : ∀ a, f a = sep ↔ a = sep) (n : Nat) (l : List α) :
    splitn sep n (l.map f) = (splitn sep n l).map (List.map f) := by
  induction n generalizing l with
  | zero => rfl
  | succ n ih =>
    cases n with
    | zero => rfl
    | succ n =>
      rw [splitn, splitn, splitOnce_map h]
      cases splitOnce sep l with
      | none => rfl
      | some cut => exact congrArg (cut.1.map f :: ·) (ih cut.2)

/-- The pieces read off the cut: every piece but the last is free of the separator. -/
theorem splitn_three_cases (sep : α) (l : List α) :
    (sep ∉ l ∧ splitn sep 3 l = [l]) ∨
    (∃ a b, l = a ++ sep :: b ∧ sep ∉ a ∧ sep ∉ b ∧ splitn sep 3 l = [a, b]) ∨
    (∃ a b c, l = a ++ sep :: (b ++ sep :: c) ∧ sep ∉ a ∧ sep ∉ b ∧ splitn sep 3 l = [a, b, c]) := by
  cases hFirst : splitOnce sep l with
  | none =>
    have hl := (splitOnce_eq_none_iff sep l).mp hFirst
    exact .inl ⟨hl, splitn_of_not_mem sep 2 l hl⟩
  | some cut =>
    obtain ⟨a, rest⟩ := cut
    obtain ⟨rfl, ha⟩ := (splitOnce_eq_some_iff sep l a rest).mp hFirst
    cases hSecond : splitOnce sep rest with
    | none =>
      have hRest := (splitOnce_eq_none_iff sep rest).mp hSecond
      refine .inr (.inl ⟨a, rest, rfl, ha, hRest, ?_⟩)
      rw [splitn_append sep 1 a rest ha, splitn_of_not_mem sep 1 rest hRest]
    | some cut =>
      obtain ⟨b, c⟩ := cut
      obtain ⟨rfl, hb⟩ := (splitOnce_eq_some_iff sep rest b c).mp hSecond
      refine .inr (.inr ⟨a, b, c, rfl, ha, hb, ?_⟩)
      rw [splitn_append sep 1 a _ ha, splitn_append sep 0 b c hb]
      rfl

/-- All pieces, one cut at a time. -/
theorem splitOn_cases (sep : α) (l : List α) :
    (sep ∉ l ∧ l.splitOn sep = [l]) ∨
    ∃ before rest, l = before ++ sep :: rest ∧ sep ∉ before ∧
      l.splitOn sep = before :: rest.splitOn sep := by
  cases hCut : splitOnce sep l with
  | none =>
    have hl := (splitOnce_eq_none_iff sep l).mp hCut
    exact .inl ⟨hl, List.splitOn_eq_singleton hl⟩
  | some cut =>
    obtain ⟨before, rest⟩ := cut
    obtain ⟨rfl, hBefore⟩ := (splitOnce_eq_some_iff sep l before rest).mp hCut
    exact .inr ⟨before, rest, rfl, hBefore, List.splitOn_append_cons_self_of_not_mem hBefore rest⟩

theorem splitOn_eq_singleton_iff (sep : α) (l piece : List α) :
    l.splitOn sep = [piece] ↔ l = piece ∧ sep ∉ l := by
  constructor
  · intro h
    rcases splitOn_cases sep l with ⟨hl, hSplit⟩ | ⟨before, rest, _, _, hSplit⟩
    · rw [hSplit] at h
      cases h
      exact ⟨rfl, hl⟩
    · rw [hSplit] at h
      cases hRest : rest.splitOn sep with
      | nil => exact absurd hRest (List.splitOn_ne_nil _ _)
      | cons _ _ =>
        rw [hRest] at h
        cases h
  · rintro ⟨rfl, hl⟩
    exact List.splitOn_eq_singleton hl

theorem splitOn_eq_cons_cons_iff (sep : α) (l first second : List α) (pieces : List (List α)) :
    l.splitOn sep = first :: second :: pieces ↔
      ∃ rest, l = first ++ sep :: rest ∧ sep ∉ first ∧ rest.splitOn sep = second :: pieces := by
  constructor
  · intro h
    rcases splitOn_cases sep l with ⟨_, hSplit⟩ | ⟨before, rest, hl, hBefore, hSplit⟩
    · rw [hSplit] at h
      cases h
    · obtain ⟨rfl, hRest⟩ := List.cons.inj (hSplit.symm.trans h)
      exact ⟨rest, hl, hBefore, hRest⟩
  · rintro ⟨rest, rfl, hFirst, hRest⟩
    rw [List.splitOn_append_cons_self_of_not_mem hFirst, hRest]

theorem splitOn_eq_three_iff (sep : α) (l a b c : List α) :
    l.splitOn sep = [a, b, c] ↔
      l = a ++ sep :: (b ++ sep :: c) ∧ sep ∉ a ∧ sep ∉ b ∧ sep ∉ c := by
  rw [splitOn_eq_cons_cons_iff]
  constructor
  · rintro ⟨rest, rfl, ha, hRest⟩
    obtain ⟨last, rfl, hb, hLast⟩ := (splitOn_eq_cons_cons_iff sep rest b c []).mp hRest
    obtain ⟨rfl, hc⟩ := (splitOn_eq_singleton_iff sep last c).mp hLast
    exact ⟨rfl, ha, hb, hc⟩
  · rintro ⟨rfl, ha, hb, hc⟩
    refine ⟨b ++ sep :: c, rfl, ha, ?_⟩
    exact (splitOn_eq_cons_cons_iff sep _ b c []).mpr
      ⟨c, rfl, hb, (splitOn_eq_singleton_iff sep c c).mpr ⟨rfl, hc⟩⟩

/-- The part after the last separator, the whole list where there is none. -/
def lastPiece (sep : α) (l : List α) : List α :=
  match rsplitOnce sep l with
  | none => l
  | some (_, after) => after

@[simp] theorem lastPiece_append (sep : α) (before after : List α) :
    lastPiece sep (before ++ sep :: after) = lastPiece sep after := by
  cases hCut : rsplitOnce sep after with
  | none =>
    have hAfter := (rsplitOnce_eq_none_iff sep after).mp hCut
    rw [lastPiece, lastPiece, rsplitOnce_append sep before after hAfter, hCut]
  | some cut =>
    obtain ⟨u, w⟩ := cut
    obtain ⟨rfl, hw⟩ := (rsplitOnce_eq_some_iff sep after u w).mp hCut
    have hWhole : before ++ sep :: (u ++ sep :: w) = (before ++ sep :: u) ++ sep :: w := by simp
    rw [lastPiece, lastPiece, hCut, hWhole, rsplitOnce_append sep _ w hw]

theorem lastPiece_of_not_mem (sep : α) (l : List α) (h : sep ∉ l) : lastPiece sep l = l := by
  rw [lastPiece, (rsplitOnce_eq_none_iff sep l).mpr h]

theorem lastPiece_append_of_not_mem (sep : α) (l w : List α) (h : sep ∉ w) :
    lastPiece sep (l ++ w) = lastPiece sep l ++ w := by
  cases hCut : rsplitOnce sep l with
  | none =>
    have hl := (rsplitOnce_eq_none_iff sep l).mp hCut
    rw [lastPiece_of_not_mem sep l hl, lastPiece_of_not_mem sep (l ++ w) (by simp [hl, h])]
  | some cut =>
    obtain ⟨u, v⟩ := cut
    obtain ⟨rfl, hv⟩ := (rsplitOnce_eq_some_iff sep l u v).mp hCut
    rw [List.append_assoc, List.cons_append, lastPiece_append, lastPiece_append,
      lastPiece_of_not_mem sep v hv, lastPiece_of_not_mem sep (v ++ w) (by simp [hv, h])]

theorem mem_of_mem_lastPiece {sep a : α} {l : List α} (h : a ∈ lastPiece sep l) : a ∈ l := by
  rw [lastPiece] at h
  split at h
  · exact h
  · rename_i before after hCut
    obtain ⟨rfl, _⟩ := (rsplitOnce_eq_some_iff sep l before after).mp hCut
    exact List.mem_append_right _ (List.mem_cons_of_mem _ h)

/-- Two separator-free heads with the same `a` leave the same `a` in the last piece. -/
theorem mem_lastPiece_congr {sep a : α} {l r : List α} (hl : sep ∉ l) (hr : sep ∉ r)
    (h : a ∈ l ↔ a ∈ r) (w : List α) : a ∈ lastPiece sep (l ++ w) ↔ a ∈ lastPiece sep (r ++ w) := by
  by_cases hw : sep ∈ w
  · obtain ⟨u, v, rfl⟩ := List.append_of_mem hw
    rw [← List.append_assoc, ← List.append_assoc, lastPiece_append, lastPiece_append]
  · rw [lastPiece_of_not_mem sep _ (by simp [hl, hw]), lastPiece_of_not_mem sep _ (by simp [hr, hw]),
      List.mem_append, List.mem_append, h]

theorem eq_nil_of_cons_eq {sep : α} {u b b' : List α} (h : sep :: b = u ++ sep :: b')
    (hCount : b.count sep = b'.count sep) : u = [] := by
  cases u with
  | nil => rfl
  | cons c u =>
    rw [List.cons_append] at h
    obtain ⟨_, rfl⟩ := List.cons.inj h
    rw [List.count_append, List.count_cons_self] at hCount
    omega

/-- A separator stands in one place where it is told how many follow it. -/
theorem append_cons_inj_of_count {sep : α} {a a' b b' : List α}
    (h : a ++ sep :: b = a' ++ sep :: b') (hCount : b.count sep = b'.count sep) :
    a = a' ∧ b = b' := by
  rcases List.append_eq_append_iff.mp h with ⟨u, rfl, hRest⟩ | ⟨u, rfl, hRest⟩
  · cases eq_nil_of_cons_eq hRest hCount
    exact ⟨(List.append_nil a).symm, (List.cons.inj hRest).2⟩
  · cases eq_nil_of_cons_eq hRest hCount.symm
    exact ⟨List.append_nil a', (List.cons.inj hRest).2.symm⟩

/-- The same told how many come before it. -/
theorem append_cons_inj_of_count_left {sep : α} {a a' b b' : List α}
    (h : a ++ sep :: b = a' ++ sep :: b') (hCount : a.count sep = a'.count sep) :
    a = a' ∧ b = b' := by
  have hTotal := congrArg (List.count sep) h
  simp only [List.count_append, List.count_cons_self] at hTotal
  exact append_cons_inj_of_count h (by omega)

theorem intercalate_cons_ne {sep : α} {c c' : List α} {rest : List (List α)} (hRest : rest ≠ [])
    (hCount : c.count sep = c'.count sep) : [sep].intercalate (c :: rest) ≠ c' := by
  intro h
  have hTotal := congrArg (List.count sep) h
  rw [List.intercalate_cons_of_ne_nil hRest, List.count_append, List.count_append,
    List.count_singleton_self] at hTotal
  omega

/-- Joined pieces are known where it is known how many separators each holds. -/
theorem intercalate_inj_of_count {sep : α} {l l' : List (List α)} (hl : l ≠ []) (hl' : l' ≠ [])
    (hCount : ∀ p ∈ l.zip l', p.1.count sep = p.2.count sep)
    (h : [sep].intercalate l = [sep].intercalate l') : l = l' := by
  induction l generalizing l' with
  | nil => exact absurd rfl hl
  | cons c rest ih =>
    cases l' with
    | nil => exact absurd rfl hl'
    | cons c' rest' =>
      rw [List.zip_cons_cons, List.forall_mem_cons] at hCount
      obtain ⟨hHead, hTail⟩ := hCount
      by_cases hRest : rest = []
      · by_cases hRest' : rest' = []
        · subst hRest hRest'
          rw [List.intercalate_singleton, List.intercalate_singleton] at h
          rw [h]
        · subst hRest
          rw [List.intercalate_singleton] at h
          exact absurd h.symm (intercalate_cons_ne hRest' hHead.symm)
      · by_cases hRest' : rest' = []
        · subst hRest'
          rw [List.intercalate_singleton] at h
          exact absurd h (intercalate_cons_ne hRest hHead)
        · rw [List.intercalate_cons_of_ne_nil hRest, List.intercalate_cons_of_ne_nil hRest',
            List.append_assoc, List.append_assoc] at h
          obtain ⟨rfl, hJoined⟩ := append_cons_inj_of_count_left h hHead
          rw [ih hRest hRest' hTail hJoined]

end ListCut
