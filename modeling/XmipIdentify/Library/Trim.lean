import Mathlib.Data.List.DropRight

/-!
# Trimming a list at both ends

`trim p` drops the longest run satisfying `p` at each end. `Trimmed p` says
that neither end satisfies it, which is exactly what trimming reaches.
-/

namespace ListTrim

set_option autoImplicit false

universe u

variable {α : Type u} (p : α → Bool)

def trim (l : List α) : List α := (l.dropWhile p).rdropWhile p

structure Trimmed (l : List α) : Prop where
  head : ∀ a ∈ l.head?, p a = false
  last : ∀ a ∈ l.getLast?, p a = false

theorem rdropWhile_eq_self_of_last {l : List α} (h : ∀ a ∈ l.getLast?, p a = false) :
    l.rdropWhile p = l := by
  rw [List.rdropWhile_eq_self_iff]
  intro hl hp
  rw [h _ (List.getLast_mem_getLast? hl)] at hp
  cases hp

theorem last_rdropWhile (l : List α) : ∀ a ∈ (l.rdropWhile p).getLast?, p a = false := by
  intro a ha
  have hl : l.rdropWhile p ≠ [] := by
    intro hEmpty
    rw [hEmpty] at ha
    cases ha
  rw [List.getLast?_eq_some_getLast hl] at ha
  cases ha
  exact Bool.eq_false_iff.mpr (List.rdropWhile_last_not p l hl)

theorem dropWhile_eq_self_of_head {l : List α} (h : ∀ a ∈ l.head?, p a = false) :
    l.dropWhile p = l := by
  cases l with
  | nil => rfl
  | cons a rest => exact List.dropWhile_cons_of_neg (by simp [h a rfl])

theorem trim_of_trimmed {l : List α} (h : Trimmed p l) : trim p l = l := by
  rw [trim, dropWhile_eq_self_of_head p h.head, rdropWhile_eq_self_of_last p h.last]

theorem head?_of_starts {l r : List α} (h : l <+: r) : ∀ a ∈ l.head?, a ∈ r.head? := by
  obtain ⟨t, rfl⟩ := h
  intro a ha
  cases l with
  | nil => cases ha
  | cons b l => exact ha

theorem trimmed_trim (l : List α) : Trimmed p (trim p l) where
  head a ha := by
    have hHead := head?_of_starts (List.rdropWhile_prefix p (l.dropWhile p)) a ha
    have := List.head?_dropWhile_not p l
    rw [Option.mem_def.mp hHead] at this
    simpa using this
  last := last_rdropWhile p (l.dropWhile p)

theorem trim_eq_self_iff (l : List α) : trim p l = l ↔ Trimmed p l :=
  ⟨fun h => h ▸ trimmed_trim p l, trim_of_trimmed p⟩

theorem rdropWhile_append_of_all {l w : List α} (hw : ∀ a ∈ w, p a = true) :
    (l ++ w).rdropWhile p = l.rdropWhile p := by
  rw [List.rdropWhile, List.rdropWhile, List.reverse_append,
    List.dropWhile_append_of_pos (fun a ha => hw a (List.mem_reverse.mp ha))]

/-- What surrounds a list does not survive trimming. -/
theorem trim_surround {u l w : List α} (hu : ∀ a ∈ u, p a = true) (hw : ∀ a ∈ w, p a = true) :
    trim p (u ++ (l ++ w)) = trim p l := by
  rw [trim, trim, List.dropWhile_append_of_pos hu, List.dropWhile_append]
  split
  · rename_i hEmpty
    have hl : l.dropWhile p = [] := List.isEmpty_iff.mp hEmpty
    rw [hl, List.dropWhile_eq_nil_iff.mpr hw]
  · rw [rdropWhile_append_of_all p hw]

theorem exists_rdropWhile (l : List α) : ∃ w, l = l.rdropWhile p ++ w ∧ ∀ a ∈ w, p a = true :=
  ⟨l.rtakeWhile p, (List.rdropWhile_append_rtakeWhile).symm, fun _ h => List.mem_rtakeWhile_imp h⟩

theorem exists_trim (l : List α) :
    ∃ u w, l = u ++ (trim p l ++ w) ∧ (∀ a ∈ u, p a = true) ∧ ∀ a ∈ w, p a = true := by
  obtain ⟨w, hl, hw⟩ := exists_rdropWhile p (l.dropWhile p)
  refine ⟨l.takeWhile p, w, ?_, fun a ha => List.mem_takeWhile_imp ha, hw⟩
  rw [trim, ← hl, List.takeWhile_append_dropWhile]

theorem trim_isInfix (l : List α) : trim p l <:+: l := by
  obtain ⟨u, w, hl, _, _⟩ := exists_trim p l
  exact ⟨u, w, by rw [List.append_assoc]; exact hl.symm⟩

theorem trim_sublist (l : List α) : (trim p l).Sublist l := (trim_isInfix p l).sublist

theorem mem_of_mem_trim {l : List α} {a : α} (h : a ∈ trim p l) : a ∈ l :=
  (trim_sublist p l).subset h

theorem mem_trim_of_not {l : List α} {a : α} (h : a ∈ l) (ha : p a = false) : a ∈ trim p l := by
  obtain ⟨u, w, hl, hu, hw⟩ := exists_trim p l
  rw [hl, List.mem_append, List.mem_append] at h
  rcases h with h | h | h
  · rw [hu a h] at ha
    cases ha
  · exact h
  · rw [hw a h] at ha
    cases ha

theorem rdropWhile_append_of_ne_nil {l w : List α} (h : w.rdropWhile p ≠ []) :
    (l ++ w).rdropWhile p = l ++ w.rdropWhile p := by
  obtain ⟨v, hw, hv⟩ := exists_rdropWhile p w
  have hLast : ∀ a ∈ (l ++ w.rdropWhile p).getLast?, p a = false := by
    rw [List.getLast?_append_of_ne_nil _ h]
    exact last_rdropWhile p w
  calc
    (l ++ w).rdropWhile p = (l ++ w.rdropWhile p ++ v).rdropWhile p := by
      rw [List.append_assoc, ← hw]
    _ = (l ++ w.rdropWhile p).rdropWhile p := rdropWhile_append_of_all p hv
    _ = l ++ w.rdropWhile p := rdropWhile_eq_self_of_last p hLast

theorem rdropWhile_ne_nil_of_head {l : List α} (hl : l ≠ []) (h : ∀ a ∈ l.head?, p a = false) :
    l.rdropWhile p ≠ [] := by
  intro hEmpty
  have hAll := List.rdropWhile_eq_nil_iff.mp hEmpty
  cases l with
  | nil => exact hl rfl
  | cons a l =>
    have := hAll a List.mem_cons_self
    rw [h a rfl] at this
    cases this

/-- A list that starts well is trimmed by its end alone. -/
theorem trim_of_head {l : List α} (h : ∀ a ∈ l.head?, p a = false) : trim p l = l.rdropWhile p := by
  rw [trim, dropWhile_eq_self_of_head p h]

@[simp] theorem trimmed_nil : Trimmed p [] := ⟨by simp, by simp⟩

theorem rdropWhile_cons_of_not {a : α} (ha : p a = false) (r : List α) :
    (a :: r).rdropWhile p = a :: r.rdropWhile p := by
  by_cases hr : r.rdropWhile p = []
  · have hAll : ∀ b ∈ r, p b = true := List.rdropWhile_eq_nil_iff.mp hr
    rw [hr, ← List.singleton_append, rdropWhile_append_of_all p hAll]
    exact rdropWhile_eq_self_of_last p (by simpa using ha)
  · rw [← List.singleton_append, rdropWhile_append_of_ne_nil p hr]
    rfl

/-- What stands between two parts keeps the one from being trimmed on its right and the other
on its left. -/
theorem trim_append_cons {a : α} (ha : p a = false) (l r : List α) :
    trim p (l ++ a :: r) = l.dropWhile p ++ a :: r.rdropWhile p := by
  have hDrop : (l ++ a :: r).dropWhile p = l.dropWhile p ++ a :: r := by
    rw [List.dropWhile_append]
    split
    · rename_i hEmpty
      rw [List.isEmpty_iff.mp hEmpty, List.nil_append]
      exact List.dropWhile_cons_of_neg (by simp [ha])
    · rfl
  have hCons := rdropWhile_cons_of_not p ha r
  rw [trim, hDrop, rdropWhile_append_of_ne_nil p (by rw [hCons]; exact List.cons_ne_nil _ _), hCons]

theorem trim_dropWhile (l : List α) : trim p (l.dropWhile p) = trim p l := by
  rw [trim, trim, List.dropWhile_idempotent]

theorem trim_rdropWhile (l : List α) : trim p (l.rdropWhile p) = trim p l := by
  obtain ⟨w, hl, hw⟩ := exists_rdropWhile p l
  have hSurround := trim_surround p (l := l.rdropWhile p) (u := []) (by simp) hw
  rw [List.nil_append, ← hl] at hSurround
  exact hSurround.symm

theorem rdropWhile_map {f : α → α} (h : ∀ a, p (f a) = p a) (l : List α) :
    (l.map f).rdropWhile p = (l.rdropWhile p).map f := by
  have hComp : p ∘ f = p := funext h
  rw [List.rdropWhile, List.rdropWhile, ← List.map_reverse, List.dropWhile_map, hComp,
    List.map_reverse]

theorem trim_map {f : α → α} (h : ∀ a, p (f a) = p a) (l : List α) :
    trim p (l.map f) = (trim p l).map f := by
  have hComp : p ∘ f = p := funext h
  rw [trim, trim, List.dropWhile_map, hComp, rdropWhile_map p h]

theorem Trimmed.of_forall {l : List α} (h : ∀ a ∈ l, p a = false) : Trimmed p l where
  head a ha := h a (List.mem_of_head? ha)
  last a ha := h a (List.mem_of_getLast? ha)

/-- Two ends fix a trimmed list, whatever lies between them. -/
theorem Trimmed.append {l r : List α} (hl : Trimmed p l) (hr : Trimmed p r)
    (hlNe : l ≠ []) (hrNe : r ≠ []) (m : List α) : Trimmed p (l ++ (m ++ r)) where
  head a ha := hl.head a (by rwa [List.head?_append_of_ne_nil _ hlNe] at ha)
  last a ha := by
    rw [← List.append_assoc, List.getLast?_append_of_ne_nil _ hrNe] at ha
    exact hr.last a ha

end ListTrim
