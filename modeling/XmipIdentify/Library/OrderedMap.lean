import Mathlib.Data.List.Pairwise
import Mathlib.Order.Lattice

/-!
# Maps ordered by their keys

A map is its entries in increasing order of the keys, so two maps that answer
every lookup alike are one map. Building a map from a list whose names repeat
keeps the last or the first value of each, by how the next entry is put in.
-/

namespace SortedEntries

set_option autoImplicit false

variable {κ α : Type}

section Lookup

variable [BEq κ]

/-- The value of the last entry named `name`. -/
def lastOf (name : κ) (members : List (κ × α)) : Option α := members.reverse.lookup name

variable [LawfulBEq κ]

theorem lookup_cons [DecidableEq κ] (name key : κ) (value : α) (rest : List (κ × α)) :
    ((key, value) :: rest).lookup name = if name = key then some value else rest.lookup name := by
  rw [List.lookup_cons]
  by_cases h : name = key
  · rw [if_pos h, beq_iff_eq.mpr h]
  · rw [if_neg h, beq_eq_false_iff_ne.mpr h]

theorem mem_of_lookup {name : κ} {value : α} {members : List (κ × α)}
    (h : members.lookup name = some value) : (name, value) ∈ members := by
  obtain ⟨u, w, rfl, _⟩ := List.lookup_eq_some_iff.mp h
  simp

theorem isSome_lastOf (name : κ) (members : List (κ × α)) :
    (lastOf name members).isSome = (members.lookup name).isSome := by
  rw [Bool.eq_iff_iff, lastOf, List.lookup_isSome_iff, List.lookup_isSome_iff]
  simp

theorem lookup_eq_none_of_not_mem {name : κ} {members : List (κ × α)}
    (h : name ∉ members.map Prod.fst) : members.lookup name = none := by
  rw [List.lookup_eq_none_iff]
  intro entry hEntry
  exact bne_iff_ne.mpr fun hEq => h (hEq ▸ List.mem_map.mpr ⟨entry, hEntry, rfl⟩)

/-- Where no name repeats, every member is found under its name. -/
theorem lookup_of_mem {members : List (κ × α)} (h : (members.map Prod.fst).Nodup)
    {member : κ × α} (hMember : member ∈ members) : members.lookup member.1 = some member.2 := by
  induction members with
  | nil => cases hMember
  | cons head rest ih =>
    obtain ⟨hHead, hRest⟩ := List.nodup_cons.mp h
    rcases List.mem_cons.mp hMember with rfl | hMember
    · exact List.lookup_cons_self
    · have hName : member.1 ≠ head.1 :=
        ne_of_mem_of_not_mem (List.mem_map.mpr ⟨member, hMember, rfl⟩) hHead
      rw [List.lookup_cons, beq_eq_false_iff_ne.mpr hName]
      exact ih hRest hMember

theorem lookup_eq_some_iff_mem {members : List (κ × α)} (h : (members.map Prod.fst).Nodup)
    (name : κ) (value : α) : members.lookup name = some value ↔ (name, value) ∈ members :=
  ⟨mem_of_lookup, fun hMember => lookup_of_mem h hMember⟩

/-- Where no name repeats, the order of the members is not seen. -/
theorem lookup_perm {members members' : List (κ × α)} (h : (members.map Prod.fst).Nodup)
    (hPerm : members.Perm members') (name : κ) : members.lookup name = members'.lookup name := by
  apply Option.ext
  intro value
  rw [lookup_eq_some_iff_mem h,
    lookup_eq_some_iff_mem ((hPerm.map Prod.fst).nodup_iff.mp h), hPerm.mem_iff]

end Lookup

variable [LinearOrder κ]

def Sorted (entries : List (κ × α)) : Prop := entries.Pairwise (fun a b => a.1 < b.1)

/-- The entry of `name` is replaced, or put in before the first larger key. -/
def insert (name : κ) (value : α) : List (κ × α) → List (κ × α)
  | [] => [(name, value)]
  | (key, old) :: rest =>
    if name < key then (name, value) :: (key, old) :: rest
    else if name = key then (name, value) :: rest
    else (key, old) :: insert name value rest

theorem mem_insert {name : κ} {value : α} {entries : List (κ × α)} {entry : κ × α}
    (h : entry ∈ insert name value entries) : entry = (name, value) ∨ entry ∈ entries := by
  induction entries with
  | nil => exact .inl (List.mem_singleton.mp h)
  | cons head rest ih =>
    obtain ⟨key, old⟩ := head
    rw [insert] at h
    split at h
    · exact List.mem_cons.mp h
    · split at h
      · exact (List.mem_cons.mp h).imp_right (List.mem_cons_of_mem _)
      · rcases List.mem_cons.mp h with rfl | h
        · exact .inr List.mem_cons_self
        · exact (ih h).imp_right (List.mem_cons_of_mem _)

theorem Sorted.insert {entries : List (κ × α)} (h : Sorted entries) (name : κ) (value : α) :
    Sorted (insert name value entries) := by
  induction entries with
  | nil => exact List.pairwise_singleton _ _
  | cons head rest ih =>
    obtain ⟨key, old⟩ := head
    obtain ⟨hHead, hRest⟩ := List.pairwise_cons.mp h
    rw [SortedEntries.insert]
    split
    · rename_i hLess
      refine List.pairwise_cons.mpr ⟨fun entry hEntry => ?_, h⟩
      rcases List.mem_cons.mp hEntry with rfl | hEntry
      · exact hLess
      · exact lt_trans hLess (hHead entry hEntry)
    · split
      · rename_i hEqual
        subst hEqual
        exact List.pairwise_cons.mpr ⟨hHead, hRest⟩
      · rename_i hLess hEqual
        refine List.pairwise_cons.mpr ⟨fun entry hEntry => ?_, ih hRest⟩
        rcases mem_insert hEntry with rfl | hEntry
        · exact lt_of_le_of_ne (not_lt.mp hLess) (Ne.symm hEqual)
        · exact hHead entry hEntry

theorem sorted_foldl {put : κ → α → List (κ × α) → List (κ × α)}
    (hPut : ∀ name value entries, Sorted entries → Sorted (put name value entries))
    (members entries : List (κ × α)) (h : Sorted entries) :
    Sorted (members.foldl (fun entries member => put member.1 member.2 entries) entries) := by
  induction members generalizing entries with
  | nil => exact h
  | cons member rest ih => exact ih _ (hPut _ _ _ h)

variable [BEq κ]

/-- The entry is put in where its name has none yet. -/
def insertAbsent (name : κ) (value : α) (entries : List (κ × α)) : List (κ × α) :=
  if (entries.lookup name).isSome then entries else insert name value entries

theorem Sorted.insertAbsent {entries : List (κ × α)} (h : Sorted entries) (name : κ) (value : α) :
    Sorted (insertAbsent name value entries) := by
  rw [SortedEntries.insertAbsent]
  split
  · exact h
  · exact h.insert name value

variable [LawfulBEq κ]

@[simp] theorem lookup_insert (name other : κ) (value : α) (entries : List (κ × α)) :
    (insert name value entries).lookup other =
      if other = name then some value else entries.lookup other := by
  induction entries with
  | nil => simp [insert, lookup_cons]
  | cons head rest ih =>
    obtain ⟨key, old⟩ := head
    rw [insert]
    split
    · simp [lookup_cons]
    · split
      · rename_i hEqual
        subst hEqual
        by_cases hOther : other = name
        · simp [hOther]
        · simp [lookup_cons, hOther]
      · rename_i hEqual
        by_cases hOther : other = key
        · subst hOther
          simp [Ne.symm hEqual]
        · simp [lookup_cons, hOther, ih]

/-- A key below every key of the entries is not among them. -/
theorem lookup_eq_none_of_lt {entries : List (κ × α)} {name : κ}
    (h : ∀ entry ∈ entries, name < entry.1) : entries.lookup name = none := by
  rw [List.lookup_eq_none_iff]
  intro entry hEntry
  exact bne_iff_ne.mpr (ne_of_lt (h entry hEntry))

theorem key_le_of_lookup {key : κ} {value : α} {rest entries : List (κ × α)}
    (hEntries : Sorted entries)
    (hLookup : ∀ name, ((key, value) :: rest).lookup name = entries.lookup name) :
    ∃ key' value' rest', entries = (key', value') :: rest' ∧ key' ≤ key := by
  have hKey := hLookup key
  rw [List.lookup_cons_self] at hKey
  cases entries with
  | nil => cases hKey
  | cons head rest' =>
    obtain ⟨key', value'⟩ := head
    refine ⟨key', value', rest', rfl, not_lt.mp fun hLess => ?_⟩
    have hNone : ((key', value') :: rest').lookup key = none := by
      refine lookup_eq_none_of_lt fun entry hEntry => ?_
      rcases List.mem_cons.mp hEntry with rfl | hEntry
      · exact hLess
      · exact lt_trans hLess ((List.pairwise_cons.mp hEntries).1 entry hEntry)
    rw [hNone] at hKey
    cases hKey

theorem ext {a b : List (κ × α)} (ha : Sorted a) (hb : Sorted b)
    (hLookup : ∀ name, a.lookup name = b.lookup name) : a = b := by
  induction a generalizing b with
  | nil =>
    cases b with
    | nil => rfl
    | cons head rest =>
      have := hLookup head.1
      rw [List.lookup_nil, List.lookup_cons_self] at this
      cases this
  | cons head rest ih =>
    obtain ⟨key, value⟩ := head
    obtain ⟨key', value', rest', rfl, hLe⟩ := key_le_of_lookup hb hLookup
    obtain ⟨_, _, _, hEq, hGe⟩ := key_le_of_lookup ha fun name => (hLookup name).symm
    cases hEq
    obtain rfl := le_antisymm hLe hGe
    have hValue := hLookup key'
    rw [List.lookup_cons_self, List.lookup_cons_self] at hValue
    cases hValue
    obtain ⟨hHead, hRest⟩ := List.pairwise_cons.mp ha
    obtain ⟨hHead', hRest'⟩ := List.pairwise_cons.mp hb
    congr 1
    refine ih hRest hRest' fun name => ?_
    by_cases hName : name = key'
    · rw [hName, lookup_eq_none_of_lt hHead, lookup_eq_none_of_lt hHead']
    · have := hLookup name
      simpa [lookup_cons, hName] using this

@[simp] theorem lookup_insertAbsent (name other : κ) (value : α) (entries : List (κ × α)) :
    (insertAbsent name value entries).lookup other =
      (entries.lookup other).or (if other = name then some value else none) := by
  rw [insertAbsent]
  split
  · rename_i hSome
    obtain ⟨old, hOld⟩ := Option.isSome_iff_exists.mp hSome
    by_cases hOther : other = name
    · rw [hOther, hOld]
      rfl
    · rw [if_neg hOther, Option.or_none]
  · rename_i hNone
    rw [lookup_insert]
    by_cases hOther : other = name
    · subst hOther
      rw [Option.not_isSome_iff_eq_none.mp hNone, if_pos rfl]
      rfl
    · rw [if_neg hOther, if_neg hOther, Option.or_none]

theorem lastOf_cons (name key : κ) (value : α) (rest : List (κ × α)) :
    lastOf name ((key, value) :: rest) =
      (lastOf name rest).or (if name = key then some value else none) := by
  rw [lastOf, List.reverse_cons, List.lookup_append, lookup_cons, List.lookup_nil, lastOf]

theorem lookup_foldl_insert (members entries : List (κ × α)) (name : κ) :
    (members.foldl (fun entries member => insert member.1 member.2 entries) entries).lookup name =
      (lastOf name members).or (entries.lookup name) := by
  induction members generalizing entries with
  | nil => rfl
  | cons member rest ih =>
    obtain ⟨key, value⟩ := member
    rw [List.foldl_cons, ih, lookup_insert, lastOf_cons, Option.or_assoc]
    split
    · rfl
    · rfl

theorem lookup_foldl_insertAbsent (members entries : List (κ × α)) (name : κ) :
    (members.foldl (fun entries member => insertAbsent member.1 member.2 entries) entries).lookup
        name = (entries.lookup name).or (members.lookup name) := by
  induction members generalizing entries with
  | nil => simp
  | cons member rest ih =>
    obtain ⟨key, value⟩ := member
    rw [List.foldl_cons, ih, lookup_insertAbsent, Option.or_assoc, lookup_cons]
    by_cases hName : name = key
    · simp [hName]
    · simp [hName]

/-- Where no name repeats, the last entry of a name is its first. -/
theorem lastOf_eq_lookup {members : List (κ × α)} (h : (members.map Prod.fst).Nodup) (name : κ) :
    lastOf name members = members.lookup name := by
  induction members with
  | nil => rfl
  | cons member rest ih =>
    obtain ⟨key, value⟩ := member
    rw [List.map_cons, List.nodup_cons] at h
    rw [lastOf_cons, ih h.2, lookup_cons]
    by_cases hName : name = key
    · subst hName
      simp [lookup_eq_none_of_not_mem h.1]
    · simp [hName]

end SortedEntries

/-- A map whose entries are kept in the order of their keys. -/
structure OrderedMap (κ α : Type) [LinearOrder κ] where
  entries : List (κ × α)
  sorted : SortedEntries.Sorted entries

namespace OrderedMap

set_option autoImplicit false

variable {κ α : Type} [LinearOrder κ]

def empty : OrderedMap κ α := ⟨[], List.Pairwise.nil⟩

def insert (map : OrderedMap κ α) (name : κ) (value : α) : OrderedMap κ α :=
  ⟨SortedEntries.insert name value map.entries, map.sorted.insert name value⟩

def insertAll (map : OrderedMap κ α) (members : List (κ × α)) : OrderedMap κ α :=
  members.foldl (fun map member => map.insert member.1 member.2) map

theorem entries_insertAll (map : OrderedMap κ α) (members : List (κ × α)) :
    (map.insertAll members).entries =
      members.foldl (fun entries member => SortedEntries.insert member.1 member.2 entries)
        map.entries := by
  induction members generalizing map with
  | nil => rfl
  | cons member rest ih => exact ih (map.insert member.1 member.2)

variable [BEq κ]

def get (map : OrderedMap κ α) (name : κ) : Option α := map.entries.lookup name

def containsKey (map : OrderedMap κ α) (name : κ) : Bool := (map.get name).isSome

@[simp] theorem get_empty (name : κ) : (empty : OrderedMap κ α).get name = none := rfl

variable [LawfulBEq κ]

@[simp] theorem get_insert (map : OrderedMap κ α) (name other : κ) (value : α) :
    (map.insert name value).get other = if other = name then some value else map.get other :=
  SortedEntries.lookup_insert name other value map.entries

theorem get_insertAll (map : OrderedMap κ α) (members : List (κ × α)) (name : κ) :
    (map.insertAll members).get name = (SortedEntries.lastOf name members).or (map.get name) := by
  rw [get, entries_insertAll, SortedEntries.lookup_foldl_insert, get]

end OrderedMap
