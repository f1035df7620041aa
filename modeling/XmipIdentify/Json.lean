import Mathlib.Data.List.Lex
import Mathlib.Data.Char
import XmipIdentify.Library.Binary64
import XmipIdentify.Library.OrderedMap
import XmipIdentify.Library.Str

/-!
# JSON documents and their readings

A document keeps the members of its objects in order, names repeated or not.
A `Value` keeps one value for each name; which one is the reader's policy.
-/

namespace XmipIdentify

open Str SortedEntries

set_option autoImplicit false

/-- `serde_json::Number`; a float by its bits, which are those of a number. -/
inductive Number where
  | posInt (n : UInt64)
  | negInt (n : Int64)
  | float (bits : UInt64) (finite : Binary64.Finite bits)
deriving DecidableEq

inductive Json where
  | null
  | bool (b : Bool)
  | number (n : Number)
  | string (text : Text)
  | array (items : List Json)
  | object (members : List (Text × Json))

/-- `serde_json::Value`, an object by the entries of its map. -/
inductive Value where
  | null
  | bool (b : Bool)
  | number (n : Number)
  | string (text : Text)
  | array (items : List Value)
  | object (entries : List (Text × Value))

namespace Json

abbrev Put := Text → Value → List (Text × Value) → List (Text × Value)

mutual
/-- The value a reader makes which enters each member into its object by `put`. -/
def read (put : Put) : Json → Value
  | .null => .null
  | .bool b => .bool b
  | .number n => .number n
  | .string text => .string text
  | .array items => .array (readItems put items)
  | .object members => .object (readMembers put [] members)

def readItems (put : Put) : List Json → List Value
  | [] => []
  | item :: rest => item.read put :: readItems put rest

def readMembers (put : Put) (entries : List (Text × Value)) : List (Text × Json) → List (Text × Value)
  | [] => entries
  | (name, value) :: rest => readMembers put (put name (value.read put) entries) rest
end

/-- The reading of `serde_json`: a later member replaces an earlier one. -/
def lastWins (json : Json) : Value := json.read SortedEntries.insert

def firstWins (json : Json) : Value := json.read insertAbsent

theorem readItems_eq_map (put : Put) (items : List Json) :
    readItems put items = items.map (read put) := by
  induction items with
  | nil => rfl
  | cons item rest ih => rw [readItems, ih, List.map_cons]

theorem readMembers_eq_foldl (put : Put) (entries : List (Text × Value)) (members : List (Text × Json)) :
    readMembers put entries members =
      (members.map fun member => (member.1, member.2.read put)).foldl
        (fun entries member => put member.1 member.2 entries) entries := by
  induction members generalizing entries with
  | nil => rfl
  | cons member rest ih =>
    obtain ⟨name, value⟩ := member
    rw [readMembers, ih]
    rfl

theorem lookup_map {α β : Type} (f : α → β) (members : List (Text × α)) (name : Text) :
    (members.map fun member => (member.1, f member.2)).lookup name = (members.lookup name).map f := by
  induction members with
  | nil => rfl
  | cons member rest ih =>
    obtain ⟨key, value⟩ := member
    rw [List.map_cons, SortedEntries.lookup_cons, SortedEntries.lookup_cons, ih]
    split
    · rfl
    · rfl

theorem lastOf_map {α β : Type} (f : α → β) (members : List (Text × α)) (name : Text) :
    lastOf name (members.map fun member => (member.1, f member.2)) = (lastOf name members).map f := by
  rw [lastOf, ← List.map_reverse, lookup_map, lastOf]

theorem lookup_readMembers_insert (members : List (Text × Json)) (name : Text) :
    (readMembers SortedEntries.insert [] members).lookup name =
      (lastOf name members).map lastWins := by
  rw [readMembers_eq_foldl, lookup_foldl_insert, List.lookup_nil, Option.or_none, lastOf_map]
  rfl

theorem lookup_readMembers_insertAbsent (members : List (Text × Json)) (name : Text) :
    (readMembers insertAbsent [] members).lookup name = (members.lookup name).map firstWins := by
  rw [readMembers_eq_foldl, lookup_foldl_insertAbsent, List.lookup_nil, Option.none_or, lookup_map]
  rfl

theorem sorted_readMembers_insert (members : List (Text × Json)) :
    Sorted (readMembers SortedEntries.insert [] members) := by
  rw [readMembers_eq_foldl]
  exact sorted_foldl (fun name value _ h => h.insert name value) _ _ List.Pairwise.nil

theorem sorted_readMembers_insertAbsent (members : List (Text × Json)) :
    Sorted (readMembers insertAbsent [] members) := by
  rw [readMembers_eq_foldl]
  exact sorted_foldl (fun name value _ h => h.insertAbsent name value) _ _ List.Pairwise.nil

/-- The first and the last reading of an object agree name by name. -/
theorem readMembers_eq_iff (members members' : List (Text × Json)) :
    readMembers insertAbsent [] members = readMembers SortedEntries.insert [] members' ↔
      ∀ name, (members.lookup name).map firstWins = (lastOf name members').map lastWins := by
  constructor
  · intro h name
    rw [← lookup_readMembers_insertAbsent, h, lookup_readMembers_insert]
  · intro h
    refine SortedEntries.ext (sorted_readMembers_insertAbsent members)
      (sorted_readMembers_insert members') fun name => ?_
    rw [lookup_readMembers_insertAbsent, h, lookup_readMembers_insert]

/-- Two documents that mean one thing, the first to a reader that keeps the first of repeated
names and the second to a reader that keeps the last. -/
inductive Agree : Json → Json → Prop
  | null : Agree .null .null
  | bool (b : Bool) : Agree (.bool b) (.bool b)
  | number (n : Number) : Agree (.number n) (.number n)
  | string (text : Text) : Agree (.string text) (.string text)
  | array {items items' : List Json} (hLength : items.length = items'.length)
      (hItems : ∀ (i : Nat) (v w : Json), items[i]? = some v → items'[i]? = some w → Agree v w) :
      Agree (.array items) (.array items')
  | object {members members' : List (Text × Json)}
      (hNames : ∀ name, (members.lookup name).isSome = (lastOf name members').isSome)
      (hMembers : ∀ name v w, members.lookup name = some v → lastOf name members' = some w →
        Agree v w) :
      Agree (.object members) (.object members')

theorem sizeOf_lt_of_lookup {members : List (Text × Json)} {name : Text} {value : Json}
    (h : members.lookup name = some value) : sizeOf value < sizeOf members := by
  have hLess := List.sizeOf_lt_of_mem (mem_of_lookup h)
  rw [Prod.mk.sizeOf_spec] at hLess
  omega

theorem map_eq_map_iff {items items' : List Json} :
    items.map firstWins = items'.map lastWins ↔ items.length = items'.length ∧
      ∀ (i : Nat) (v w : Json), items[i]? = some v → items'[i]? = some w → v.firstWins = w.lastWins := by
  constructor
  · intro h
    refine ⟨by simpa using congrArg List.length h, fun i v w hv hw => ?_⟩
    have hi := congrArg (·[i]?) h
    simpa [hv, hw] using hi
  · rintro ⟨hLength, hItems⟩
    refine List.ext_getElem (by simpa using hLength) fun i hi hi' => ?_
    rw [List.getElem_map, List.getElem_map]
    exact hItems i _ _ (List.getElem?_eq_getElem _) (List.getElem?_eq_getElem _)

theorem map_lookup_eq_iff {members members' : List (Text × Json)} (name : Text) :
    (members.lookup name).map firstWins = (lastOf name members').map lastWins ↔
      (members.lookup name).isSome = (lastOf name members').isSome ∧
        ∀ v w, members.lookup name = some v → lastOf name members' = some w →
          v.firstWins = w.lastWins := by
  cases members.lookup name with
  | none =>
    cases lastOf name members' with
    | none => simp
    | some w => simp
  | some v =>
    cases lastOf name members' with
    | none => simp
    | some w => simp

theorem firstWins_eq_lastWins_of_agree {v w : Json} (h : Agree v w) : v.firstWins = w.lastWins := by
  induction h with
  | null => rfl
  | bool b => rfl
  | number n => rfl
  | string text => rfl
  | array hLength _ ih =>
    rw [firstWins, lastWins, read, read, readItems_eq_map, readItems_eq_map, Value.array.injEq]
    exact map_eq_map_iff.mpr ⟨hLength, ih⟩
  | object hNames _ ih =>
    rw [firstWins, lastWins, read, read, Value.object.injEq, readMembers_eq_iff]
    intro name
    exact (map_lookup_eq_iff name).mpr ⟨hNames name, ih name⟩

theorem agree_of_firstWins_eq_lastWins (v w : Json) (h : v.firstWins = w.lastWins) : Agree v w := by
  cases v with
  | null => cases w <;> cases h; exact .null
  | bool b => cases w <;> cases h; exact .bool b
  | number n => cases w <;> cases h; exact .number n
  | string text => cases w <;> cases h; exact .string text
  | array items =>
    cases w with
    | array items' =>
      rw [firstWins, lastWins, read, read, readItems_eq_map, readItems_eq_map,
        Value.array.injEq] at h
      obtain ⟨hLength, hItems⟩ := map_eq_map_iff.mp h
      refine .array hLength fun i v w hv hw => ?_
      have := List.sizeOf_lt_of_mem (List.mem_of_getElem? hv)
      exact agree_of_firstWins_eq_lastWins v w (hItems i v w hv hw)
    | _ => cases h
  | object members =>
    cases w with
    | object members' =>
      rw [firstWins, lastWins, read, read, Value.object.injEq, readMembers_eq_iff] at h
      refine .object (fun name => ((map_lookup_eq_iff name).mp (h name)).1)
        fun name v w hv hw => ?_
      have := sizeOf_lt_of_lookup hv
      exact agree_of_firstWins_eq_lastWins v w (((map_lookup_eq_iff name).mp (h name)).2 v w hv hw)
    | _ => cases h
termination_by sizeOf v
decreasing_by
  · subst_vars
    rw [array.sizeOf_spec]
    omega
  · subst_vars
    rw [object.sizeOf_spec]
    omega

theorem firstWins_eq_lastWins_iff (v w : Json) : v.firstWins = w.lastWins ↔ Agree v w :=
  ⟨agree_of_firstWins_eq_lastWins v w, firstWins_eq_lastWins_of_agree⟩

mutual
/-- No object in the document names a member twice. -/
def unrepeated : Json → Bool
  | .array items => unrepeatedItems items
  | .object members => decide (members.map Prod.fst).Nodup && unrepeatedMembers members
  | _ => true

def unrepeatedItems : List Json → Bool
  | [] => true
  | item :: rest => item.unrepeated && unrepeatedItems rest

def unrepeatedMembers : List (Text × Json) → Bool
  | [] => true
  | (_, value) :: rest => value.unrepeated && unrepeatedMembers rest
end

mutual
theorem agree_self (json : Json) (h : json.unrepeated = true) : Agree json json := by
  cases json with
  | null => exact .null
  | bool b => exact .bool b
  | number n => exact .number n
  | string text => exact .string text
  | array items =>
    rw [unrepeated] at h
    refine .array rfl fun i v w hv hw => ?_
    cases hv.symm.trans hw
    exact agree_self_items items h v (List.mem_of_getElem? hv)
  | object members =>
    rw [unrepeated, Bool.and_eq_true, decide_eq_true_eq] at h
    refine .object (fun name => (isSome_lastOf name members).symm) fun name v w hv hw => ?_
    rw [lastOf_eq_lookup h.1] at hw
    cases hv.symm.trans hw
    exact agree_self_members members h.2 (name, v) (mem_of_lookup hv)
termination_by sizeOf json

theorem agree_self_items : ∀ items, unrepeatedItems items = true → ∀ item ∈ items, Agree item item
  | [], _, _, hItem => nomatch hItem
  | head :: rest, h, item, hItem => by
    rw [unrepeatedItems, Bool.and_eq_true] at h
    rcases List.mem_cons.mp hItem with hHead | hItem
    · rw [hHead]
      exact agree_self head h.1
    · exact agree_self_items rest h.2 item hItem
termination_by items => sizeOf items

theorem agree_self_members : ∀ members, unrepeatedMembers members = true →
    ∀ member ∈ members, Agree member.2 member.2
  | [], _, _, hMember => nomatch hMember
  | (name, value) :: rest, h, member, hMember => by
    rw [unrepeatedMembers, Bool.and_eq_true] at h
    rcases List.mem_cons.mp hMember with hHead | hMember
    · rw [hHead]
      exact agree_self value h.1
    · exact agree_self_members rest h.2 member hMember
termination_by members => sizeOf members
end

end Json

end XmipIdentify
