import Mathlib.Data.Nat.Digits.Lemmas

/-!
# Definite-length encodings

A tag octet, the length of the content, the content. A length below 128 is one
octet, a longer one is counted by the first octet and written in base 256; the
first octet X.690 reserves stands here for lengths no count of octets reaches,
so that every content has an encoding.
-/

namespace Der

set_option autoImplicit false

structure Tlv where
  tag : UInt8
  content : List UInt8
deriving DecidableEq

/-- The tag is one octet: its number is below 31. -/
def LowTag (tag : UInt8) : Prop := tag.toNat % 32 ≠ 31

instance (tag : UInt8) : Decidable (LowTag tag) := inferInstanceAs (Decidable (_ ≠ _))

theorem toNat_ofNat {n : Nat} (h : n < 256) : (UInt8.ofNat n).toNat = n :=
  UInt8.toNat_ofNat_of_lt h

def digits (n : Nat) : List UInt8 := ((Nat.digits 256 n).map UInt8.ofNat).reverse

def undigits (octets : List UInt8) : Nat := Nat.ofDigits 256 (octets.reverse.map UInt8.toNat)

theorem undigits_digits (n : Nat) : undigits (digits n) = n := by
  have hMap : ((Nat.digits 256 n).map UInt8.ofNat).map UInt8.toNat = Nat.digits 256 n := by
    rw [List.map_map]
    conv_rhs => rw [← List.map_id (Nat.digits 256 n)]
    refine List.map_congr_left fun d hd => ?_
    have hLess : d < 256 := Nat.digits_lt_base (by decide) hd
    exact toNat_ofNat hLess
  rw [undigits, digits, List.reverse_reverse, hMap, Nat.ofDigits_digits]

def lengthOctets (n : Nat) : List UInt8 :=
  if n < 128 then [UInt8.ofNat n]
  else if (digits n).length < 127 then UInt8.ofNat (128 + (digits n).length) :: digits n
  else 255 :: (List.replicate n 1 ++ [0])

def readLength : List UInt8 → Option (Nat × List UInt8)
  | [] => none
  | first :: rest =>
    if first.toNat < 128 then some (first.toNat, rest)
    else if first.toNat = 255 then
      some ((rest.takeWhile (· == 1)).length, (rest.dropWhile (· == 1)).drop 1)
    else if first.toNat - 128 ≤ rest.length then
      some (undigits (rest.take (first.toNat - 128)), rest.drop (first.toNat - 128))
    else none

theorem takeWhile_replicate (n : Nat) (rest : List UInt8) :
    (List.replicate n 1 ++ 0 :: rest).takeWhile (· == 1) = List.replicate n 1 ∧
      (List.replicate n 1 ++ 0 :: rest).dropWhile (· == 1) = 0 :: rest := by
  induction n with
  | zero => exact ⟨rfl, rfl⟩
  | succ n ih =>
    rw [List.replicate_succ, List.cons_append, List.takeWhile_cons, List.dropWhile_cons, ih.1, ih.2]
    exact ⟨rfl, rfl⟩

theorem readLength_lengthOctets (n : Nat) (rest : List UInt8) :
    readLength (lengthOctets n ++ rest) = some (n, rest) := by
  rw [lengthOctets]
  split
  · rename_i hShort
    have hFirst : (UInt8.ofNat n).toNat = n := toNat_ofNat (by omega)
    rw [List.cons_append, readLength, hFirst, if_pos hShort]
    rfl
  · split
    · rename_i hCount
      have hFirst : (UInt8.ofNat (128 + (digits n).length)).toNat = 128 + (digits n).length :=
        toNat_ofNat (by omega)
      have hCounted : 128 + (digits n).length - 128 = (digits n).length := by omega
      rw [List.cons_append, readLength, hFirst, if_neg (by omega), if_neg (by omega), hCounted,
        if_pos (by simp), List.take_left, List.drop_left, undigits_digits]
    · have hRest : (List.replicate n (1 : UInt8) ++ [0]) ++ rest = List.replicate n 1 ++ 0 :: rest := by
        simp
      rw [List.cons_append, readLength, if_neg (by decide), if_pos (by decide), hRest,
        (takeWhile_replicate n rest).1, (takeWhile_replicate n rest).2, List.length_replicate]
      rfl

theorem readLength_slice {octets rest : List UInt8} {n : Nat}
    (h : readLength octets = some (n, rest)) : rest <:+ octets ∧ rest.length < octets.length := by
  cases octets with
  | nil => cases h
  | cons first tail =>
    have hTail (hSuffix : rest <:+ tail) : rest <:+ first :: tail ∧ rest.length < (first :: tail).length :=
      ⟨hSuffix.trans (List.suffix_cons first tail), Nat.lt_succ_of_le hSuffix.length_le⟩
    rw [readLength] at h
    split at h
    · obtain ⟨_, rfl⟩ := Prod.mk.inj (Option.some.inj h)
      exact hTail (List.suffix_refl _)
    · split at h
      · obtain ⟨_, rfl⟩ := Prod.mk.inj (Option.some.inj h)
        exact hTail ((List.drop_suffix _ _).trans (List.dropWhile_suffix _))
      · split at h
        · obtain ⟨_, rfl⟩ := Prod.mk.inj (Option.some.inj h)
          exact hTail (List.drop_suffix _ _)
        · cases h

def tlv (tag : UInt8) (content : List UInt8) : List UInt8 :=
  tag :: (lengthOctets content.length ++ content)

def read : List UInt8 → Option (Tlv × List UInt8)
  | [] => none
  | tag :: octets =>
    if LowTag tag then
      match readLength octets with
      | none => none
      | some (n, rest) => if n ≤ rest.length then some (⟨tag, rest.take n⟩, rest.drop n) else none
    else none

theorem read_tlv {tag : UInt8} (hTag : LowTag tag) (content rest : List UInt8) :
    read (tlv tag content ++ rest) = some (⟨tag, content⟩, rest) := by
  rw [tlv, List.cons_append, read, if_pos hTag, List.append_assoc, readLength_lengthOctets]
  simp

/-- The content and the rest are slices of what is read, and the tag and the length are beside them. -/
theorem read_slices {octets rest : List UInt8} {element : Tlv}
    (h : read octets = some (element, rest)) :
    element.content <:+: octets ∧ rest <:+: octets ∧
      element.content.length + rest.length < octets.length := by
  cases octets with
  | nil => cases h
  | cons tag tail =>
    rw [read] at h
    split at h
    · split at h
      · cases h
      · rename_i n after hLength
        obtain ⟨hSuffix, hShrink⟩ := readLength_slice hLength
        have hAfter := hSuffix.trans (List.suffix_cons tag tail)
        split at h
        · cases h
          refine ⟨(List.take_prefix n after).isInfix.trans hAfter.isInfix,
            ((List.drop_suffix n after).trans hAfter).isInfix, ?_⟩
          rw [List.length_take, List.length_drop, List.length_cons]
          omega
        · cases h
    · cases h

theorem read_shrinks {octets rest : List UInt8} {element : Tlv}
    (h : read octets = some (element, rest)) :
    element.content.length + rest.length < octets.length := (read_slices h).2.2

/-- The elements one after another; each takes at least its tag, so the octets bound their number. -/
def readAll : Nat → List UInt8 → Option (List Tlv)
  | _, [] => some []
  | 0, _ :: _ => none
  | fuel + 1, octets =>
    match read octets with
    | none => none
    | some (element, rest) => (readAll fuel rest).map (element :: ·)

def elements (octets : List UInt8) : Option (List Tlv) := readAll octets.length octets

def written (elements : List Tlv) : List UInt8 :=
  elements.flatMap fun element => tlv element.tag element.content

theorem length_le_written (elements : List Tlv) : elements.length ≤ (written elements).length := by
  induction elements with
  | nil => exact Nat.le_refl 0
  | cons element rest ih =>
    have hTlv : 0 < (tlv element.tag element.content).length := by simp [tlv]
    have hWritten : written (element :: rest) =
        tlv element.tag element.content ++ written rest := rfl
    rw [hWritten, List.length_append, List.length_cons]
    omega

theorem readAll_written {list : List Tlv} (hTags : ∀ element ∈ list, LowTag element.tag)
    {fuel : Nat} (hFuel : list.length ≤ fuel) : readAll fuel (written list) = some list := by
  induction list generalizing fuel with
  | nil =>
    cases fuel with
    | zero => rfl
    | succ fuel => rfl
  | cons element rest ih =>
    cases fuel with
    | zero => simp at hFuel
    | succ fuel =>
      have hRead := read_tlv (hTags element List.mem_cons_self) element.content (written rest)
      have hWritten : written (element :: rest) =
          element.tag :: (lengthOctets element.content.length ++ element.content ++ written rest) := rfl
      have hRest := ih (fun e he => hTags e (List.mem_cons_of_mem _ he))
        (Nat.le_of_succ_le_succ hFuel)
      rw [tlv, List.cons_append] at hRead
      rw [hWritten, readAll, hRead]
      · exact congrArg (Option.map (element :: ·)) hRest
      · simp

theorem elements_written {list : List Tlv} (hTags : ∀ element ∈ list, LowTag element.tag) :
    elements (written list) = some list :=
  readAll_written hTags (length_le_written list)

theorem slice_of_mem_readAll {fuel : Nat} {octets : List UInt8} {list : List Tlv}
    (h : readAll fuel octets = some list) {element : Tlv} (hMem : element ∈ list) :
    element.content <:+: octets := by
  induction fuel generalizing octets list with
  | zero =>
    cases octets with
    | nil =>
      cases h
      cases hMem
    | cons _ _ => cases h
  | succ fuel ih =>
    cases octets with
    | nil =>
      cases h
      cases hMem
    | cons tag tail =>
      rw [readAll] at h
      · split at h
        · cases h
        · rename_i first rest hRead
          obtain ⟨hContent, hRest, _⟩ := read_slices hRead
          obtain ⟨others, hOthers, rfl⟩ := Option.map_eq_some_iff.mp h
          rcases List.mem_cons.mp hMem with rfl | hMem
          · exact hContent
          · exact (ih hOthers hMem).trans hRest
      · simp

def expect (octets : List UInt8) (tag : UInt8) : Option Tlv :=
  match read octets with
  | some (element, []) => if element.tag = tag then some element else none
  | _ => none

def contextTag (number : UInt8) (constructed : Bool) : UInt8 :=
  (if constructed then 0xa0 else 0x80) + number

/-- The element inside the child tagged `number`, where there is one. -/
def field (sequence : Tlv) (number : UInt8) : Option (Option Tlv) :=
  match elements sequence.content with
  | none => none
  | some list =>
    match list.find? (fun outer => outer.tag == contextTag number true) with
    | none => some none
    | some outer =>
      match read outer.content with
      | some (inner, []) => some (some inner)
      | _ => none

/-- An unsigned `INTEGER` below 2^32. -/
def integer (element : Tlv) : Option UInt32 :=
  if element.tag = 0x02 ∧ element.content ≠ [] ∧ element.content.head?.all (· < 128) ∧
      undigits element.content < 4294967296 then
    some (UInt32.ofNat (undigits element.content))
  else none

theorem expect_slice {octets : List UInt8} {tag : UInt8} {element : Tlv}
    (h : expect octets tag = some element) :
    element.content <:+: octets ∧ element.content.length < octets.length := by
  rw [expect] at h
  split at h
  · rename_i first hRead
    obtain ⟨hContent, _, hShrink⟩ := read_slices hRead
    split at h
    · cases h
      exact ⟨hContent, Nat.lt_of_le_of_lt (Nat.le_add_right _ _) hShrink⟩
    · cases h
  · cases h

theorem expect_shrinks {octets : List UInt8} {tag : UInt8} {element : Tlv}
    (h : expect octets tag = some element) : element.content.length < octets.length :=
  (expect_slice h).2

theorem field_slice {sequence inner : Tlv} {number : UInt8}
    (h : field sequence number = some (some inner)) : inner.content <:+: sequence.content := by
  rw [field] at h
  split at h
  · cases h
  · rename_i list hElements
    split at h
    · cases h
    · rename_i outer hFind
      have hOuter := slice_of_mem_readAll hElements (List.mem_of_find?_eq_some hFind)
      split at h
      · rename_i first hRead
        cases h
        exact (read_slices hRead).1.trans hOuter
      · cases h

theorem field_shrinks {sequence inner : Tlv} {number : UInt8}
    (h : field sequence number = some (some inner)) :
    inner.content.length ≤ sequence.content.length := (field_slice h).length_le

theorem expect_tlv {tag : UInt8} (hTag : LowTag tag) (content : List UInt8) :
    expect (tlv tag content) tag = some ⟨tag, content⟩ := by
  have hRead := read_tlv hTag content []
  rw [List.append_nil] at hRead
  simp only [expect, hRead, if_true]

theorem lowTag_contextTag {n : UInt8} (h : n < 31) : LowTag (contextTag n true) := by
  have hNat : n.toNat < 31 := h
  rw [LowTag, contextTag, if_pos rfl, UInt8.toNat_add]
  change (0xa0 + n.toNat) % 256 % 32 ≠ 31
  omega

theorem contextTag_inj {n m : UInt8} (h : contextTag n true = contextTag m true) : n = m := by
  rw [contextTag, contextTag, if_pos rfl] at h
  exact (UInt8.add_right_inj 0xa0).mp h

/-- A field on its way into a sequence, inside its context tag. -/
def tagged (entry : UInt8 × Tlv) : Tlv :=
  ⟨contextTag entry.1 true, tlv entry.2.tag entry.2.content⟩

theorem find?_tagged (list : List (UInt8 × Tlv)) (number : UInt8) :
    (list.map tagged).find? (fun outer => outer.tag == contextTag number true) =
      (list.lookup number).map fun element => tagged (number, element) := by
  induction list with
  | nil => rfl
  | cons entry rest ih =>
    obtain ⟨n, element⟩ := entry
    rw [List.map_cons, List.find?_cons, List.lookup_cons]
    cases hNumber : number == n with
    | true =>
      rw [beq_iff_eq.mp hNumber]
      simp [tagged]
    | false =>
      have hTag : ((tagged (n, element)).tag == contextTag number true) = false :=
        beq_eq_false_iff_ne.mpr fun h => beq_eq_false_iff_ne.mp hNumber (contextTag_inj h).symm
      rw [hTag, ih]

theorem field_written {list : List (UInt8 × Tlv)}
    (hPlain : ∀ entry ∈ list, entry.1 < 31 ∧ LowTag entry.2.tag) (tag number : UInt8) :
    field ⟨tag, written (list.map tagged)⟩ number = some (list.lookup number) := by
  have hTags : ∀ element ∈ list.map tagged, LowTag element.tag := by
    intro element hElement
    obtain ⟨entry, hEntry, rfl⟩ := List.mem_map.mp hElement
    exact lowTag_contextTag (hPlain entry hEntry).1
  simp only [field, elements_written hTags, find?_tagged]
  cases hLookup : list.lookup number with
  | none => rfl
  | some element =>
    obtain ⟨u, w, rfl, _⟩ := List.lookup_eq_some_iff.mp hLookup
    have hTag := (hPlain (number, element) (by simp)).2
    have hRead := read_tlv hTag element.content []
    rw [List.append_nil] at hRead
    simp only [Option.map_some, tagged, hRead]

theorem integer_octet {octet : UInt8} (h : octet < 128) :
    integer ⟨0x02, [octet]⟩ = some octet.toUInt32 := by
  have hNat : octet.toNat < 128 := h
  have hValue : undigits [octet] = octet.toNat := by simp [undigits]
  rw [integer, hValue, if_pos ⟨rfl, by simp, by simpa using h, by omega⟩]
  simp

/-- The octets of a number, with a zero before them where they would read as a negative one. -/
def unsigned (n : Nat) : List UInt8 :=
  match digits n with
  | [] => [0]
  | first :: rest => if first < 128 then first :: rest else 0 :: first :: rest

theorem undigits_zero_cons (octets : List UInt8) : undigits (0 :: octets) = undigits octets := by
  simp [undigits, Nat.ofDigits_append]

theorem undigits_unsigned (n : Nat) : undigits (unsigned n) = n := by
  have hDigits := undigits_digits n
  rw [unsigned]
  split
  · rename_i hEmpty
    rw [hEmpty] at hDigits
    rw [undigits_zero_cons, hDigits]
  · rename_i first rest hFirst
    rw [hFirst] at hDigits
    split
    · exact hDigits
    · rw [undigits_zero_cons, hDigits]

theorem integer_unsigned (n : UInt32) : integer ⟨0x02, unsigned n.toNat⟩ = some n := by
  have hHead : unsigned n.toNat ≠ [] ∧ (unsigned n.toNat).head?.all (· < 128) := by
    rw [unsigned]
    split
    · exact ⟨by simp, rfl⟩
    · split
      · rename_i hFirst
        exact ⟨by simp, by simpa using hFirst⟩
      · exact ⟨by simp, rfl⟩
  have hBound : n.toNat < 4294967296 := n.toNat_lt
  rw [integer, undigits_unsigned, if_pos ⟨rfl, hHead.1, hHead.2, hBound⟩, UInt32.ofNat_toNat]

end Der
