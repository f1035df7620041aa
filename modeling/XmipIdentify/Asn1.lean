import XmipIdentify.IdentifyError
import XmipIdentify.Library.Der

/-!
# The asn1 crate

X.690 is another crate's. What it reads is part of what it was given, so an
element is never longer than the bytes it came from; that much is a field of
the parameter, and the readings of its own encodings are laws.
-/

namespace XmipIdentify

open Str Der

set_option autoImplicit false

abbrev Element := Tlv

structure Asn1 where
  INTEGER : UInt8
  OCTET_STRING : UInt8
  OBJECT_IDENTIFIER : UInt8
  SEQUENCE : UInt8
  GENERAL_STRING : UInt8
  application : UInt8 → UInt8
  context : UInt8 → Bool → UInt8
  tlv : UInt8 → Bytes → Bytes
  read : Bytes → Except Asn1Error (Element × Bytes)
  expect : Bytes → UInt8 → String → Except Asn1Error Element
  field : Element → UInt8 → Except Asn1Error (Option Element)
  children : Element → Except Asn1Error (List Element)
  integer : Element → Option UInt32
  read_shrinks : ∀ {bytes element rest}, read bytes = .ok (element, rest) →
    element.content.length + rest.length < bytes.length
  expect_shrinks : ∀ {bytes tag what element}, expect bytes tag what = .ok element →
    element.content.length < bytes.length
  field_shrinks : ∀ {element number inner}, field element number = .ok (some inner) →
    inner.content.length ≤ element.content.length

theorem elim_eq_ok_iff {α : Type} {read : Option α} {error : Asn1Error} {a : α} :
    read.elim (.error error) Except.ok = .ok a ↔ read = some a := by
  cases read with
  | none => simp
  | some b => simp

/-- A failure of the crate is taken over, as `?` does. -/
def taken {α : Type} (read : Except Asn1Error α) : Except IdentifyError α :=
  read.mapError Asn1Error.into

@[simp] theorem taken_ok {α : Type} (a : α) : taken (.ok a) = .ok a := rfl

theorem taken_eq_ok_iff {α : Type} (read : Except Asn1Error α) (a : α) :
    taken read = .ok a ↔ read = .ok a := by
  cases read with
  | error failure => simp [taken, Except.mapError]
  | ok b => simp

namespace Asn1

variable (asn1 : Asn1)

def written (elements : List Element) : Bytes :=
  elements.flatMap fun element => asn1.tlv element.tag element.content

/-- The fields of a sequence, each inside its own context tag. -/
def fields (list : List (UInt8 × Element)) : Bytes :=
  list.flatMap fun entry => asn1.tlv (asn1.context entry.1 true) (asn1.tlv entry.2.tag entry.2.content)

/-- Distinct numbers, and numbers and tags of one octet. -/
def PlainTags (tags : List (UInt8 × UInt8)) : Prop :=
  (tags.map Prod.fst).Nodup ∧ ∀ entry ∈ tags, entry.1 < 31 ∧ LowTag entry.2

instance (tags : List (UInt8 × UInt8)) : Decidable (PlainTags tags) :=
  @instDecidableAnd _ _ _ (List.decidableBAll _ _)

/-- The fields of which the laws speak. -/
def Plain (list : List (UInt8 × Element)) : Prop :=
  PlainTags (list.map fun entry => (entry.1, entry.2.tag))

instance (list : List (UInt8 × Element)) : Decidable (Plain list) :=
  inferInstanceAs (Decidable (PlainTags _))

theorem Plain.of_mem {list : List (UInt8 × Element)} (h : Plain list) :
    ∀ entry ∈ list, entry.1 < 31 ∧ LowTag entry.2.tag := fun entry hEntry =>
  h.2 (entry.1, entry.2.tag) (List.mem_map.mpr ⟨entry, hEntry, rfl⟩)

structure Laws : Prop where
  integer_eq : asn1.INTEGER = 0x02
  octetString_eq : asn1.OCTET_STRING = 0x04
  objectIdentifier_eq : asn1.OBJECT_IDENTIFIER = 0x06
  sequence_eq : asn1.SEQUENCE = 0x30
  generalString_eq : asn1.GENERAL_STRING = 0x1b
  application_eq : ∀ n, n < 31 → asn1.application n = 0x60 + n
  context_eq : ∀ n, n < 31 → asn1.context n true = 0xa0 + n
  tlv_head : ∀ tag content, ∃ octets, asn1.tlv tag content = tag :: octets
  read_tlv : ∀ tag content rest, LowTag tag →
    asn1.read (asn1.tlv tag content ++ rest) = .ok (⟨tag, content⟩, rest)
  expect_tlv : ∀ tag content what, LowTag tag →
    asn1.expect (asn1.tlv tag content) tag what = .ok ⟨tag, content⟩
  field_fields : ∀ list number, Plain list → number < 31 →
    asn1.field ⟨asn1.SEQUENCE, asn1.fields list⟩ number = .ok (list.lookup number)
  children_written : ∀ elements, (∀ element ∈ elements, LowTag element.tag) →
    asn1.children ⟨asn1.SEQUENCE, asn1.written elements⟩ = .ok elements
  integer_octet : ∀ octet : UInt8, octet < 128 →
    asn1.integer ⟨asn1.INTEGER, [octet]⟩ = some octet.toUInt32

end Asn1

/-- The encoding rules themselves, for what they read of their own writing. -/
def Asn1.der : Asn1 where
  INTEGER := 0x02
  OCTET_STRING := 0x04
  OBJECT_IDENTIFIER := 0x06
  SEQUENCE := 0x30
  GENERAL_STRING := 0x1b
  application n := 0x60 + n
  context := Der.contextTag
  tlv := Der.tlv
  read bytes := (Der.read bytes).elim (.error ⟨"not an element"⟩) .ok
  expect bytes tag what := (Der.expect bytes tag).elim (.error ⟨s!"not {what}"⟩) .ok
  field sequence number := (Der.field sequence number).elim (.error ⟨"not a sequence"⟩) .ok
  children sequence := (Der.elements sequence.content).elim (.error ⟨"not a sequence"⟩) .ok
  integer := Der.integer
  read_shrinks h := Der.read_shrinks (elim_eq_ok_iff.mp h)
  expect_shrinks h := Der.expect_shrinks (elim_eq_ok_iff.mp h)
  field_shrinks h := Der.field_shrinks (elim_eq_ok_iff.mp h)

theorem Asn1.der_laws : Asn1.der.Laws where
  integer_eq := rfl
  octetString_eq := rfl
  objectIdentifier_eq := rfl
  sequence_eq := rfl
  generalString_eq := rfl
  application_eq _ _ := rfl
  context_eq _ _ := rfl
  tlv_head _ _ := ⟨_, rfl⟩
  read_tlv tag content rest hTag := elim_eq_ok_iff.mpr (Der.read_tlv hTag content rest)
  expect_tlv tag content what hTag := elim_eq_ok_iff.mpr (Der.expect_tlv hTag content)
  field_fields list number hPlain _ := by
    have hWritten : Asn1.der.fields list = Der.written (list.map Der.tagged) := by
      rw [Der.written, List.flatMap_map]
      rfl
    have hField := Der.field_written hPlain.of_mem Asn1.der.SEQUENCE number
    rw [← hWritten] at hField
    exact elim_eq_ok_iff.mpr hField
  children_written list hTags :=
    elim_eq_ok_iff.mpr (Der.elements_written hTags)
  integer_octet _ hOctet := Der.integer_octet hOctet

end XmipIdentify
