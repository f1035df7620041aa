import XmipIdentify.Kerberos.Found

/-!
# Every ticket has an AP-REQ

A ticket is written as four sequences of fields, in whatever order and beside
whatever other fields; its numbers are any the structure can hold, and its key
version may be left out. Whatever was written is read, so that what the
structure says of a ticket is all that `parse` distinguishes.
-/

namespace XmipIdentify

open Str Der

set_option autoImplicit false

def Asn1.unsigned (asn1 : Asn1) (n : UInt32) : Element := ⟨asn1.INTEGER, Der.unsigned n.toNat⟩

/-- The crate reads every `INTEGER` that is a `u32`. -/
def Asn1.ReadsIntegers (asn1 : Asn1) : Prop := ∀ n, asn1.integer (asn1.unsigned n) = some n

theorem Asn1.der_readsIntegers : Asn1.der.ReadsIntegers := integer_unsigned

namespace Kerberos

open Asn1 (Plain)

/-- The fields of the four sequences on the way to a ticket. -/
structure Spelling where
  request : List (UInt8 × Element)
  ticket : List (UInt8 × Element)
  name : List (UInt8 × Element)
  sealedPart : List (UInt8 × Element)

/-- How the message comes to the reader, less its SPNEGO layers. -/
inductive Delivery where
  | bare
  | kerberos
  | legacy
deriving DecidableEq

section Written

variable (asn1 : Asn1)

namespace Spelling

variable (spelling : Spelling)

def message : Bytes :=
  asn1.tlv (asn1.application AP_REQ) (asn1.tlv asn1.SEQUENCE (asn1.fields spelling.request))

/-- The sequences say this ticket. -/
structure Of (ticket : Ticket) : Prop where
  request_plain : Plain spelling.request
  version : spelling.request.lookup 0 = some (asn1.unsigned 5)
  kind : spelling.request.lookup 1 = some (asn1.unsigned AP_REQ.toUInt32)
  ticketOuter : spelling.request.lookup 3 =
    some ⟨asn1.application TICKET, asn1.tlv asn1.SEQUENCE (asn1.fields spelling.ticket)⟩
  ticket_plain : Plain spelling.ticket
  realm : spelling.ticket.lookup 1 = some ⟨asn1.GENERAL_STRING, toUtf8 ticket.realm⟩
  name : spelling.ticket.lookup 2 = some ⟨asn1.SEQUENCE, asn1.fields spelling.name⟩
  sealedPart : spelling.ticket.lookup 3 = some ⟨asn1.SEQUENCE, asn1.fields spelling.sealedPart⟩
  name_plain : Plain spelling.name
  names : spelling.name.lookup 1 =
    some ⟨asn1.SEQUENCE, asn1.written (nameStrings asn1 ticket.service)⟩
  sealed_plain : Plain spelling.sealedPart
  encryptionType : spelling.sealedPart.lookup 0 = some (asn1.unsigned ticket.encryptionType)
  keyVersion : spelling.sealedPart.lookup 1 = ticket.keyVersion.map asn1.unsigned
  cipher : spelling.sealedPart.lookup 2 = some ⟨asn1.OCTET_STRING, ticket.cipher⟩

/-- The fields of a ticket and no others, in the order of their numbers. -/
def plainest (ticket : Ticket) : Spelling :=
  let sealedPart := (0, asn1.unsigned ticket.encryptionType) ::
    ((ticket.keyVersion.map fun n => ((1 : UInt8), asn1.unsigned n)).toList ++
      [(2, ⟨asn1.OCTET_STRING, ticket.cipher⟩)])
  let name := [(1, ⟨asn1.SEQUENCE, asn1.written (nameStrings asn1 ticket.service)⟩)]
  let fields := [(1, ⟨asn1.GENERAL_STRING, toUtf8 ticket.realm⟩),
    (2, ⟨asn1.SEQUENCE, asn1.fields name⟩), (3, ⟨asn1.SEQUENCE, asn1.fields sealedPart⟩)]
  let request := [(0, asn1.unsigned 5), (1, asn1.unsigned AP_REQ.toUInt32),
    (3, ⟨asn1.application TICKET, asn1.tlv asn1.SEQUENCE (asn1.fields fields)⟩)]
  { request, ticket := fields, name, sealedPart }

def layout (ticket : Ticket) : Layout where
  outer := ⟨asn1.application AP_REQ, asn1.tlv asn1.SEQUENCE (asn1.fields spelling.request)⟩
  request := ⟨asn1.SEQUENCE, asn1.fields spelling.request⟩
  version := asn1.unsigned 5
  kind := asn1.unsigned AP_REQ.toUInt32
  ticketOuter := ⟨asn1.application TICKET, asn1.tlv asn1.SEQUENCE (asn1.fields spelling.ticket)⟩
  ticket := ⟨asn1.SEQUENCE, asn1.fields spelling.ticket⟩
  realm := ⟨asn1.GENERAL_STRING, toUtf8 ticket.realm⟩
  name := ⟨asn1.SEQUENCE, asn1.fields spelling.name⟩
  names := ⟨asn1.SEQUENCE, asn1.written (nameStrings asn1 ticket.service)⟩
  components := nameStrings asn1 ticket.service
  sealedPart := ⟨asn1.SEQUENCE, asn1.fields spelling.sealedPart⟩
  encryptionType := asn1.unsigned ticket.encryptionType
  keyVersion := ticket.keyVersion.map asn1.unsigned
  cipher := ⟨asn1.OCTET_STRING, ticket.cipher⟩

end Spelling

def Delivery.around (message : Bytes) : Delivery → Bytes
  | bare => message
  | kerberos => Fixture.gss asn1 KERBEROS (TOKEN_AP_REQ ++ message)
  | legacy => Fixture.gss asn1 KERBEROS_LEGACY (TOKEN_AP_REQ ++ message)

end Written

variable {asn1 : Asn1} (laws : asn1.Laws)
include laws

theorem plainest_of (ticket : Ticket) : (Spelling.plainest asn1 ticket).Of asn1 ticket where
  request_plain := by
    simp only [Plain, Spelling.plainest, Asn1.unsigned, laws.integer_eq,
      laws.application_eq TICKET (by decide), List.map_cons, List.map_nil]
    decide
  version := rfl
  kind := rfl
  ticketOuter := rfl
  ticket_plain := by
    simp only [Plain, Spelling.plainest, laws.generalString_eq, laws.sequence_eq, List.map_cons,
      List.map_nil]
    decide
  realm := rfl
  name := rfl
  sealedPart := rfl
  name_plain := by
    simp only [Plain, Spelling.plainest, laws.sequence_eq, List.map_cons, List.map_nil]
    decide
  names := rfl
  sealed_plain := by
    cases hVersion : ticket.keyVersion with
    | none =>
      simp only [Plain, Spelling.plainest, Asn1.unsigned, hVersion, laws.integer_eq,
        laws.octetString_eq, Option.map_none, Option.toList_none, List.nil_append, List.map_cons,
        List.map_nil]
      decide
    | some n =>
      simp only [Plain, Spelling.plainest, Asn1.unsigned, hVersion, laws.integer_eq,
        laws.octetString_eq, Option.map_some, Option.toList_some, List.cons_append, List.nil_append,
        List.map_cons, List.map_nil]
      decide
  encryptionType := rfl
  keyVersion := by
    cases hVersion : ticket.keyVersion with
    | none => simp [Spelling.plainest, hVersion, List.lookup_cons]
    | some n => simp [Spelling.plainest, hVersion, List.lookup_cons]
  cipher := by
    cases hVersion : ticket.keyVersion with
    | none => simp [Spelling.plainest, hVersion, List.lookup_cons]
    | some n => simp [Spelling.plainest, hVersion, List.lookup_cons]

theorem Spelling.Of.layout_of {spelling : Spelling} {ticket : Ticket} (h : spelling.Of asn1 ticket) :
    (spelling.layout asn1 ticket).Of asn1 (spelling.message asn1) := by
  have hField {list : List (UInt8 × Element)} (hPlain : Plain list) {number : UInt8}
      (hNumber : number < 31) {element : Option Element} (hLookup : list.lookup number = element) :
      asn1.field ⟨asn1.SEQUENCE, asn1.fields list⟩ number = .ok element := by
    rw [laws.field_fields list number hPlain hNumber, hLookup]
  have hSequence (content : Bytes) (what : String) :=
    laws.expect_tlv asn1.SEQUENCE content what (lowTag_sequence laws)
  exact {
    outer := laws.expect_tlv _ _ _ (lowTag_application laws (by decide))
    request := hSequence _ _
    version := hField h.request_plain (by decide) h.version
    kind := hField h.request_plain (by decide) h.kind
    ticketOuter := hField h.request_plain (by decide) h.ticketOuter
    ticket := hSequence _ _
    realm := hField h.ticket_plain (by decide) h.realm
    name := hField h.ticket_plain (by decide) h.name
    names := hField h.name_plain (by decide) h.names
    components := children_nameStrings laws ticket.service
    sealedPart := hField h.ticket_plain (by decide) h.sealedPart
    encryptionType := hField h.sealed_plain (by decide) h.encryptionType
    keyVersion := hField h.sealed_plain (by decide) h.keyVersion
    cipher := hField h.sealed_plain (by decide) h.cipher }

theorem Spelling.Of.parse_eq (hIntegers : asn1.ReadsIntegers) {spelling : Spelling}
    {ticket : Ticket} (h : spelling.Of asn1 ticket) (hService : ticket.service ≠ [])
    (hRealm : ticket.realm ≠ []) : Ticket.parse asn1 (spelling.message asn1) = .ok ticket := by
  refine parse_of_layout (h.layout_of laws) ?_
  exact {
    version := hIntegers 5
    kind := hIntegers AP_REQ.toUInt32
    ticketOuter := rfl
    realm := string_read ticket.realm
    realm_ne_nil := hRealm
    service := mapM_string_nameStrings ticket.service
    service_ne_nil := hService
    encryptionType := hIntegers ticket.encryptionType
    keyVersion := by
      rw [Spelling.layout, Option.bind_map]
      cases ticket.keyVersion with
      | none => rfl
      | some n => exact (hIntegers n).symm
    cipher := rfl }

theorem fromNegotiate_around {ntlm : Ntlm} (hNtlm : ntlm.IsNtlmssp) (delivery : Delivery)
    (content : Bytes) :
    fromNegotiate asn1 ntlm (delivery.around asn1 (asn1.tlv (asn1.application AP_REQ) content)) =
      (Ticket.parse asn1 (asn1.tlv (asn1.application AP_REQ) content)).map some := by
  cases delivery with
  | bare => exact fromNegotiate_bare laws hNtlm content
  | kerberos => exact fromNegotiate_kerberos laws hNtlm (.inl rfl) _
  | legacy => exact fromNegotiate_kerberos laws hNtlm (.inr rfl) _

/-- Every ticket can be written, and however it is written, delivered and wrapped it is read back. -/
theorem any_ticket_read_back (hIntegers : asn1.ReadsIntegers) {ntlm : Ntlm}
    (hNtlm : ntlm.IsNtlmssp) (ticket : Ticket) (hService : ticket.service ≠ [])
    (hRealm : ticket.realm ≠ []) :
    (∃ spelling : Spelling, spelling.Of asn1 ticket) ∧
    ∀ spelling : Spelling, spelling.Of asn1 ticket → ∀ (delivery : Delivery) (layers : List Layer),
      (∀ layer ∈ layers, layer.Plain asn1) →
      fromNegotiate asn1 ntlm (Layer.wrapAll asn1 layers
        (delivery.around asn1 (spelling.message asn1))) = .ok (some ticket) := by
  refine ⟨⟨_, plainest_of laws ticket⟩, ?_⟩
  intro spelling hSpelling delivery layers hLayers
  have hParse := hSpelling.parse_eq laws hIntegers hService hRealm
  rw [Spelling.message] at hParse ⊢
  rw [fromNegotiate_wrapAll laws hNtlm hLayers, fromNegotiate_around laws hNtlm, hParse]
  rfl

omit laws in
/-- The greatest key version there is, which takes five octets. -/
theorem any_ticket_read_back_rc4 :
    let ntlm : Ntlm := ⟨[0x4e, 0x54, 0x4c, 0x4d, 0x53, 0x53, 0x50, 0x00]⟩
    let ticket : Ticket := ⟨"R".toList, ["HTTP".toList], 23, some 4294967295, [1]⟩
    let plainest := Spelling.plainest Asn1.der ticket
    fromNegotiate Asn1.der ntlm (Delivery.legacy.around Asn1.der (plainest.message Asn1.der)) =
      .ok (some ticket) := by
  intro ntlm ticket plainest
  have hNtlm : ntlm.IsNtlmssp := rfl
  have h := (any_ticket_read_back Asn1.der_laws Asn1.der_readsIntegers hNtlm ticket (by decide) (by decide)).2
  exact h plainest (plainest_of Asn1.der_laws ticket) .legacy [] (by simp)

end Kerberos

end XmipIdentify
