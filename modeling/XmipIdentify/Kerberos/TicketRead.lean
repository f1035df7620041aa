import XmipIdentify.Kerberos.Layout

/-!
# A ticket is read back

The AP-REQ is three sequences of tagged fields, one inside the other. Each is
stated as the list of its fields, and a field is read by its number.
-/

namespace XmipIdentify.Kerberos

open Str Der
open Asn1 (Plain Laws)

set_option autoImplicit false

section Fields

variable (asn1 : Asn1)

def sealedFields (cipher : Bytes) : List (UInt8 × Element) :=
  [(0, ⟨asn1.INTEGER, [18]⟩), (1, ⟨asn1.INTEGER, [3]⟩), (2, ⟨asn1.OCTET_STRING, cipher⟩)]

def nameStrings (components : List Text) : List Element :=
  components.map fun component => ⟨asn1.GENERAL_STRING, toUtf8 component⟩

def nameFields (components : List Text) : List (UInt8 × Element) :=
  [(0, ⟨asn1.INTEGER, [1]⟩), (1, ⟨asn1.SEQUENCE, asn1.written (nameStrings asn1 components)⟩)]

def ticketFields (service : List Text) (realm : Text) (cipher : Bytes) : List (UInt8 × Element) :=
  [(0, ⟨asn1.INTEGER, [5]⟩), (1, ⟨asn1.GENERAL_STRING, toUtf8 realm⟩),
    (2, ⟨asn1.SEQUENCE, asn1.fields (nameFields asn1 service)⟩),
    (3, ⟨asn1.SEQUENCE, asn1.fields (sealedFields asn1 cipher)⟩)]

def requestFields (service : List Text) (realm : Text) (cipher : Bytes) : List (UInt8 × Element) :=
  [(0, ⟨asn1.INTEGER, [5]⟩), (1, ⟨asn1.INTEGER, [AP_REQ]⟩), (2, ⟨0x03, [0, 0, 0, 0, 0]⟩),
    (3, ⟨asn1.application TICKET,
      asn1.tlv asn1.SEQUENCE (asn1.fields (ticketFields asn1 service realm cipher))⟩),
    (4, ⟨asn1.SEQUENCE, []⟩)]

theorem principalName_eq (components : List Text) :
    Fixture.principalName asn1 components =
      asn1.tlv asn1.SEQUENCE (asn1.fields (nameFields asn1 components)) := by
  simp [Fixture.principalName, Fixture.field, nameFields, nameStrings, Asn1.fields, Asn1.written,
    List.flatMap_map]

theorem apReq_eq (service : List Text) (realm : Text) (cipher : Bytes) :
    Fixture.apReq asn1 service realm cipher = asn1.tlv (asn1.application AP_REQ)
      (asn1.tlv asn1.SEQUENCE (asn1.fields (requestFields asn1 service realm cipher))) := by
  simp [Fixture.apReq, Fixture.field, principalName_eq, requestFields, ticketFields, sealedFields,
    Asn1.fields]

def Fixture.layout (service : List Text) (realm : Text) (cipher : Bytes) : Layout where
  outer := ⟨asn1.application AP_REQ,
    asn1.tlv asn1.SEQUENCE (asn1.fields (requestFields asn1 service realm cipher))⟩
  request := ⟨asn1.SEQUENCE, asn1.fields (requestFields asn1 service realm cipher)⟩
  version := ⟨asn1.INTEGER, [5]⟩
  kind := ⟨asn1.INTEGER, [AP_REQ]⟩
  ticketOuter := ⟨asn1.application TICKET,
    asn1.tlv asn1.SEQUENCE (asn1.fields (ticketFields asn1 service realm cipher))⟩
  ticket := ⟨asn1.SEQUENCE, asn1.fields (ticketFields asn1 service realm cipher)⟩
  realm := ⟨asn1.GENERAL_STRING, toUtf8 realm⟩
  name := ⟨asn1.SEQUENCE, asn1.fields (nameFields asn1 service)⟩
  names := ⟨asn1.SEQUENCE, asn1.written (nameStrings asn1 service)⟩
  components := nameStrings asn1 service
  sealedPart := ⟨asn1.SEQUENCE, asn1.fields (sealedFields asn1 cipher)⟩
  encryptionType := ⟨asn1.INTEGER, [18]⟩
  keyVersion := some ⟨asn1.INTEGER, [3]⟩
  cipher := ⟨asn1.OCTET_STRING, cipher⟩

end Fields

variable {asn1 : Asn1} (laws : asn1.Laws)
include laws

theorem lowTag_sequence : LowTag asn1.SEQUENCE := by
  rw [laws.sequence_eq]
  decide

theorem lowTag_application {number : UInt8} (h : number < 31) : LowTag (asn1.application number) := by
  have hNat : number.toNat < 31 := h
  rw [laws.application_eq number h, LowTag, UInt8.toNat_add]
  change (0x60 + number.toNat) % 256 % 32 ≠ 31
  omega

theorem plain_sealedFields (cipher : Bytes) : Plain (sealedFields asn1 cipher) := by
  simp only [Plain, sealedFields, laws.integer_eq, laws.octetString_eq, List.map_cons, List.map_nil]
  decide

theorem plain_nameFields (components : List Text) : Plain (nameFields asn1 components) := by
  simp only [Plain, nameFields, laws.integer_eq, laws.sequence_eq, List.map_cons, List.map_nil]
  decide

theorem plain_ticketFields (service : List Text) (realm : Text) (cipher : Bytes) :
    Plain (ticketFields asn1 service realm cipher) := by
  simp only [Plain, ticketFields, laws.integer_eq, laws.generalString_eq, laws.sequence_eq,
    List.map_cons, List.map_nil]
  decide

theorem plain_requestFields (service : List Text) (realm : Text) (cipher : Bytes) :
    Plain (requestFields asn1 service realm cipher) := by
  simp only [Plain, requestFields, laws.integer_eq, laws.sequence_eq,
    laws.application_eq TICKET (by decide), List.map_cons, List.map_nil]
  decide

omit laws in
theorem string_read (text : Text) : string asn1 ⟨asn1.GENERAL_STRING, toUtf8 text⟩ = some text := by
  rw [string, if_pos rfl, fromUtf8_toUtf8]

omit laws in
theorem mapM_string_nameStrings (components : List Text) :
    (nameStrings asn1 components).mapM (string asn1) = some components := by
  induction components with
  | nil => rfl
  | cons component rest ih =>
    rw [nameStrings, List.map_cons, List.mapM_cons, string_read, ← nameStrings, ih]
    rfl

theorem children_nameStrings (components : List Text) :
    asn1.children ⟨asn1.SEQUENCE, asn1.written (nameStrings asn1 components)⟩ =
      .ok (nameStrings asn1 components) := by
  refine laws.children_written _ fun element hElement => ?_
  obtain ⟨component, _, rfl⟩ := List.mem_map.mp hElement
  change LowTag asn1.GENERAL_STRING
  rw [laws.generalString_eq]
  decide

theorem layout_apReq (service : List Text) (realm : Text) (cipher : Bytes) :
    (Fixture.layout asn1 service realm cipher).Of asn1
      (Fixture.apReq asn1 service realm cipher) := by
  have hRequest (number : UInt8) (h : number < 31) := laws.field_fields
    (requestFields asn1 service realm cipher) number (plain_requestFields laws _ _ _) h
  have hTicket (number : UInt8) (h : number < 31) := laws.field_fields
    (ticketFields asn1 service realm cipher) number (plain_ticketFields laws _ _ _) h
  have hSealed (number : UInt8) (h : number < 31) := laws.field_fields
    (sealedFields asn1 cipher) number (plain_sealedFields laws _) h
  have hSequence (content : Bytes) (what : String) :=
    laws.expect_tlv asn1.SEQUENCE content what (lowTag_sequence laws)
  rw [apReq_eq]
  exact {
    outer := laws.expect_tlv _ _ _ (lowTag_application laws (by decide))
    request := hSequence _ _
    version := hRequest 0 (by decide)
    kind := hRequest 1 (by decide)
    ticketOuter := hRequest 3 (by decide)
    ticket := hSequence _ _
    realm := hTicket 1 (by decide)
    name := hTicket 2 (by decide)
    names := laws.field_fields _ 1 (plain_nameFields laws service) (by decide)
    components := children_nameStrings laws service
    sealedPart := hTicket 3 (by decide)
    encryptionType := hSealed 0 (by decide)
    keyVersion := hSealed 1 (by decide)
    cipher := hSealed 2 (by decide) }

theorem reads_apReq {service : List Text} {realm : Text} (cipher : Bytes) (hService : service ≠ [])
    (hRealm : realm ≠ []) :
    (Fixture.layout asn1 service realm cipher).Reads asn1 (Fixture.ticket service realm cipher) where
  version := laws.integer_octet 5 (by decide)
  kind := laws.integer_octet AP_REQ (by decide)
  ticketOuter := rfl
  realm := string_read realm
  realm_ne_nil := hRealm
  service := mapM_string_nameStrings service
  service_ne_nil := hService
  encryptionType := laws.integer_octet 18 (by decide)
  keyVersion := (laws.integer_octet 3 (by decide)).symm
  cipher := rfl

theorem parse_apReq {service : List Text} {realm : Text} (cipher : Bytes) (hService : service ≠ [])
    (hRealm : realm ≠ []) :
    Ticket.parse asn1 (Fixture.apReq asn1 service realm cipher) =
      .ok (Fixture.ticket service realm cipher) :=
  (parse_eq_ok_iff _ _).mpr ⟨Fixture.layout asn1 service realm cipher,
    layout_apReq laws service realm cipher, reads_apReq laws cipher hService hRealm⟩

end XmipIdentify.Kerberos
