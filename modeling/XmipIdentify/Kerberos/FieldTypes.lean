import XmipIdentify.Kerberos.TicketRead

/-!
# The types of a ticket's fields

The grammar gives every element on the way a type. `parse` looks at most of
them; the sequences of the names and of the sealed part, the key version and the
cipher it takes as they come.
-/

namespace XmipIdentify.Kerberos

open Str

set_option autoImplicit false

section Types

variable (asn1 : Asn1) (layout : Layout)

/-- Every element has the type of the grammar, and the ticket says what they hold. -/
structure Layout.Grammatical (parsed : Ticket) : Prop where
  outer : layout.outer.tag = asn1.application AP_REQ
  request : layout.request.tag = asn1.SEQUENCE
  version : layout.version.tag = asn1.INTEGER ∧ asn1.integer layout.version = some 5
  kind : layout.kind.tag = asn1.INTEGER ∧ asn1.integer layout.kind = some 14
  ticketOuter : layout.ticketOuter.tag = asn1.application TICKET
  ticket : layout.ticket.tag = asn1.SEQUENCE
  realm : layout.realm = ⟨asn1.GENERAL_STRING, toUtf8 parsed.realm⟩
  realm_ne_nil : parsed.realm ≠ []
  name : layout.name.tag = asn1.SEQUENCE
  names : layout.names.tag = asn1.SEQUENCE
  components : layout.components = nameStrings asn1 parsed.service
  service_ne_nil : parsed.service ≠ []
  sealedPart : layout.sealedPart.tag = asn1.SEQUENCE
  encryptionType : layout.encryptionType.tag = asn1.INTEGER ∧
    asn1.integer layout.encryptionType = some parsed.encryptionType
  keyVersion_none : parsed.keyVersion = none → layout.keyVersion = none
  keyVersion_some : ∀ n, parsed.keyVersion = some n →
    ∃ element, layout.keyVersion = some element ∧ element.tag = asn1.INTEGER ∧
      asn1.integer element = some n
  cipher : layout.cipher = ⟨asn1.OCTET_STRING, parsed.cipher⟩

/-- The types `parse` does not look at. -/
structure Layout.TakenOnTrust : Prop where
  name : layout.name.tag = asn1.SEQUENCE
  names : layout.names.tag = asn1.SEQUENCE
  sealedPart : layout.sealedPart.tag = asn1.SEQUENCE
  keyVersion : ∀ element, layout.keyVersion = some element → (asn1.integer element).isSome
  cipher : layout.cipher.tag = asn1.OCTET_STRING

end Types

variable {asn1 : Asn1}

theorem string_eq_some_iff (element : Element) (text : Text) :
    string asn1 element = some text ↔ element = ⟨asn1.GENERAL_STRING, toUtf8 text⟩ := by
  constructor
  · intro h
    rw [string] at h
    split at h
    · rename_i hTag
      rw [← hTag, ← (fromUtf8_eq_some_iff _ _).mp h]
    · cases h
  · rintro rfl
    exact string_read text

theorem mapM_string_eq_some_iff (components : List Element) (service : List Text) :
    components.mapM (string asn1) = some service ↔ components = nameStrings asn1 service := by
  constructor
  · intro h
    induction components generalizing service with
    | nil =>
      cases h
      rfl
    | cons component rest ih =>
      rw [List.mapM_cons] at h
      obtain ⟨text, hText, h⟩ := Option.bind_eq_some_iff.mp h
      obtain ⟨texts, hTexts, h⟩ := Option.bind_eq_some_iff.mp h
      cases h
      rw [(string_eq_some_iff component text).mp hText, ih texts hTexts]
      rfl
  · rintro rfl
    exact mapM_string_nameStrings service

theorem Layout.TakenOnTrust.of_grammatical {layout : Layout} {ticket : Ticket}
    (h : layout.Grammatical asn1 ticket) : layout.TakenOnTrust asn1 where
  name := h.name
  names := h.names
  sealedPart := h.sealedPart
  keyVersion element hElement := by
    cases hVersion : ticket.keyVersion with
    | none =>
      cases (h.keyVersion_none hVersion).symm.trans hElement
    | some n =>
      obtain ⟨found, hFound, _, hInteger⟩ := h.keyVersion_some n hVersion
      cases hFound.symm.trans hElement
      rw [hInteger]
      rfl
  cipher := by rw [h.cipher]

theorem Layout.Grammatical.of_trust {message : Bytes} {layout : Layout} {ticket : Ticket}
    (types : asn1.Types) (hOf : layout.Of asn1 message) (hReads : layout.Reads asn1 ticket)
    (h : layout.TakenOnTrust asn1) : layout.Grammatical asn1 ticket where
  outer := types.expect_tag _ _ _ _ hOf.outer
  request := types.expect_tag _ _ _ _ hOf.request
  version := ⟨types.integer_tag _ _ hReads.version, hReads.version⟩
  kind := ⟨types.integer_tag _ _ hReads.kind, hReads.kind⟩
  ticketOuter := hReads.ticketOuter
  ticket := types.expect_tag _ _ _ _ hOf.ticket
  realm := (string_eq_some_iff _ _).mp hReads.realm
  realm_ne_nil := hReads.realm_ne_nil
  name := h.name
  names := h.names
  components := (mapM_string_eq_some_iff _ _).mp hReads.service
  service_ne_nil := hReads.service_ne_nil
  sealedPart := h.sealedPart
  encryptionType := ⟨types.integer_tag _ _ hReads.encryptionType, hReads.encryptionType⟩
  keyVersion_none hNone := by
    cases hVersion : layout.keyVersion with
    | none => rfl
    | some element =>
      have hSome := h.keyVersion element hVersion
      rw [hReads.keyVersion, hVersion, Option.bind_some] at hNone
      rw [hNone] at hSome
      cases hSome
  keyVersion_some n hSome := by
    rw [hReads.keyVersion] at hSome
    obtain ⟨element, hElement, hInteger⟩ := Option.bind_eq_some_iff.mp hSome
    exact ⟨element, hElement, types.integer_tag _ _ hInteger, hInteger⟩
  cipher := by rw [hReads.cipher, ← h.cipher]

/-- An accepted message is as the grammar has it exactly where it is so in what `parse` does not
look at. -/
theorem fields_typed_iff (types : asn1.Types) {message : Bytes} {ticket : Ticket}
    (h : Ticket.parse asn1 message = .ok ticket) :
    (∃ layout : Layout, layout.Of asn1 message ∧ layout.Grammatical asn1 ticket) ↔
      ∃ layout : Layout, layout.Of asn1 message ∧ layout.TakenOnTrust asn1 := by
  obtain ⟨read, hRead, hReads⟩ := (parse_eq_ok_iff message ticket).mp h
  constructor
  · rintro ⟨layout, hOf, hGrammatical⟩
    exact ⟨layout, hOf, .of_grammatical hGrammatical⟩
  · rintro ⟨layout, hOf, hTrust⟩
    cases hRead.unique hOf
    exact ⟨read, hRead, .of_trust types hRead hReads hTrust⟩

theorem trust_apReq (laws : asn1.Laws) (service : List Text) (realm : Text) (cipher : Bytes) :
    (Fixture.layout asn1 service realm cipher).TakenOnTrust asn1 where
  name := rfl
  names := rfl
  sealedPart := rfl
  keyVersion element hElement := by
    cases hElement
    rw [laws.integer_octet 3 (by decide)]
    rfl
  cipher := rfl

theorem fields_typed_iff_http :
    ∃ layout : Layout,
      layout.Of Asn1.der (Fixture.apReq Asn1.der ["HTTP".toList, "xmip.example".toList]
        "REALM".toList [7]) ∧
      layout.Grammatical Asn1.der (Fixture.ticket ["HTTP".toList, "xmip.example".toList]
        "REALM".toList [7]) :=
  (fields_typed_iff Asn1.der_types
    (parse_apReq Asn1.der_laws [7] (by simp) (by simp))).mpr
    ⟨_, layout_apReq Asn1.der_laws _ _ _, trust_apReq Asn1.der_laws _ _ _⟩

/-- A sealed part whose key version is an `OCTET STRING`. -/
def Fixture.octetKeyVersion : Bytes :=
  Fixture.field Asn1.der 0 (Asn1.der.tlv Asn1.der.INTEGER [18]) ++
    Fixture.field Asn1.der 1 (Asn1.der.tlv Asn1.der.OCTET_STRING [3]) ++
    Fixture.field Asn1.der 2 (Asn1.der.tlv Asn1.der.OCTET_STRING [7])

def Fixture.ticketAround (sealedPart : Bytes) : Bytes :=
  Fixture.field Asn1.der 1 (Asn1.der.tlv Asn1.der.GENERAL_STRING (toUtf8 ['R'])) ++
    Fixture.field Asn1.der 2 (Fixture.principalName Asn1.der [['A']]) ++
    Fixture.field Asn1.der 3 (Asn1.der.tlv Asn1.der.SEQUENCE sealedPart)

def Fixture.requestAround (ticket : Bytes) : Bytes :=
  Fixture.field Asn1.der 0 (Asn1.der.tlv Asn1.der.INTEGER [5]) ++
    Fixture.field Asn1.der 1 (Asn1.der.tlv Asn1.der.INTEGER [AP_REQ]) ++
    Fixture.field Asn1.der 3
      (Asn1.der.tlv (Asn1.der.application TICKET) (Asn1.der.tlv Asn1.der.SEQUENCE ticket))

def Fixture.mistyped : Bytes :=
  Asn1.der.tlv (Asn1.der.application AP_REQ) (Asn1.der.tlv Asn1.der.SEQUENCE
    (Fixture.requestAround (Fixture.ticketAround Fixture.octetKeyVersion)))

def Fixture.mistypedLayout : Layout where
  outer := ⟨Asn1.der.application AP_REQ, Asn1.der.tlv Asn1.der.SEQUENCE
    (Fixture.requestAround (Fixture.ticketAround Fixture.octetKeyVersion))⟩
  request := ⟨Asn1.der.SEQUENCE,
    Fixture.requestAround (Fixture.ticketAround Fixture.octetKeyVersion)⟩
  version := ⟨Asn1.der.INTEGER, [5]⟩
  kind := ⟨Asn1.der.INTEGER, [AP_REQ]⟩
  ticketOuter := ⟨Asn1.der.application TICKET,
    Asn1.der.tlv Asn1.der.SEQUENCE (Fixture.ticketAround Fixture.octetKeyVersion)⟩
  ticket := ⟨Asn1.der.SEQUENCE, Fixture.ticketAround Fixture.octetKeyVersion⟩
  realm := ⟨Asn1.der.GENERAL_STRING, toUtf8 ['R']⟩
  name := ⟨Asn1.der.SEQUENCE, Asn1.der.fields (nameFields Asn1.der [['A']])⟩
  names := ⟨Asn1.der.SEQUENCE, Asn1.der.written (nameStrings Asn1.der [['A']])⟩
  components := nameStrings Asn1.der [['A']]
  sealedPart := ⟨Asn1.der.SEQUENCE, Fixture.octetKeyVersion⟩
  encryptionType := ⟨Asn1.der.INTEGER, [18]⟩
  keyVersion := some ⟨Asn1.der.OCTET_STRING, [3]⟩
  cipher := ⟨Asn1.der.OCTET_STRING, [7]⟩

theorem layout_mistyped : Fixture.mistypedLayout.Of Asn1.der Fixture.mistyped where
  outer := rfl
  request := rfl
  version := rfl
  kind := rfl
  ticketOuter := rfl
  ticket := rfl
  realm := rfl
  name := rfl
  names := rfl
  components := rfl
  sealedPart := rfl
  encryptionType := rfl
  keyVersion := rfl
  cipher := rfl

theorem parse_mistyped_key_version :
    Ticket.parse Asn1.der Fixture.mistyped = .ok ⟨['R'], [['A']], 18, none, [7]⟩ ∧
      ¬∃ layout : Layout, layout.Of Asn1.der Fixture.mistyped ∧
        layout.Grammatical Asn1.der ⟨['R'], [['A']], 18, none, [7]⟩ := by
  refine ⟨rfl, ?_⟩
  rintro ⟨layout, hOf, hGrammatical⟩
  cases hOf.unique layout_mistyped
  cases hGrammatical.keyVersion_none rfl

end XmipIdentify.Kerberos
