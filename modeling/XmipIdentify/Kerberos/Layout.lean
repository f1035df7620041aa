import XmipIdentify.Kerberos.Ticket

/-!
# Where a ticket is read from

A message that is read has a layout: the elements `parse` comes to on its way.
The layout is found by the crate alone; what `parse` then asks of its elements
is said apart from it, and so is what the grammar asks of them.
-/

namespace XmipIdentify

open Str

set_option autoImplicit false

/-- What the crate says of an element it gives: `expect` checks the tag, and only an `INTEGER` has
an integer. -/
structure Asn1.Types (asn1 : Asn1) : Prop where
  expect_tag : ∀ bytes tag what element, asn1.expect bytes tag what = .ok element → element.tag = tag
  integer_tag : ∀ element n, asn1.integer element = some n → element.tag = asn1.INTEGER

theorem Asn1.der_types : Asn1.der.Types where
  expect_tag bytes tag what element h := by
    have hExpect : Der.expect bytes tag = some element := elim_eq_ok_iff.mp h
    rw [Der.expect] at hExpect
    split at hExpect
    · split at hExpect
      · rename_i hTag
        cases hExpect
        exact hTag
      · cases hExpect
    · cases hExpect
  integer_tag element n h := by
    have hInteger : Der.integer element = some n := h
    rw [Der.integer] at hInteger
    split at hInteger
    · rename_i hElement
      exact hElement.1
    · cases hInteger

namespace Kerberos

/-- The elements on the way to what a ticket says. -/
structure Layout where
  outer : Element
  request : Element
  version : Element
  kind : Element
  ticketOuter : Element
  ticket : Element
  realm : Element
  name : Element
  names : Element
  components : List Element
  sealedPart : Element
  encryptionType : Element
  keyVersion : Option Element
  cipher : Element

variable (asn1 : Asn1)

/-- The message holds these elements where the grammar has them. -/
structure Layout.Of (message : Bytes) (layout : Layout) : Prop where
  outer : asn1.expect message (asn1.application AP_REQ) "an AP-REQ" = .ok layout.outer
  request : asn1.expect layout.outer.content asn1.SEQUENCE "an AP-REQ" = .ok layout.request
  version : asn1.field layout.request 0 = .ok (some layout.version)
  kind : asn1.field layout.request 1 = .ok (some layout.kind)
  ticketOuter : asn1.field layout.request 3 = .ok (some layout.ticketOuter)
  ticket : asn1.expect layout.ticketOuter.content asn1.SEQUENCE "a Ticket" = .ok layout.ticket
  realm : asn1.field layout.ticket 1 = .ok (some layout.realm)
  name : asn1.field layout.ticket 2 = .ok (some layout.name)
  names : asn1.field layout.name 1 = .ok (some layout.names)
  components : asn1.children layout.names = .ok layout.components
  sealedPart : asn1.field layout.ticket 3 = .ok (some layout.sealedPart)
  encryptionType : asn1.field layout.sealedPart 0 = .ok (some layout.encryptionType)
  keyVersion : asn1.field layout.sealedPart 1 = .ok layout.keyVersion
  cipher : asn1.field layout.sealedPart 2 = .ok (some layout.cipher)

/-- What `parse` asks of the elements, and the ticket it makes of them. -/
structure Layout.Reads (layout : Layout) (ticket : Ticket) : Prop where
  version : asn1.integer layout.version = some 5
  kind : asn1.integer layout.kind = some AP_REQ.toUInt32
  ticketOuter : layout.ticketOuter.tag = asn1.application TICKET
  realm : string asn1 layout.realm = some ticket.realm
  realm_ne_nil : ticket.realm ≠ []
  service : layout.components.mapM (string asn1) = some ticket.service
  service_ne_nil : ticket.service ≠ []
  encryptionType : asn1.integer layout.encryptionType = some ticket.encryptionType
  keyVersion : ticket.keyVersion = layout.keyVersion.bind asn1.integer
  cipher : ticket.cipher = layout.cipher.content

variable {asn1}

theorem Layout.Of.unique {message : Bytes} {layout layout' : Layout} (h : layout.Of asn1 message)
    (h' : layout'.Of asn1 message) : layout = layout' := by
  obtain ⟨outer, request, version, kind, ticketOuter, ticket, realm, name, names, components,
    sealedPart, encryptionType, keyVersion, cipher⟩ := layout
  obtain ⟨h1, h2, h3, h4, h5, h6, h7, h8, h9, h10, h11, h12, h13, h14⟩ := h
  obtain ⟨k1, k2, k3, k4, k5, k6, k7, k8, k9, k10, k11, k12, k13, k14⟩ := h'
  dsimp only at h1 h2 h3 h4 h5 h6 h7 h8 h9 h10 h11 h12 h13 h14
  cases h1.symm.trans k1
  cases h2.symm.trans k2
  cases h3.symm.trans k3
  cases h4.symm.trans k4
  cases h5.symm.trans k5
  cases h6.symm.trans k6
  cases h7.symm.trans k7
  cases h8.symm.trans k8
  cases h9.symm.trans k9
  cases h10.symm.trans k10
  cases h11.symm.trans k11
  cases h12.symm.trans k12
  cases h13.symm.trans k13
  cases h14.symm.trans k14
  rfl

theorem okOr_eq_ok_iff {α : Type} (value : Option α) (message : String) (a : α) :
    okOr value message = .ok a ↔ value = some a := by
  cases value with
  | none => simp [okOr]
  | some b => simp [okOr]

theorem okOr_filter_eq_ok_iff {α : Type} (value : Option (List α)) (message : String) (l : List α) :
    okOr (value.filter fun l => !l.isEmpty) message = .ok l ↔ value = some l ∧ l ≠ [] := by
  rw [okOr_eq_ok_iff, Option.filter_eq_some_iff]
  simp

theorem required_eq_ok_iff (sequence : Element) (number : UInt8) (what : String) (element : Element) :
    required asn1 sequence number what = .ok element ↔
      asn1.field sequence number = .ok (some element) := by
  rw [required, bind_eq_ok_iff]
  constructor
  · rintro ⟨found, hField, hFound⟩
    rw [(okOr_eq_ok_iff found _ element).mp hFound] at hField
    exact (taken_eq_ok_iff _ _).mp hField
  · intro h
    exact ⟨some element, (taken_eq_ok_iff _ _).mpr h, rfl⟩

theorem principal_eq_ok_iff (name : Element) (service : List Text) :
    principal asn1 name = .ok service ↔
      ∃ names components, asn1.field name 1 = .ok (some names) ∧ asn1.children names = .ok components ∧
        components.mapM (string asn1) = some service ∧ service ≠ [] := by
  rw [principal, bind_eq_ok_iff]
  constructor
  · rintro ⟨found, hField, h⟩
    obtain ⟨names, hNames, h⟩ := (bind_eq_ok_iff _ _ _).mp h
    obtain ⟨components, hChildren, h⟩ := (bind_eq_ok_iff _ _ _).mp h
    rw [(okOr_eq_ok_iff _ _ _).mp hNames] at hField
    exact ⟨names, components, (taken_eq_ok_iff _ _).mp hField, (taken_eq_ok_iff _ _).mp hChildren,
      (okOr_filter_eq_ok_iff _ _ _).mp h⟩
  · rintro ⟨names, components, hField, hChildren, hService⟩
    refine ⟨some names, (taken_eq_ok_iff _ _).mpr hField, (bind_eq_ok_iff _ _ _).mpr ⟨names, rfl, ?_⟩⟩
    exact (bind_eq_ok_iff _ _ _).mpr ⟨components, (taken_eq_ok_iff _ _).mpr hChildren,
      (okOr_filter_eq_ok_iff _ _ _).mpr hService⟩

theorem exists_layout_of_parse {message : Bytes} {ticket : Ticket}
    (h : Ticket.parse asn1 message = .ok ticket) :
    ∃ layout : Layout, layout.Of asn1 message ∧ layout.Reads asn1 ticket := by
  obtain ⟨outer, hOuter, h⟩ := (bind_eq_ok_iff _ _ _).mp h
  obtain ⟨request, hRequest, h⟩ := (bind_eq_ok_iff _ _ _).mp h
  obtain ⟨version, hVersion, h⟩ := (bind_eq_ok_iff _ _ _).mp h
  obtain ⟨kind, hKind, h⟩ := (bind_eq_ok_iff _ _ _).mp h
  dsimp only at h
  split at h
  · cases h
  rename_i hChecked
  rw [not_or, not_not, not_not] at hChecked
  obtain ⟨versionElement, hVersionSome, hVersionIs⟩ := Option.bind_eq_some_iff.mp hChecked.1
  obtain ⟨kindElement, hKindSome, hKindIs⟩ := Option.bind_eq_some_iff.mp hChecked.2
  rw [hVersionSome] at hVersion
  rw [hKindSome] at hKind
  obtain ⟨ticketOuter, hTicketOuter, h⟩ := (bind_eq_ok_iff _ _ _).mp h
  split at h
  · cases h
  rename_i hTag
  obtain ⟨element, hTicket, h⟩ := (bind_eq_ok_iff _ _ _).mp h
  obtain ⟨realmElement, hRealm, h⟩ := (bind_eq_ok_iff _ _ _).mp h
  obtain ⟨realm, hRealmIs, h⟩ := (bind_eq_ok_iff _ _ _).mp h
  obtain ⟨name, hName, h⟩ := (bind_eq_ok_iff _ _ _).mp h
  obtain ⟨service, hService, h⟩ := (bind_eq_ok_iff _ _ _).mp h
  obtain ⟨sealedPart, hSealed, h⟩ := (bind_eq_ok_iff _ _ _).mp h
  obtain ⟨typeElement, hType, h⟩ := (bind_eq_ok_iff _ _ _).mp h
  obtain ⟨encryptionType, hTypeIs, h⟩ := (bind_eq_ok_iff _ _ _).mp h
  obtain ⟨keyVersion, hKeyVersion, h⟩ := (bind_eq_ok_iff _ _ _).mp h
  obtain ⟨cipher, hCipher, h⟩ := (bind_eq_ok_iff _ _ _).mp h
  cases h
  obtain ⟨hRealmText, hRealmNe⟩ := (okOr_filter_eq_ok_iff _ _ _).mp hRealmIs
  obtain ⟨names, components, hNames, hComponents, hServiceIs, hServiceNe⟩ :=
    (principal_eq_ok_iff name service).mp hService
  refine ⟨⟨outer, request, versionElement, kindElement, ticketOuter, element, realmElement, name,
    names, components, sealedPart, typeElement, keyVersion, cipher⟩, ?_, ?_⟩
  · exact {
      outer := (taken_eq_ok_iff _ _).mp hOuter
      request := (taken_eq_ok_iff _ _).mp hRequest
      version := (taken_eq_ok_iff _ _).mp hVersion
      kind := (taken_eq_ok_iff _ _).mp hKind
      ticketOuter := (required_eq_ok_iff _ _ _ _).mp hTicketOuter
      ticket := (taken_eq_ok_iff _ _).mp hTicket
      realm := (required_eq_ok_iff _ _ _ _).mp hRealm
      name := (required_eq_ok_iff _ _ _ _).mp hName
      names := hNames
      components := hComponents
      sealedPart := (required_eq_ok_iff _ _ _ _).mp hSealed
      encryptionType := (required_eq_ok_iff _ _ _ _).mp hType
      keyVersion := (taken_eq_ok_iff _ _).mp hKeyVersion
      cipher := (required_eq_ok_iff _ _ _ _).mp hCipher }
  · exact {
      version := hVersionIs
      kind := hKindIs
      ticketOuter := not_not.mp hTag
      realm := hRealmText
      realm_ne_nil := hRealmNe
      service := hServiceIs
      service_ne_nil := hServiceNe
      encryptionType := (okOr_eq_ok_iff _ _ _).mp hTypeIs
      keyVersion := rfl
      cipher := rfl }

theorem parse_of_layout {message : Bytes} {layout : Layout} {ticket : Ticket}
    (hOf : layout.Of asn1 message) (hReads : layout.Reads asn1 ticket) :
    Ticket.parse asn1 message = .ok ticket := by
  have hChecked : ¬((some layout.version).bind asn1.integer ≠ some 5 ∨
      (some layout.kind).bind asn1.integer ≠ some AP_REQ.toUInt32) := by
    rw [not_or, not_not, not_not]
    exact ⟨hReads.version, hReads.kind⟩
  have hRealm : okOr ((string asn1 layout.realm).filter fun realm => !realm.isEmpty)
      "the ticket's realm is not readable" = .ok ticket.realm :=
    (okOr_filter_eq_ok_iff _ _ _).mpr ⟨hReads.realm, hReads.realm_ne_nil⟩
  have hService : principal asn1 layout.name = .ok ticket.service :=
    (principal_eq_ok_iff _ _).mpr ⟨layout.names, layout.components, hOf.names, hOf.components,
      hReads.service, hReads.service_ne_nil⟩
  have hRequired (sequence : Element) (number : UInt8) (what : String) (element : Element)
      (h : asn1.field sequence number = .ok (some element)) :
      required asn1 sequence number what = .ok element :=
    (required_eq_ok_iff sequence number what element).mpr h
  rw [Ticket.parse, hOf.outer, taken_ok, ok_bind, hOf.request, taken_ok, ok_bind, hOf.version,
    taken_ok, ok_bind, hOf.kind, taken_ok, ok_bind]
  dsimp only
  rw [if_neg hChecked, hRequired _ _ _ _ hOf.ticketOuter, ok_bind,
    if_neg (not_not.mpr hReads.ticketOuter), hOf.ticket, taken_ok, ok_bind,
    hRequired _ _ _ _ hOf.realm, ok_bind, hRealm, ok_bind, hRequired _ _ _ _ hOf.name, ok_bind,
    hService, ok_bind]
  -- The sealed part.
  rw [hRequired _ _ _ _ hOf.sealedPart, ok_bind, hRequired _ _ _ _ hOf.encryptionType, ok_bind,
    hReads.encryptionType, okOr, ok_bind, hOf.keyVersion, taken_ok, ok_bind,
    hRequired _ _ _ _ hOf.cipher, ok_bind, ← hReads.keyVersion, ← hReads.cipher]
  rfl

/-- A ticket is what is read off the layout of its message, in either direction. -/
theorem parse_eq_ok_iff (message : Bytes) (ticket : Ticket) :
    Ticket.parse asn1 message = .ok ticket ↔
      ∃ layout : Layout, layout.Of asn1 message ∧ layout.Reads asn1 ticket :=
  ⟨exists_layout_of_parse, fun ⟨_, hOf, hReads⟩ => parse_of_layout hOf hReads⟩

end Kerberos

end XmipIdentify
