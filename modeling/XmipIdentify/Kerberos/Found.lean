import XmipIdentify.Kerberos.Calls
import XmipIdentify.Kerberos.FieldTypes
import XmipIdentify.Kerberos.Wrapped

/-!
# Where a ticket was found

A ticket is answered for one kind of token only: peeled of its layers it is an
AP-REQ, or a Kerberos token around one, and the ticket is that message's. What
the ticket then says are bytes of the token.
-/

namespace XmipIdentify

open Str

set_option autoImplicit false

/-- The children of an element are slices of it as well. -/
structure Asn1.Borrows (asn1 : Asn1) : Prop extends asn1.Slices where
  children_content : ∀ {element children}, asn1.children element = .ok children →
    ∀ child ∈ children, child.content <:+: element.content

theorem Asn1.der_borrows : Asn1.der.Borrows where
  toSlices := Asn1.der_slices
  children_content h _ hChild := Der.slice_of_mem_readAll (elim_eq_ok_iff.mp h) hChild

namespace Kerberos

variable {asn1 : Asn1} {ntlm : Ntlm}

theorem fromNegotiate_of_holds (tags : asn1.Tags) {token message : Bytes}
    (hNtlm : ntlm.SIGNATURE.isPrefixOf token = false) (h : Holds asn1 token message) :
    fromNegotiate asn1 ntlm token = (Ticket.parse asn1 message).map some := by
  rw [fromNegotiate_eq, hNtlm, if_neg Bool.false_ne_true]
  cases h with
  | bare hOuter hTag =>
    rw [hOuter, taken_ok, ok_bind]
    dsimp only
    rw [if_neg (hTag ▸ apReq_ne_gss tags), if_pos hTag]
  | gss hOuter hTag hMechanism hKerberos =>
    rename_i mechanism
    have hSpnego : mechanism ≠ SPNEGO := by
      rcases hKerberos with rfl | rfl
      · decide
      · decide
    rw [hOuter, taken_ok, ok_bind]
    dsimp only
    rw [if_pos hTag, fromGss_eq, hMechanism, taken_ok, ok_bind]
    dsimp only
    rw [if_neg (by simp), if_neg hSpnego, if_pos hKerberos]
    rfl

theorem map_some_eq_ok_iff (read : Except IdentifyError Ticket) (ticket : Ticket) :
    read.map some = .ok (some ticket) ↔ read = .ok ticket := by
  cases read with
  | error failure => simp [Except.map]
  | ok found => simp [Except.map]

theorem exists_peels_of_some {token : Bytes} {ticket : Ticket}
    (h : fromNegotiate asn1 ntlm token = .ok (some ticket)) :
    ∃ k innermost message, Peels asn1 ntlm k token innermost ∧
      ntlm.SIGNATURE.isPrefixOf innermost = false ∧ Holds asn1 innermost message ∧
      Ticket.parse asn1 message = .ok ticket := by
  obtain ⟨k, innermost, hPeels, ⟨hForeign, _⟩ | ⟨hNtlm, message, hHolds, hParse⟩⟩ :=
    exists_peels_of_ok h
  · cases hForeign
  · exact ⟨k, innermost, message, hPeels, hNtlm, hHolds, (map_some_eq_ok_iff _ _).mp hParse⟩

theorem Carries.slice (slices : asn1.Slices) {token : Bytes} {inner : Element}
    (h : Carries asn1 token (some inner)) : inner.content <:+: token := by
  cases h with
  | init hOuter _ hMechanism hChoice hSequence hField =>
    calc inner.content
      _ <:+: _ := slices.field_content hField
      _ <:+: _ := slices.expect_content hSequence
      _ <:+: _ := slices.expect_content hChoice
      _ <:+: _ := slices.read_rest hMechanism
      _ <:+: token := slices.read_content hOuter
  | response hOuter _ hSequence hField =>
    calc inner.content
      _ <:+: _ := slices.field_content hField
      _ <:+: _ := slices.expect_content hSequence
      _ <:+: token := slices.read_content hOuter

theorem Peels.slice (slices : asn1.Slices) {k : Nat} {token innermost : Bytes}
    (h : Peels asn1 ntlm k token innermost) : innermost <:+: token := by
  induction h with
  | here token => exact List.infix_refl token
  | layer _ hCarries _ ih => exact ih.trans (hCarries.slice slices)

theorem Holds.slice (slices : asn1.Slices) {token message : Bytes} (h : Holds asn1 token message) :
    message <:+: token := by
  cases h with
  | bare _ _ => exact List.infix_refl token
  | gss hOuter _ hMechanism _ =>
    have hMessage : message <:+: TOKEN_AP_REQ ++ message := (List.suffix_append _ _).isInfix
    exact (hMessage.trans (slices.read_rest hMechanism)).trans (slices.read_content hOuter)

/-- The texts and the cipher of a ticket are bytes of the message. -/
theorem slices_of_parse (borrows : asn1.Borrows) {message : Bytes} {ticket : Ticket}
    (h : Ticket.parse asn1 message = .ok ticket) :
    toUtf8 ticket.realm <:+: message ∧ (∀ component ∈ ticket.service, toUtf8 component <:+: message) ∧
      ticket.cipher <:+: message := by
  obtain ⟨layout, hOf, hReads⟩ := (parse_eq_ok_iff message ticket).mp h
  have hRequest : layout.request.content <:+: message :=
    (borrows.expect_content hOf.request).trans (borrows.expect_content hOf.outer)
  have hTicket : layout.ticket.content <:+: message :=
    ((borrows.expect_content hOf.ticket).trans (borrows.field_content hOf.ticketOuter)).trans hRequest
  have hInTicket {number : UInt8} {element : Element}
      (hField : asn1.field layout.ticket number = .ok (some element)) : element.content <:+: message :=
    (borrows.field_content hField).trans hTicket
  have hNames : layout.names.content <:+: message :=
    (borrows.field_content hOf.names).trans (hInTicket hOf.name)
  refine ⟨?_, ?_, ?_⟩
  · have hRealm := hInTicket hOf.realm
    rwa [(string_eq_some_iff _ _).mp hReads.realm] at hRealm
  · intro component hComponent
    have hComponents := (mapM_string_eq_some_iff _ _).mp hReads.service
    have hMem : (⟨asn1.GENERAL_STRING, toUtf8 component⟩ : Element) ∈ layout.components := by
      rw [hComponents]
      exact List.mem_map.mpr ⟨component, hComponent, rfl⟩
    exact (borrows.children_content hOf.components _ hMem).trans hNames
  · rw [hReads.cipher]
    exact (borrows.field_content hOf.cipher).trans (hInTicket hOf.sealedPart)

/-- A ticket is found exactly in a token that peels to a message it is read from, and every text
and the cipher in it are a slice of that token. -/
theorem ticket_found (tags : asn1.Tags) (borrows : asn1.Borrows) (ntlm : Ntlm) (token : Bytes)
    (ticket : Ticket) :
    (fromNegotiate asn1 ntlm token = .ok (some ticket) ↔
      ∃ k innermost message, Peels asn1 ntlm k token innermost ∧
        ntlm.SIGNATURE.isPrefixOf innermost = false ∧ Holds asn1 innermost message ∧
        Ticket.parse asn1 message = .ok ticket) ∧
    (fromNegotiate asn1 ntlm token = .ok (some ticket) →
      toUtf8 ticket.realm <:+: token ∧ (∀ component ∈ ticket.service, toUtf8 component <:+: token) ∧
        ticket.cipher <:+: token) := by
  refine ⟨⟨exists_peels_of_some, ?_⟩, ?_⟩
  · rintro ⟨k, innermost, message, hPeels, hNtlm, hHolds, hParse⟩
    rw [fromNegotiate_of_peels tags hPeels, fromNegotiate_of_holds tags hNtlm hHolds, hParse]
    rfl
  · intro h
    obtain ⟨k, innermost, message, hPeels, _, hHolds, hParse⟩ := exists_peels_of_some h
    obtain ⟨hRealm, hService, hCipher⟩ := slices_of_parse borrows hParse
    have hMessage : message <:+: token :=
      (hHolds.slice borrows.toSlices).trans (hPeels.slice borrows.toSlices)
    exact ⟨hRealm.trans hMessage, fun component hMem => (hService component hMem).trans hMessage,
      hCipher.trans hMessage⟩

/-- The ticket of an AP-REQ under one layer. -/
theorem ticket_found_http :
    let ntlm : Ntlm := ⟨[0x4e, 0x54, 0x4c, 0x4d, 0x53, 0x53, 0x50, 0x00]⟩
    let message := Fixture.apReq Asn1.der ["HTTP".toList, "xmip.example".toList] "EXAMPLE.COM".toList [7]
    let token := Layer.wrapAll Asn1.der [⟨.response, [], []⟩] message
    (∃ ticket, fromNegotiate Asn1.der ntlm token = .ok (some ticket)) ∧
      toUtf8 "EXAMPLE.COM".toList <:+: token := by
  intro ntlm message token
  obtain ⟨hFound, hSlices⟩ := ticket_found Asn1.der_laws.tags Asn1.der_borrows ntlm token
    (Fixture.ticket ["HTTP".toList, "xmip.example".toList] "EXAMPLE.COM".toList [7])
  have hNtlm : ntlm.IsNtlmssp := rfl
  have hPlain : ∀ layer ∈ [(⟨.response, [], []⟩ : Layer)], layer.Plain Asn1.der :=
    forall_of_all (by decide)
  have hPeels := peels_wrapAll Asn1.der_laws hNtlm hPlain message
  have hHolds : Holds Asn1.der message message :=
    .bare (read_read Asn1.der_laws (lowTag_application Asn1.der_laws (by decide)) _) rfl
  have hTicket := hFound.mpr ⟨1, message, message, hPeels, rfl, hHolds,
    parse_apReq Asn1.der_laws [7] (by decide) (by decide)⟩
  exact ⟨⟨_, hTicket⟩, (hSlices hTicket).1⟩

end Kerberos

end XmipIdentify
