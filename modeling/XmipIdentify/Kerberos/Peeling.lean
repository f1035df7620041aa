import XmipIdentify.Kerberos.Negotiate

/-!
# Peeling a token

A SPNEGO message carries its next token in field 2, or carries none there. What
`from_negotiate` answers is what it answers to the token left when every layer
is peeled off, and that one it calls somebody else's for two reasons only.
-/

namespace XmipIdentify

open Str

set_option autoImplicit false

/-- X.690's tags of the two classes a token is told by, for the numbers of one octet. -/
structure Asn1.Tags (asn1 : Asn1) : Prop where
  application_eq : ∀ n, n < 31 → asn1.application n = 0x60 + n
  context_eq : ∀ n, n < 31 → asn1.context n true = 0xa0 + n

theorem Asn1.Laws.tags {asn1 : Asn1} (laws : asn1.Laws) : asn1.Tags where
  application_eq := laws.application_eq
  context_eq := laws.context_eq

namespace Kerberos

theorem apReq_ne_gss {asn1 : Asn1} (tags : asn1.Tags) :
    asn1.application AP_REQ ≠ asn1.application 0 := by
  rw [tags.application_eq AP_REQ (by decide), tags.application_eq 0 (by decide)]
  decide

theorem response_ne_gss {asn1 : Asn1} (tags : asn1.Tags) :
    asn1.context 1 true ≠ asn1.application 0 := by
  rw [tags.context_eq 1 (by decide), tags.application_eq 0 (by decide)]
  decide

theorem response_ne_apReq {asn1 : Asn1} (tags : asn1.Tags) :
    asn1.context 1 true ≠ asn1.application AP_REQ := by
  rw [tags.context_eq 1 (by decide), tags.application_eq AP_REQ (by decide)]
  decide

variable (asn1 : Asn1) (ntlm : Ntlm)

/-- The token is a readable `NegTokenInit` or `NegTokenResp`, and this is its field 2. -/
inductive Carries (token : Bytes) : Option Element → Prop
  | init {outer choice sequence : Element} {rest inner : Bytes} {field : Option Element}
      (hOuter : asn1.read token = .ok (outer, rest))
      (hTag : outer.tag = asn1.application 0)
      (hMechanism : asn1.read outer.content = .ok (⟨asn1.OBJECT_IDENTIFIER, SPNEGO⟩, inner))
      (hChoice : asn1.expect inner (asn1.context 0 true) "a NegTokenInit" = .ok choice)
      (hSequence : asn1.expect choice.content asn1.SEQUENCE "a NegTokenInit" = .ok sequence)
      (hField : asn1.field sequence 2 = .ok field) : Carries token field
  | response {outer sequence : Element} {rest : Bytes} {field : Option Element}
      (hOuter : asn1.read token = .ok (outer, rest))
      (hTag : outer.tag = asn1.context 1 true)
      (hSequence : asn1.expect outer.content asn1.SEQUENCE "a NegTokenResp" = .ok sequence)
      (hField : asn1.field sequence 2 = .ok field) : Carries token field

/-- So many layers peeled off a token leave the innermost. -/
inductive Peels : Nat → Bytes → Bytes → Prop
  | here (token : Bytes) : Peels 0 token token
  | layer {k : Nat} {token inner innermost : Bytes}
      (hNtlm : ntlm.SIGNATURE.isPrefixOf token = false)
      (hCarries : Carries asn1 token (some ⟨asn1.OCTET_STRING, inner⟩))
      (hInner : Peels k inner innermost) : Peels (k + 1) token innermost

/-- A token of another kind than SPNEGO's: not DER, an AP-REQ, or a GSS-API token of another
mechanism. -/
inductive Other (token : Bytes) : Prop
  | unreadable {failure : Asn1Error} (hOuter : asn1.read token = .error failure)
  | apReq {outer : Element} {rest : Bytes} (hOuter : asn1.read token = .ok (outer, rest))
      (hTag : outer.tag = asn1.application AP_REQ)
  | mechanism {outer mechanism : Element} {rest inner : Bytes}
      (hOuter : asn1.read token = .ok (outer, rest)) (hTag : outer.tag = asn1.application 0)
      (hMechanism : asn1.read outer.content = .ok (mechanism, inner))
      (hOther : mechanism ≠ ⟨asn1.OBJECT_IDENTIFIER, SPNEGO⟩)

/-- The token is this message, or says in either mechanism of Kerberos that it holds it. -/
inductive Holds (token : Bytes) : Bytes → Prop
  | bare {outer : Element} {rest : Bytes} (hOuter : asn1.read token = .ok (outer, rest))
      (hTag : outer.tag = asn1.application AP_REQ) : Holds token token
  | gss {outer : Element} {rest mechanism message : Bytes}
      (hOuter : asn1.read token = .ok (outer, rest)) (hTag : outer.tag = asn1.application 0)
      (hMechanism : asn1.read outer.content =
        .ok (⟨asn1.OBJECT_IDENTIFIER, mechanism⟩, TOKEN_AP_REQ ++ message))
      (hKerberos : mechanism = KERBEROS ∨ mechanism = KERBEROS_LEGACY) : Holds token message

variable {asn1 ntlm}

theorem Carries.shrinks {token : Bytes} {inner : Element} (h : Carries asn1 token (some inner)) :
    inner.content.length < token.length := by
  cases h with
  | init hOuter _ hMechanism hChoice hSequence hField =>
    have hRead := asn1.read_shrinks hOuter
    have hRest := asn1.read_shrinks hMechanism
    have hExpect := asn1.expect_shrinks hChoice
    have hExpect' := asn1.expect_shrinks hSequence
    have hInner := asn1.field_shrinks hField
    omega
  | response hOuter _ hSequence hField =>
    have hRead := asn1.read_shrinks hOuter
    have hExpect := asn1.expect_shrinks hSequence
    have hInner := asn1.field_shrinks hField
    omega

theorem Other.not_carries (tags : asn1.Tags) {token : Bytes} (h : Other asn1 token)
    (field : Option Element) : ¬Carries asn1 token field := by
  intro hCarries
  cases h with
  | unreadable hUnread =>
    cases hCarries with
    | init hOuter => cases hUnread.symm.trans hOuter
    | response hOuter => cases hUnread.symm.trans hOuter
  | apReq hRead hApReq =>
    cases hCarries with
    | init hOuter hTag =>
      cases hRead.symm.trans hOuter
      exact apReq_ne_gss tags (hApReq.symm.trans hTag)
    | response hOuter hTag =>
      cases hRead.symm.trans hOuter
      exact response_ne_apReq tags (hTag.symm.trans hApReq)
  | mechanism hRead hGss hOther hNe =>
    cases hCarries with
    | init hOuter hTag hMechanism =>
      cases hRead.symm.trans hOuter
      cases hOther.symm.trans hMechanism
      exact hNe rfl
    | response hOuter hTag =>
      cases hRead.symm.trans hOuter
      exact response_ne_gss tags (hTag.symm.trans hGss)

theorem fromNegotiate_of_carries (tags : asn1.Tags) {token : Bytes} {field : Option Element}
    (hNtlm : ntlm.SIGNATURE.isPrefixOf token = false) (h : Carries asn1 token field) :
    fromNegotiate asn1 ntlm token = fromMechanismToken asn1 ntlm field := by
  rw [fromNegotiate_eq, hNtlm, if_neg Bool.false_ne_true]
  cases h with
  | init hOuter hTag hMechanism hChoice hSequence hField =>
    rw [hOuter, taken_ok, ok_bind]
    dsimp only
    rw [if_pos hTag, fromGss_eq, hMechanism, taken_ok, ok_bind]
    dsimp only
    rw [if_neg (by simp), if_pos rfl, hChoice, taken_ok, ok_bind, hSequence, taken_ok, ok_bind,
      hField, taken_ok, ok_bind]
  | response hOuter hTag hSequence hField =>
    rw [hOuter, taken_ok, ok_bind]
    dsimp only
    rw [if_neg (hTag ▸ response_ne_gss tags), if_neg (hTag ▸ response_ne_apReq tags), if_pos hTag,
      hSequence, taken_ok, ok_bind, hField, taken_ok, ok_bind]

theorem fromMechanismToken_eq_ok_iff (field : Option Element) (answer : Option Ticket) :
    fromMechanismToken asn1 ntlm field = .ok answer ↔ field = none ∧ answer = none ∨
      ∃ inner, field = some ⟨asn1.OCTET_STRING, inner⟩ ∧
        fromNegotiate asn1 ntlm inner = .ok answer := by
  cases field with
  | none => simp [fromMechanismToken, eq_comm]
  | some element =>
    constructor
    · intro h
      rw [fromMechanismToken] at h
      split at h
      · rename_i hTag
        exact .inr ⟨element.content, by rw [← hTag], h⟩
      · cases h
    · rintro (⟨h, _⟩ | ⟨inner, h, hInner⟩)
      · cases h
      · cases h
        rw [fromMechanismToken_octets, hInner]

theorem map_some_ne_none {read : Except IdentifyError Ticket} : read.map some ≠ .ok none := by
  cases read with
  | error failure => exact (nomatch ·)
  | ok ticket => exact (nomatch ·)

theorem fromKerberos_eq_ok_iff (inner : Bytes) (answer : Option Ticket) :
    fromKerberos asn1 inner = .ok answer ↔
      ∃ message, inner = TOKEN_AP_REQ ++ message ∧
        (Ticket.parse asn1 message).map some = .ok answer := by
  constructor
  · intro h
    rw [fromKerberos] at h
    split at h
    · rename_i id message hSplit
      split at h
      · rename_i hId
        rw [splitAtChecked] at hSplit
        split at hSplit
        · cases hSplit
          refine ⟨inner.drop 2, ?_, h⟩
          rw [← hId, List.take_append_drop]
        · cases hSplit
      · cases h
    · cases h
  · rintro ⟨message, rfl, h⟩
    exact h

/-- An answer comes from a message in the token, or from the next token. -/
theorem holds_or_carries {token : Bytes} {answer : Option Ticket}
    (hNtlm : ntlm.SIGNATURE.isPrefixOf token = false)
    (h : fromNegotiate asn1 ntlm token = .ok answer) :
    (∃ message, Holds asn1 token message ∧ (Ticket.parse asn1 message).map some = .ok answer) ∨
      ∃ field, Carries asn1 token field ∧ fromMechanismToken asn1 ntlm field = .ok answer := by
  rw [fromNegotiate_eq, hNtlm, if_neg Bool.false_ne_true, bind_eq_ok_iff] at h
  obtain ⟨⟨outer, rest⟩, hOuter, h⟩ := h
  have hRead := (taken_eq_ok_iff _ _).mp hOuter
  dsimp only at h
  split at h
  · rename_i hTag
    rw [fromGss_eq, bind_eq_ok_iff] at h
    obtain ⟨⟨⟨tag, content⟩, inner⟩, hMechanism, h⟩ := h
    have hReadMechanism := (taken_eq_ok_iff _ _).mp hMechanism
    dsimp only at h
    split at h
    · cases h
    · rename_i hObject
      obtain rfl := not_not.mp hObject
      split at h
      · rename_i hSpnego
        obtain ⟨choice, hChoice, h⟩ := (bind_eq_ok_iff _ _ _).mp h
        obtain ⟨sequence, hSequence, h⟩ := (bind_eq_ok_iff _ _ _).mp h
        obtain ⟨field, hField, h⟩ := (bind_eq_ok_iff _ _ _).mp h
        rw [hSpnego] at hReadMechanism
        exact .inr ⟨field, .init hRead hTag hReadMechanism ((taken_eq_ok_iff _ _).mp hChoice)
          ((taken_eq_ok_iff _ _).mp hSequence) ((taken_eq_ok_iff _ _).mp hField), h⟩
      · split at h
        · rename_i hKerberos
          obtain ⟨message, rfl, hParse⟩ := (fromKerberos_eq_ok_iff inner answer).mp h
          exact .inl ⟨message, .gss hRead hTag hReadMechanism hKerberos, hParse⟩
        · cases h
  · split at h
    · rename_i hTag
      exact .inl ⟨token, .bare hRead hTag, h⟩
    · split at h
      · rename_i hTag
        obtain ⟨sequence, hSequence, h⟩ := (bind_eq_ok_iff _ _ _).mp h
        obtain ⟨field, hField, h⟩ := (bind_eq_ok_iff _ _ _).mp h
        exact .inr ⟨field, .response hRead hTag ((taken_eq_ok_iff _ _).mp hSequence)
          ((taken_eq_ok_iff _ _).mp hField), h⟩
      · cases h

/-- Only a SPNEGO message passes on that what is in it is somebody else's. -/
theorem exists_carries_of_none {token : Bytes} (hNtlm : ntlm.SIGNATURE.isPrefixOf token = false)
    (h : fromNegotiate asn1 ntlm token = .ok none) :
    ∃ field, Carries asn1 token field ∧ fromMechanismToken asn1 ntlm field = .ok none := by
  rcases holds_or_carries hNtlm h with ⟨message, _, hParse⟩ | hCarries
  · exact absurd hParse map_some_ne_none
  · exact hCarries

/-- The answer is the innermost token's. -/
theorem fromNegotiate_of_peels (tags : asn1.Tags) {k : Nat} {token innermost : Bytes}
    (h : Peels asn1 ntlm k token innermost) :
    fromNegotiate asn1 ntlm token = fromNegotiate asn1 ntlm innermost := by
  induction h with
  | here token => rfl
  | layer hNtlm hCarries _ ih =>
    rw [fromNegotiate_of_carries tags hNtlm hCarries, fromMechanismToken_octets, ih]

theorem fromNegotiate_eq_none_iff (tags : asn1.Tags) {token : Bytes} :
    fromNegotiate asn1 ntlm token = .ok none ↔ ntlm.SIGNATURE.isPrefixOf token = true ∨
      ∃ field, Carries asn1 token field ∧ fromMechanismToken asn1 ntlm field = .ok none := by
  cases hNtlm : ntlm.SIGNATURE.isPrefixOf token with
  | true =>
    refine ⟨fun _ => .inl rfl, fun _ => ?_⟩
    rw [fromNegotiate_eq, hNtlm, if_pos rfl]
  | false =>
    constructor
    · intro h
      exact .inr (exists_carries_of_none hNtlm h)
    · rintro (h | ⟨field, hCarries, hField⟩)
      · cases h
      · rw [fromNegotiate_of_carries tags hNtlm hCarries, hField]

/-- Every answer is given at the innermost token, by the induction on how many bytes are left. -/
theorem exists_peels_of_ok {token : Bytes} {answer : Option Ticket}
    (h : fromNegotiate asn1 ntlm token = .ok answer) :
    ∃ k innermost, Peels asn1 ntlm k token innermost ∧
      (answer = none ∧ (ntlm.SIGNATURE.isPrefixOf innermost = true ∨ Carries asn1 innermost none) ∨
        ntlm.SIGNATURE.isPrefixOf innermost = false ∧ ∃ message, Holds asn1 innermost message ∧
          (Ticket.parse asn1 message).map some = .ok answer) := by
  induction token using (measure List.length).wf.induction with
  | h token ih =>
    cases hNtlm : ntlm.SIGNATURE.isPrefixOf token with
    | true =>
      rw [fromNegotiate_eq, hNtlm, if_pos rfl] at h
      cases h
      exact ⟨0, token, .here token, .inl ⟨rfl, .inl hNtlm⟩⟩
    | false =>
      rcases holds_or_carries hNtlm h with hHolds | ⟨field, hCarries, hField⟩
      · exact ⟨0, token, .here token, .inr ⟨hNtlm, hHolds⟩⟩
      · rcases (fromMechanismToken_eq_ok_iff field answer).mp hField with ⟨rfl, rfl⟩ | ⟨inner, rfl, hInner⟩
        · exact ⟨0, token, .here token, .inl ⟨rfl, .inr hCarries⟩⟩
        · obtain ⟨k, innermost, hPeels, hAnswer⟩ := ih inner hCarries.shrinks hInner
          exact ⟨k + 1, innermost, .layer hNtlm hCarries hPeels, hAnswer⟩

theorem exists_peels_of_none {token : Bytes}
    (h : fromNegotiate asn1 ntlm token = .ok none) :
    ∃ k innermost, Peels asn1 ntlm k token innermost ∧
      (ntlm.SIGNATURE.isPrefixOf innermost = true ∨ Carries asn1 innermost none) := by
  obtain ⟨k, innermost, hPeels, ⟨_, hForeign⟩ | ⟨_, message, _, hParse⟩⟩ := exists_peels_of_ok h
  · exact ⟨k, innermost, hPeels, hForeign⟩
  · exact absurd hParse map_some_ne_none

/-- A token is somebody else's exactly where peeling comes to an NTLM message or to a SPNEGO message
with no token in it, so one that comes to another kind of token is not. -/
theorem somebody_elses_iff (tags : asn1.Tags) (ntlm : Ntlm) (token : Bytes) :
    (fromNegotiate asn1 ntlm token = .ok none ↔
      ∃ k innermost, Peels asn1 ntlm k token innermost ∧
        (ntlm.SIGNATURE.isPrefixOf innermost = true ∨ Carries asn1 innermost none)) ∧
    ∀ k innermost, Peels asn1 ntlm k token innermost →
      ntlm.SIGNATURE.isPrefixOf innermost = false → Other asn1 innermost →
      (∃ ticket, fromNegotiate asn1 ntlm token = .ok (some ticket)) ∨
        ∃ failure, fromNegotiate asn1 ntlm token = .error failure := by
  refine ⟨⟨exists_peels_of_none, ?_⟩, ?_⟩
  · rintro ⟨k, innermost, hPeels, hForeign⟩
    rw [fromNegotiate_of_peels tags hPeels, fromNegotiate_eq_none_iff tags]
    exact hForeign.imp_right fun hCarries =>
      ⟨none, hCarries, (fromMechanismToken_eq_ok_iff none none).mpr (.inl ⟨rfl, rfl⟩)⟩
  · intro k innermost hPeels hNtlm hOther
    rw [fromNegotiate_of_peels tags hPeels]
    cases hAnswer : fromNegotiate asn1 ntlm innermost with
    | error failure => exact .inr ⟨failure, rfl⟩
    | ok answer =>
      cases answer with
      | some ticket => exact .inl ⟨ticket, rfl⟩
      | none =>
        obtain ⟨field, hCarries, _⟩ := exists_carries_of_none hNtlm hAnswer
        exact absurd hCarries (hOther.not_carries tags field)

/-- An empty `NegTokenResp` under a `NegTokenInit`. -/
theorem somebody_elses_iff_continuation :
    fromNegotiate Asn1.der ⟨[0x4e, 0x54, 0x4c, 0x4d, 0x53, 0x53, 0x50, 0x00]⟩
      (Fixture.spnego Asn1.der
        (Asn1.der.tlv (Asn1.der.context 1 true) (Asn1.der.tlv Asn1.der.SEQUENCE []))) = .ok none :=
  (somebody_elses_iff Asn1.der_laws.tags _ _).1.mpr ⟨1, _,
    .layer rfl (.init rfl rfl rfl rfl rfl rfl) (.here _), .inr (.response rfl rfl rfl rfl)⟩

end Kerberos

end XmipIdentify
