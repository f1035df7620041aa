import XmipIdentify.Kerberos.Peeling
import XmipIdentify.Kerberos.TicketRead
import XmipIdentify.Library.OrderedMap

/-!
# A ticket under its wrappings

A layer is a `NegTokenInit` or a `NegTokenResp` with the next token in field 2.
Reading a layer is reading what is inside it, errors included, so any number of
layers is read by induction.
-/

namespace XmipIdentify.Kerberos

open Str Der

set_option autoImplicit false

inductive Leg where
  | init
  | response
deriving DecidableEq

structure Layer where
  leg : Leg
  before : List (UInt8 × Element)
  after : List (UInt8 × Element)

namespace Layer

variable (asn1 : Asn1) (layer : Layer)

def fields (token : Bytes) : List (UInt8 × Element) :=
  layer.before ++ (2, ⟨asn1.OCTET_STRING, token⟩) :: layer.after

/-- The fields beside the token have numbers of their own. -/
def Plain : Prop := Asn1.Plain (layer.fields asn1 [])

instance : Decidable (layer.Plain asn1) := inferInstanceAs (Decidable (Asn1.Plain _))

def wrap (token : Bytes) : Bytes :=
  let sequence := asn1.tlv asn1.SEQUENCE (asn1.fields (layer.fields asn1 token))
  match layer.leg with
  | .init => Fixture.gss asn1 SPNEGO (asn1.tlv (asn1.context 0 true) sequence)
  | .response => asn1.tlv (asn1.context 1 true) sequence

def wrapAll (layers : List Layer) (token : Bytes) : Bytes :=
  layers.foldr (fun layer token => layer.wrap asn1 token) token

variable {asn1 layer}

theorem Plain.fields (h : layer.Plain asn1) (token : Bytes) :
    Asn1.Plain (layer.fields asn1 token) := by
  rw [Plain, Asn1.Plain, Layer.fields, List.map_append, List.map_cons] at h
  rw [Asn1.Plain, Layer.fields, List.map_append, List.map_cons]
  exact h

theorem Plain.lookup (h : layer.Plain asn1) (token : Bytes) :
    (layer.fields asn1 token).lookup 2 = some ⟨asn1.OCTET_STRING, token⟩ := by
  have hNames : ((layer.fields asn1 token).map Prod.fst).Nodup := by
    have := (h.fields token).1
    rwa [List.map_map] at this
  have hMem : ((2 : UInt8), (⟨asn1.OCTET_STRING, token⟩ : Element)) ∈ layer.fields asn1 token :=
    List.mem_append_right _ List.mem_cons_self
  exact SortedEntries.lookup_of_mem hNames hMem

end Layer

variable {asn1 : Asn1} (laws : asn1.Laws)
include laws

theorem lowTag_context {number : UInt8} (h : number < 31) : LowTag (asn1.context number true) := by
  rw [laws.context_eq number h]
  exact lowTag_contextTag h

theorem read_read {tag : UInt8} (hTag : LowTag tag) (content : Bytes) :
    asn1.read (asn1.tlv tag content) = .ok (⟨tag, content⟩, []) := by
  have hRead := laws.read_tlv tag content [] hTag
  rwa [List.append_nil] at hRead

variable {ntlm : Ntlm} (hNtlm : ntlm.IsNtlmssp)
include hNtlm

theorem not_signature_tlv (tag : UInt8) (hTag : tag ≠ 0x4e) (content : Bytes) :
    ntlm.SIGNATURE.isPrefixOf (asn1.tlv tag content) = false := by
  obtain ⟨octets, hTlv⟩ := laws.tlv_head tag content
  rw [hNtlm, hTlv, List.isPrefixOf_cons_cons, beq_eq_false_iff_ne.mpr (Ne.symm hTag), Bool.false_and]

theorem fromNegotiate_bare (content : Bytes) :
    fromNegotiate asn1 ntlm (asn1.tlv (asn1.application AP_REQ) content) =
      (Ticket.parse asn1 (asn1.tlv (asn1.application AP_REQ) content)).map some := by
  have hSignature := not_signature_tlv laws hNtlm
    (asn1.application AP_REQ) (by rw [laws.application_eq AP_REQ (by decide)]; decide) content
  rw [fromNegotiate_eq, hSignature, if_neg Bool.false_ne_true,
    read_read laws (lowTag_application laws (by decide)), taken_ok, ok_bind]
  dsimp only
  rw [if_neg (apReq_ne_gss laws.tags), if_pos rfl]

theorem fromNegotiate_gss (mechanism inner : Bytes) :
    fromNegotiate asn1 ntlm (Fixture.gss asn1 mechanism inner) =
      fromGss asn1 ntlm
        ⟨asn1.application 0, asn1.tlv asn1.OBJECT_IDENTIFIER mechanism ++ inner⟩ := by
  have hSignature := not_signature_tlv laws hNtlm
    (asn1.application 0) (by rw [laws.application_eq 0 (by decide)]; decide)
    (asn1.tlv asn1.OBJECT_IDENTIFIER mechanism ++ inner)
  rw [Fixture.gss, fromNegotiate_eq, hSignature, if_neg Bool.false_ne_true,
    read_read laws (lowTag_application laws (by decide)), taken_ok, ok_bind]
  dsimp only
  rw [if_pos rfl]

omit hNtlm in
theorem read_mechanism (mechanism inner : Bytes) :
    asn1.read (asn1.tlv asn1.OBJECT_IDENTIFIER mechanism ++ inner) =
      .ok (⟨asn1.OBJECT_IDENTIFIER, mechanism⟩, inner) := by
  have hTag : LowTag asn1.OBJECT_IDENTIFIER := by
    rw [laws.objectIdentifier_eq]
    decide
  exact laws.read_tlv _ mechanism inner hTag

theorem fromNegotiate_kerberos {mechanism : Bytes}
    (hMechanism : mechanism = KERBEROS ∨ mechanism = KERBEROS_LEGACY) (message : Bytes) :
    fromNegotiate asn1 ntlm (Fixture.gss asn1 mechanism (TOKEN_AP_REQ ++ message)) =
      (Ticket.parse asn1 message).map some := by
  have hSpnego : mechanism ≠ SPNEGO := by
    rcases hMechanism with rfl | rfl
    · decide
    · decide
  rw [fromNegotiate_gss laws hNtlm, fromGss_eq, read_mechanism laws, taken_ok, ok_bind]
  dsimp only
  rw [if_neg (by simp), if_neg hSpnego, if_pos hMechanism]
  rfl

omit hNtlm in
theorem carries_wrap {layer : Layer} (hPlain : layer.Plain asn1) (token : Bytes) :
    Carries asn1 (layer.wrap asn1 token) (some ⟨asn1.OCTET_STRING, token⟩) := by
  have hField : asn1.field ⟨asn1.SEQUENCE, asn1.fields (layer.fields asn1 token)⟩ 2 =
      .ok (some ⟨asn1.OCTET_STRING, token⟩) := by
    rw [laws.field_fields _ 2 (hPlain.fields token) (by decide), hPlain.lookup token]
  have hSequence (what : String) := laws.expect_tlv asn1.SEQUENCE
    (asn1.fields (layer.fields asn1 token)) what (lowTag_sequence laws)
  rw [Layer.wrap]
  cases layer.leg with
  | init =>
    exact .init (read_read laws (lowTag_application laws (by decide)) _) rfl
      (read_mechanism laws SPNEGO _) (laws.expect_tlv _ _ _ (lowTag_context laws (by decide)))
      (hSequence _) hField
  | response =>
    exact .response (read_read laws (lowTag_context laws (by decide)) _) rfl (hSequence _) hField

theorem not_signature_wrap (layer : Layer) (token : Bytes) :
    ntlm.SIGNATURE.isPrefixOf (layer.wrap asn1 token) = false := by
  rw [Layer.wrap]
  cases layer.leg with
  | init =>
    exact not_signature_tlv laws hNtlm _ (by rw [laws.application_eq 0 (by decide)]; decide) _
  | response =>
    exact not_signature_tlv laws hNtlm _ (by rw [laws.context_eq 1 (by decide)]; decide) _

/-- Every layer is peeled off again. -/
theorem peels_wrapAll {layers : List Layer} (hPlain : ∀ layer ∈ layers, layer.Plain asn1)
    (token : Bytes) :
    Peels asn1 ntlm layers.length (Layer.wrapAll asn1 layers token) token := by
  induction layers with
  | nil => exact .here token
  | cons layer rest ih =>
    have hInner := ih fun other hOther => hPlain other (List.mem_cons_of_mem _ hOther)
    exact .layer (not_signature_wrap laws hNtlm layer _)
      (carries_wrap laws (hPlain layer List.mem_cons_self) _) hInner

theorem fromNegotiate_wrapAll {layers : List Layer} (hPlain : ∀ layer ∈ layers, layer.Plain asn1)
    (token : Bytes) :
    fromNegotiate asn1 ntlm (Layer.wrapAll asn1 layers token) = fromNegotiate asn1 ntlm token :=
  fromNegotiate_of_peels laws.tags (peels_wrapAll laws hNtlm hPlain token)

theorem fromNegotiate_wrap {layer : Layer} (hPlain : layer.Plain asn1) (token : Bytes) :
    fromNegotiate asn1 ntlm (layer.wrap asn1 token) = fromNegotiate asn1 ntlm token :=
  fromNegotiate_of_peels laws.tags
    (.layer (not_signature_wrap laws hNtlm layer token) (carries_wrap laws hPlain token) (.here token))

theorem fromNegotiate_apReq {service : List Text} {realm : Text} (cipher : Bytes)
    (hService : service ≠ []) (hRealm : realm ≠ []) {token : Bytes}
    (hToken : token ∈ [Fixture.apReq asn1 service realm cipher,
      Fixture.kerberos asn1 (Fixture.apReq asn1 service realm cipher),
      Fixture.gss asn1 KERBEROS_LEGACY (TOKEN_AP_REQ ++ Fixture.apReq asn1 service realm cipher)]) :
    fromNegotiate asn1 ntlm token = .ok (some (Fixture.ticket service realm cipher)) := by
  have hParse := parse_apReq laws cipher hService hRealm
  simp only [List.mem_cons, List.not_mem_nil, or_false] at hToken
  rcases hToken with rfl | rfl | rfl
  · rw [apReq_eq] at hParse ⊢
    rw [fromNegotiate_bare laws hNtlm, hParse]
    rfl
  · rw [Fixture.kerberos, fromNegotiate_kerberos laws hNtlm (.inl rfl), hParse]
    rfl
  · rw [fromNegotiate_kerberos laws hNtlm (.inr rfl), hParse]
    rfl

omit laws hNtlm in
/-- What a browser sends is one layer. -/
theorem spnego_eq (token : Bytes) :
    Fixture.spnego asn1 token = (Layer.mk .init
      [(0, ⟨asn1.SEQUENCE, asn1.tlv asn1.OBJECT_IDENTIFIER KERBEROS⟩)] []).wrap asn1 token := by
  simp [Fixture.spnego, Fixture.field, Layer.wrap, Layer.fields, Asn1.fields]

theorem fromNegotiate_spnego (token : Bytes) :
    fromNegotiate asn1 ntlm (Fixture.spnego asn1 token) = fromNegotiate asn1 ntlm token := by
  rw [spnego_eq]
  apply fromNegotiate_wrap laws hNtlm
  simp only [Layer.Plain, Layer.fields, Asn1.Plain, laws.sequence_eq, laws.octetString_eq,
    List.cons_append, List.nil_append, List.map_cons, List.map_nil]
  decide

/-- A ticket is read back exactly, from the AP-REQ itself and from under any wrappings. -/
theorem ticket_read_back :
    (∀ service realm cipher, service ≠ [] → realm ≠ [] →
      Ticket.parse asn1 (Fixture.apReq asn1 service realm cipher) =
        .ok (Fixture.ticket service realm cipher)) ∧
    (∀ message,
      fromNegotiate asn1 ntlm (Fixture.kerberos asn1 message) =
        (Ticket.parse asn1 message).map some ∧
      fromNegotiate asn1 ntlm (Fixture.gss asn1 KERBEROS_LEGACY (TOKEN_AP_REQ ++ message)) =
        (Ticket.parse asn1 message).map some) ∧
    (∀ token, fromNegotiate asn1 ntlm (Fixture.spnego asn1 token) = fromNegotiate asn1 ntlm token) ∧
    (∀ (layer : Layer) token, layer.Plain asn1 →
      fromNegotiate asn1 ntlm (layer.wrap asn1 token) = fromNegotiate asn1 ntlm token) ∧
    ∀ layers : List Layer, (∀ layer ∈ layers, layer.Plain asn1) →
      (∀ token, fromNegotiate asn1 ntlm (Layer.wrapAll asn1 layers token) =
        fromNegotiate asn1 ntlm token) ∧
      ∀ service realm cipher, service ≠ [] → realm ≠ [] →
        ∀ token ∈ [Fixture.apReq asn1 service realm cipher,
          Fixture.kerberos asn1 (Fixture.apReq asn1 service realm cipher),
          Fixture.gss asn1 KERBEROS_LEGACY
            (TOKEN_AP_REQ ++ Fixture.apReq asn1 service realm cipher)],
          fromNegotiate asn1 ntlm (Layer.wrapAll asn1 layers token) =
            .ok (some (Fixture.ticket service realm cipher)) := by
  refine ⟨fun _ _ cipher hService hRealm => parse_apReq laws cipher hService hRealm, ?_,
    fromNegotiate_spnego laws hNtlm, fun _ token hPlain => fromNegotiate_wrap laws hNtlm hPlain token, ?_⟩
  · intro message
    exact ⟨fromNegotiate_kerberos laws hNtlm (.inl rfl) message,
      fromNegotiate_kerberos laws hNtlm (.inr rfl) message⟩
  · intro layers hPlain
    refine ⟨fromNegotiate_wrapAll laws hNtlm hPlain, ?_⟩
    intro service realm cipher hService hRealm token hToken
    rw [fromNegotiate_wrapAll laws hNtlm hPlain]
    exact fromNegotiate_apReq laws hNtlm cipher hService hRealm hToken

omit laws hNtlm in
theorem ticket_read_back_http :
    let ntlm : Ntlm := ⟨[0x4e, 0x54, 0x4c, 0x4d, 0x53, 0x53, 0x50, 0x00]⟩
    let service := ["HTTP".toList, "xmip.example".toList]
    fromNegotiate Asn1.der ntlm (Layer.wrapAll Asn1.der [⟨.response, [], []⟩]
      (Fixture.kerberos Asn1.der (Fixture.apReq Asn1.der service "EXAMPLE.COM".toList [1, 2]))) =
      .ok (some (Fixture.ticket service "EXAMPLE.COM".toList [1, 2])) := by
  intro ntlm service
  have hNtlm : ntlm.IsNtlmssp := rfl
  have h := (ticket_read_back Asn1.der_laws hNtlm).2.2.2.2 [⟨.response, [], []⟩] (by
    simp only [List.mem_singleton, forall_eq]
    decide)
  exact h.2 service _ [1, 2] (by decide) (by decide) _ (by simp)

end XmipIdentify.Kerberos
