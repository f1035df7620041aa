import XmipIdentify.Library.TailCalls
import XmipIdentify.Kerberos.Negotiate

/-!
# The calls of reading a token

The three functions end in a call of one another. Each call is on a slice of
what the last was on, and a shorter one except for the octets of a mechanism
token, which are the next token as they are.
-/

namespace XmipIdentify

open Str

set_option autoImplicit false

/-- What the crate reads are slices of what it is given. -/
structure Asn1.Slices (asn1 : Asn1) : Prop where
  read_content : ∀ {bytes element rest}, asn1.read bytes = .ok (element, rest) →
    element.content <:+: bytes
  read_rest : ∀ {bytes element rest}, asn1.read bytes = .ok (element, rest) → rest <:+: bytes
  expect_content : ∀ {bytes tag what element}, asn1.expect bytes tag what = .ok element →
    element.content <:+: bytes
  field_content : ∀ {element number inner}, asn1.field element number = .ok (some inner) →
    inner.content <:+: element.content

theorem Asn1.der_slices : Asn1.der.Slices where
  read_content h := (Der.read_slices (elim_eq_ok_iff.mp h)).1
  read_rest h := (Der.read_slices (elim_eq_ok_iff.mp h)).2.1
  expect_content h := (Der.expect_slice (elim_eq_ok_iff.mp h)).1
  field_content h := Der.field_slice (elim_eq_ok_iff.mp h)

namespace Kerberos

abbrev Answer := Except IdentifyError (Option Ticket)

inductive Call where
  | negotiate (token : Bytes)
  | gss (outer : Element)
  | mechanism (token : Option Element)
deriving DecidableEq

namespace Call

/-- The bytes a call is on. -/
def content : Call → Bytes
  | negotiate token => token
  | gss outer => outer.content
  | mechanism token => (token.map fun token => token.content).getD []

def weight : Call → Nat
  | negotiate token => 2 * token.length
  | call => 2 * call.content.length + 1

variable (asn1 : Asn1) (ntlm : Ntlm)

/-- A failure of the crate is the answer, and what it reads is gone on with. -/
def asked {α : Type} (read : Except Asn1Error α) (next : α → Answer ⊕ Call) : Answer ⊕ Call :=
  match read with
  | .error failure => .inl (.error failure.into)
  | .ok a => next a

/-- The bodies of the three functions, up to the call they end in. -/
def step : Call → Answer ⊕ Call
  | negotiate token =>
    if ntlm.SIGNATURE.isPrefixOf token then .inl (.ok none)
    else asked (asn1.read token) fun (outer, _) =>
      if outer.tag = asn1.application 0 then .inr (gss outer)
      else if outer.tag = asn1.application AP_REQ then .inl ((Ticket.parse asn1 token).map some)
      else if outer.tag = asn1.context 1 true then
        asked (asn1.expect outer.content asn1.SEQUENCE "a NegTokenResp") fun response =>
          asked (asn1.field response 2) fun token => .inr (mechanism token)
      else
        .inl (.error (.new ("the Negotiate token starts with tag " ++ showTag outer.tag ++
          ", which is neither GSS-API, SPNEGO nor an AP-REQ")))
  | gss outer =>
    asked (asn1.read outer.content) fun (oid, inner) =>
      if oid.tag ≠ asn1.OBJECT_IDENTIFIER then
        .inl (.error (.new "the GSS-API token does not start with a mechanism OID"))
      else if oid.content = SPNEGO then
        asked (asn1.expect inner (asn1.context 0 true) "a NegTokenInit") fun init =>
          asked (asn1.expect init.content asn1.SEQUENCE "a NegTokenInit") fun init =>
            asked (asn1.field init 2) fun token => .inr (mechanism token)
      else if oid.content = KERBEROS ∨ oid.content = KERBEROS_LEGACY then
        .inl (fromKerberos asn1 inner)
      else
        .inl (.error
          (.new "the GSS-API token names a mechanism that is neither SPNEGO nor Kerberos"))
  | mechanism none => .inl (.ok none)
  | mechanism (some token) =>
    if token.tag = asn1.OCTET_STRING then .inr (negotiate token.content)
    else .inl (.error (.new "the SPNEGO mechanism token is not an OCTET STRING"))

def answer : Call → Answer
  | negotiate token => fromNegotiate asn1 ntlm token
  | gss outer => fromGss asn1 ntlm outer
  | mechanism token => fromMechanismToken asn1 ntlm token

/-- The call that a call ends in, and what was read on the way. -/
inductive Enters : Call → Call → Prop
  | gss {token rest : Bytes} {outer : Element} (hOuter : asn1.read token = .ok (outer, rest)) :
      Enters (negotiate token) (gss outer)
  | response {token rest : Bytes} {outer sequence : Element} {field : Option Element}
      (hOuter : asn1.read token = .ok (outer, rest))
      (hSequence : asn1.expect outer.content asn1.SEQUENCE "a NegTokenResp" = .ok sequence)
      (hField : asn1.field sequence 2 = .ok field) : Enters (negotiate token) (mechanism field)
  | init {outer oid choice sequence : Element} {inner : Bytes} {field : Option Element}
      (hOid : asn1.read outer.content = .ok (oid, inner))
      (hChoice : asn1.expect inner (asn1.context 0 true) "a NegTokenInit" = .ok choice)
      (hSequence : asn1.expect choice.content asn1.SEQUENCE "a NegTokenInit" = .ok sequence)
      (hField : asn1.field sequence 2 = .ok field) : Enters (gss outer) (mechanism field)
  | octets (token : Element) : Enters (mechanism (some token)) (negotiate token.content)

variable {asn1 ntlm}

theorem asked_eq_inr_iff {α : Type} (read : Except Asn1Error α) (next : α → Answer ⊕ Call)
    (call : Call) : asked read next = .inr call ↔ ∃ a, read = .ok a ∧ next a = .inr call := by
  cases read with
  | error failure => simp [asked]
  | ok a => simp [asked]

theorem elim_asked {α : Type} (read : Except Asn1Error α) (next : α → Answer ⊕ Call)
    (answer : Call → Answer) :
    Sum.elim id answer (asked read next) = taken read >>= fun a => Sum.elim id answer (next a) := by
  cases read with
  | error failure => rfl
  | ok a => rfl

theorem enters_of_step {call next : Call} (h : step asn1 ntlm call = .inr next) :
    Enters asn1 call next := by
  cases call with
  | negotiate token =>
    rw [step] at h
    split at h
    · cases h
    · obtain ⟨⟨outer, rest⟩, hOuter, h⟩ := (asked_eq_inr_iff _ _ _).mp h
      dsimp only at h
      split at h
      · cases h
        exact .gss hOuter
      · split at h
        · cases h
        · split at h
          · obtain ⟨sequence, hSequence, h⟩ := (asked_eq_inr_iff _ _ _).mp h
            obtain ⟨field, hField, h⟩ := (asked_eq_inr_iff _ _ _).mp h
            cases h
            exact .response hOuter hSequence hField
          · cases h
  | gss outer =>
    obtain ⟨⟨oid, inner⟩, hOid, h⟩ := (asked_eq_inr_iff _ _ _).mp h
    dsimp only at h
    split at h
    · cases h
    · split at h
      · obtain ⟨choice, hChoice, h⟩ := (asked_eq_inr_iff _ _ _).mp h
        obtain ⟨sequence, hSequence, h⟩ := (asked_eq_inr_iff _ _ _).mp h
        obtain ⟨field, hField, h⟩ := (asked_eq_inr_iff _ _ _).mp h
        cases h
        exact .init hOid hChoice hSequence hField
      · split at h
        · cases h
        · cases h
  | mechanism token =>
    cases token with
    | none => cases h
    | some token =>
      rw [step] at h
      split at h
      · cases h
        exact .octets token
      · cases h

theorem answers : TailCalls.Answers (step asn1 ntlm) (answer asn1 ntlm) := by
  intro call
  cases call with
  | negotiate token =>
    rw [answer, fromNegotiate_eq, step]
    split
    · rfl
    · rw [elim_asked]
      refine congrArg (taken (asn1.read token) >>= ·) (funext fun ⟨outer, rest⟩ => ?_)
      dsimp only
      split
      · rfl
      · split
        · rfl
        · split
          · simp only [elim_asked]
            rfl
          · rfl
  | gss outer =>
    rw [answer, fromGss_eq, step, elim_asked]
    refine congrArg (taken (asn1.read outer.content) >>= ·) (funext fun ⟨oid, inner⟩ => ?_)
    dsimp only
    split
    · rfl
    · split
      · simp only [elim_asked]
        rfl
      · split
        · rfl
        · rfl
  | mechanism token =>
    cases token with
    | none =>
      rw [answer, fromMechanismToken]
      rfl
    | some token =>
      rw [answer, fromMechanismToken, step]
      split
      · rfl
      · rfl

theorem length_field {sequence : Element} {number : UInt8} {field : Option Element}
    (h : asn1.field sequence number = .ok field) :
    (mechanism field).content.length ≤ sequence.content.length := by
  cases field with
  | none => exact Nat.zero_le _
  | some inner => exact asn1.field_shrinks h

theorem slice_field (slices : asn1.Slices) {sequence : Element} {number : UInt8}
    {field : Option Element} (h : asn1.field sequence number = .ok field) :
    (mechanism field).content <:+: sequence.content := by
  cases field with
  | none => exact List.nil_infix
  | some inner => exact slices.field_content h

theorem slice_of_enters (slices : asn1.Slices) {call next : Call} (h : Enters asn1 call next) :
    next.content <:+: call.content := by
  cases h with
  | gss hOuter => exact slices.read_content hOuter
  | response hOuter hSequence hField =>
    exact ((slice_field slices hField).trans (slices.expect_content hSequence)).trans
      (slices.read_content hOuter)
  | init hOid hChoice hSequence hField =>
    exact (((slice_field slices hField).trans (slices.expect_content hSequence)).trans
      (slices.expect_content hChoice)).trans (slices.read_rest hOid)
  | octets token => exact List.infix_refl _

/-- What a token is entered through is behind at least one tag. -/
theorem shorter_of_enters {token : Bytes} {next : Call} (h : Enters asn1 (negotiate token) next) :
    next.content.length < token.length := by
  cases h with
  | gss hOuter =>
    have hRead := asn1.read_shrinks hOuter
    exact Nat.lt_of_le_of_lt (Nat.le_add_right _ _) hRead
  | response hOuter hSequence hField =>
    have hRead := asn1.read_shrinks hOuter
    have hExpect := asn1.expect_shrinks hSequence
    have hInner := length_field hField
    omega

theorem shorter_of_enters_gss {outer : Element} {next : Call} (h : Enters asn1 (gss outer) next) :
    next.content.length < outer.content.length := by
  cases h with
  | init hOid hChoice hSequence hField =>
    have hRead := asn1.read_shrinks hOid
    have hExpect := asn1.expect_shrinks hChoice
    have hExpect' := asn1.expect_shrinks hSequence
    have hInner := length_field hField
    omega

theorem descends : TailCalls.Descends (step asn1 ntlm) weight := by
  intro call next hCall
  have hEnters := enters_of_step hCall
  cases hEnters with
  | gss hOuter =>
    have hLess := shorter_of_enters (.gss hOuter)
    simp only [weight]
    omega
  | response hOuter hSequence hField =>
    have hLess := shorter_of_enters (.response hOuter hSequence hField)
    simp only [weight]
    omega
  | init hOid hChoice hSequence hField =>
    have hLess := shorter_of_enters_gss (.init hOid hChoice hSequence hField)
    simp only [weight, content] at hLess ⊢
    omega
  | octets token => exact Nat.lt_succ_self _

theorem inside_of_transGen (slices : asn1.Slices) {token : Bytes} {last : Call}
    (h : Relation.TransGen (TailCalls.Calls (step asn1 ntlm)) (negotiate token) last) :
    last.content <:+: token ∧ last.content.length < token.length := by
  refine TailCalls.of_transGen (P := fun call => call.content <:+: token ∧
    call.content.length < token.length) ?_ ?_ h
  · intro next hCall
    have hEnters := enters_of_step hCall
    exact ⟨slice_of_enters slices hEnters, shorter_of_enters hEnters⟩
  · rintro call next ⟨hSlice, hLess⟩ hCall
    have hNext := slice_of_enters slices (enters_of_step hCall)
    exact ⟨hNext.trans hSlice, Nat.lt_of_le_of_lt hNext.length_le hLess⟩

end Call

open TailCalls Call in
/-- Reading ends with the functions' answers, since every token on the way is a shorter slice. -/
theorem reading_ends {asn1 : Asn1} (slices : asn1.Slices) (ntlm : Ntlm) :
    (∀ token inner,
      Relation.TransGen (Calls (step asn1 ntlm)) (negotiate token) (negotiate inner) →
        inner <:+: token ∧ inner.length < token.length) ∧
    (∀ call fuel, call.weight < fuel →
      run (step asn1 ntlm) fuel call = some (answer asn1 ntlm call)) ∧
    ∀ calls : Nat → Call, ∃ n, ¬Calls (step asn1 ntlm) (calls n) (calls (n + 1)) := by
  refine ⟨?_, ?_, ?_⟩
  · intro token inner hCalls
    exact inside_of_transGen slices hCalls
  · intro call fuel hFuel
    exact run_eq_answer answers descends hFuel
  · intro calls
    exact not_forever descends calls

open TailCalls Call in
/-- An empty `NegTokenResp` under a `NegTokenInit`. -/
theorem reading_ends_nested :
    let ntlm : Ntlm := ⟨[0x4e, 0x54, 0x4c, 0x4d, 0x53, 0x53, 0x50, 0x00]⟩
    let inner := Asn1.der.tlv (Asn1.der.context 1 true) (Asn1.der.tlv Asn1.der.SEQUENCE [])
    let token := Fixture.spnego Asn1.der inner
    (inner <:+: token ∧ inner.length < token.length) ∧
      run (step Asn1.der ntlm) (2 * token.length + 1) (negotiate token) =
        some (fromNegotiate Asn1.der ntlm token) := by
  intro ntlm inner token
  obtain ⟨hShorter, hEnds, _⟩ := reading_ends Asn1.der_slices ntlm
  have hOuter : Calls (step Asn1.der ntlm) (negotiate token)
      (gss ⟨Asn1.der.application 0, token.drop 2⟩) := by decide +kernel
  have hField : Calls (step Asn1.der ntlm) (gss ⟨Asn1.der.application 0, token.drop 2⟩)
      (mechanism (some ⟨Asn1.der.OCTET_STRING, inner⟩)) := by decide +kernel
  have hInner : Calls (step Asn1.der ntlm) (mechanism (some ⟨Asn1.der.OCTET_STRING, inner⟩))
      (negotiate inner) := rfl
  exact ⟨hShorter token inner (.tail (.tail (.single hOuter) hField) hInner),
    hEnds (negotiate token) _ (Nat.lt_succ_self _)⟩

end Kerberos

end XmipIdentify
