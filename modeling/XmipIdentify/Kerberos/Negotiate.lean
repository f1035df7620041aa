import XmipIdentify.Kerberos.Ticket

/-!
# The wrappings of a `Negotiate` token

Three functions call each other, each on content of what the last one read;
the length of that content is what the recursion descends on.
-/

namespace XmipIdentify

open Str

set_option autoImplicit false

structure Ntlm where
  SIGNATURE : Bytes

/-- The eight octets every NTLM message starts with. -/
def Ntlm.IsNtlmssp (ntlm : Ntlm) : Prop :=
  ntlm.SIGNATURE = [0x4e, 0x54, 0x4c, 0x4d, 0x53, 0x53, 0x50, 0x00]

namespace Kerberos

/-- A tag as `{:#04x}` writes it. -/
def showTag (tag : UInt8) : String :=
  String.ofList ['0', 'x', Nat.digitChar (tag.toNat / 16), Nat.digitChar (tag.toNat % 16)]

def splitAtChecked (n : Nat) (bytes : Bytes) : Option (Bytes × Bytes) :=
  if n ≤ bytes.length then some (bytes.take n, bytes.drop n) else none

variable (asn1 : Asn1) (ntlm : Ntlm)

/-- What `from_gss` reads under either Kerberos mechanism. -/
def fromKerberos (inner : Bytes) : Except IdentifyError (Option Ticket) :=
  match splitAtChecked 2 inner with
  | some (id, message) =>
    if id = TOKEN_AP_REQ then (Ticket.parse asn1 message).map some
    else .error (.new "the Kerberos token is not an AP-REQ: its token id is not 01 00")
  | none => .error (.new "the Kerberos token is not an AP-REQ: its token id is not 01 00")

set_option linter.unusedVariables false in
mutual
def fromNegotiate (token : Bytes) : Except IdentifyError (Option Ticket) :=
  if ntlm.SIGNATURE.isPrefixOf token then .ok none
  else
    match hOuter : asn1.read token with
    | .error failure => .error failure.into
    | .ok (outer, _) =>
      if outer.tag = asn1.application 0 then fromGss outer
      else if outer.tag = asn1.application AP_REQ then (Ticket.parse asn1 token).map some
      else if outer.tag = asn1.context 1 true then
        match hResponse : asn1.expect outer.content asn1.SEQUENCE "a NegTokenResp" with
        | .error failure => .error failure.into
        | .ok response =>
          match hField : asn1.field response 2 with
          | .error failure => .error failure.into
          | .ok token => fromMechanismToken token
      else
        .error (.new ("the Negotiate token starts with tag " ++ showTag outer.tag ++
          ", which is neither GSS-API, SPNEGO nor an AP-REQ"))
termination_by (token.length, 0)
decreasing_by
  · have hShrink := asn1.read_shrinks hOuter
    exact Prod.Lex.left _ _ (by omega)
  · have hShrink := asn1.read_shrinks hOuter
    have hShrink' := asn1.expect_shrinks hResponse
    cases token with
    | none => exact Prod.Lex.left _ _ (by simp; omega)
    | some inner =>
      have hShrink'' := asn1.field_shrinks hField
      exact Prod.Lex.left _ _ (by simp; omega)

def fromGss (outer : Element) : Except IdentifyError (Option Ticket) :=
  match hMechanism : asn1.read outer.content with
  | .error failure => .error failure.into
  | .ok (mechanism, inner) =>
    if mechanism.tag ≠ asn1.OBJECT_IDENTIFIER then
      .error (.new "the GSS-API token does not start with a mechanism OID")
    else if mechanism.content = SPNEGO then
      match hInit : asn1.expect inner (asn1.context 0 true) "a NegTokenInit" with
      | .error failure => .error failure.into
      | .ok init =>
        match hSequence : asn1.expect init.content asn1.SEQUENCE "a NegTokenInit" with
        | .error failure => .error failure.into
        | .ok init =>
          match hField : asn1.field init 2 with
          | .error failure => .error failure.into
          | .ok token => fromMechanismToken token
    else if mechanism.content = KERBEROS ∨ mechanism.content = KERBEROS_LEGACY then
      fromKerberos asn1 inner
    else
      .error (.new "the GSS-API token names a mechanism that is neither SPNEGO nor Kerberos")
termination_by (outer.content.length, 1)
decreasing_by
  have hShrink := asn1.read_shrinks hMechanism
  have hShrink' := asn1.expect_shrinks hInit
  have hShrink'' := asn1.expect_shrinks hSequence
  cases token with
  | none => exact Prod.Lex.left _ _ (by simp; omega)
  | some inner =>
    have hShrink''' := asn1.field_shrinks hField
    exact Prod.Lex.left _ _ (by simp; omega)

def fromMechanismToken (token : Option Element) : Except IdentifyError (Option Ticket) :=
  match token with
  | none => .ok none
  | some token =>
    if token.tag = asn1.OCTET_STRING then fromNegotiate token.content
    else .error (.new "the SPNEGO mechanism token is not an OCTET STRING")
termination_by ((token.map fun token => token.content.length).getD 0, 1)
end

theorem fromNegotiate_eq (token : Bytes) :
    fromNegotiate asn1 ntlm token =
      if ntlm.SIGNATURE.isPrefixOf token then .ok none
      else (do
        let (outer, _) ← taken (asn1.read token)
        if outer.tag = asn1.application 0 then fromGss asn1 ntlm outer
        else if outer.tag = asn1.application AP_REQ then (Ticket.parse asn1 token).map some
        else if outer.tag = asn1.context 1 true then do
          let response ← taken (asn1.expect outer.content asn1.SEQUENCE "a NegTokenResp")
          fromMechanismToken asn1 ntlm (← taken (asn1.field response 2))
        else
          .error (.new ("the Negotiate token starts with tag " ++ showTag outer.tag ++
            ", which is neither GSS-API, SPNEGO nor an AP-REQ"))) := by
  rw [fromNegotiate]
  split
  · rfl
  · split
    · rename_i failure hOuter
      rw [hOuter]
      rfl
    · rename_i outer rest hOuter
      rw [hOuter, taken_ok, ok_bind]
      dsimp only
      split
      · rfl
      · split
        · rfl
        · split
          · split
            · rename_i failure hResponse
              rw [hResponse]
              rfl
            · rename_i response hResponse
              rw [hResponse, taken_ok, ok_bind]
              split
              · rename_i failure hField
                rw [hField]
                rfl
              · rename_i inner hField
                rw [hField]
                rfl
          · rfl

theorem fromGss_eq (outer : Element) :
    fromGss asn1 ntlm outer = (do
      let (mechanism, inner) ← taken (asn1.read outer.content)
      if mechanism.tag ≠ asn1.OBJECT_IDENTIFIER then
        .error (.new "the GSS-API token does not start with a mechanism OID")
      else if mechanism.content = SPNEGO then do
        let init ← taken (asn1.expect inner (asn1.context 0 true) "a NegTokenInit")
        let init ← taken (asn1.expect init.content asn1.SEQUENCE "a NegTokenInit")
        fromMechanismToken asn1 ntlm (← taken (asn1.field init 2))
      else if mechanism.content = KERBEROS ∨ mechanism.content = KERBEROS_LEGACY then
        fromKerberos asn1 inner
      else
        .error (.new "the GSS-API token names a mechanism that is neither SPNEGO nor Kerberos")) := by
  rw [fromGss]
  split
  · rename_i failure hMechanism
    rw [hMechanism]
    rfl
  · rename_i mechanism inner hMechanism
    rw [hMechanism, taken_ok, ok_bind]
    dsimp only
    split
    · rfl
    · split
      · split
        · rename_i failure hInit
          rw [hInit]
          rfl
        · rename_i init hInit
          rw [hInit, taken_ok, ok_bind]
          split
          · rename_i failure hSequence
            rw [hSequence]
            rfl
          · rename_i init hSequence
            rw [hSequence, taken_ok, ok_bind]
            split
            · rename_i failure hField
              rw [hField]
              rfl
            · rename_i token hField
              rw [hField]
              rfl
      · rfl

theorem fromMechanismToken_octets (content : Bytes) :
    fromMechanismToken asn1 ntlm (some ⟨asn1.OCTET_STRING, content⟩) =
      fromNegotiate asn1 ntlm content := by
  rw [fromMechanismToken]
  exact if_pos rfl

end Kerberos

end XmipIdentify
