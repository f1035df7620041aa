import XmipIdentify.Asn1

/-!
# The ticket in an AP-REQ

The fields that are in the clear, read in the order the source reads them;
the cipher is kept as bytes.
-/

namespace XmipIdentify.Kerberos

open Str

set_option autoImplicit false

def SPNEGO : Bytes := [0x2b, 0x06, 0x01, 0x05, 0x05, 0x02]

def KERBEROS : Bytes := [0x2a, 0x86, 0x48, 0x86, 0xf7, 0x12, 0x01, 0x02, 0x02]

def KERBEROS_LEGACY : Bytes := [0x2a, 0x86, 0x48, 0x82, 0xf7, 0x12, 0x01, 0x02, 0x02]

def TOKEN_AP_REQ : Bytes := [0x01, 0x00]

def AP_REQ : UInt8 := 14

def TICKET : UInt8 := 1

structure Ticket where
  realm : Text
  service : List Text
  encryptionType : UInt32
  keyVersion : Option UInt32
  cipher : Bytes
deriving DecidableEq

/-- Components joined by `/`, then `@` and the realm. -/
def written (components : List Text) (realm : Text) : Text :=
  ['/'].intercalate components ++ '@' :: realm

def Ticket.servicePrincipal (ticket : Ticket) : Text := written ticket.service ticket.realm

def okOr {α : Type} (value : Option α) (message : String) : Except IdentifyError α :=
  match value with
  | some a => .ok a
  | none => .error (.new message)

variable (asn1 : Asn1)

def required (sequence : Element) (number : UInt8) (what : String) : Except IdentifyError Element := do
  okOr (← taken (asn1.field sequence number)) s!"the Kerberos message has no {what}"

def string (element : Element) : Option Text :=
  if element.tag = asn1.GENERAL_STRING then fromUtf8 element.content else none

def principal (name : Element) : Except IdentifyError (List Text) := do
  let names ← okOr (← taken (asn1.field name 1)) "a principal name in the ticket is not readable"
  let components ← taken (asn1.children names)
  okOr ((components.mapM (string asn1)).filter fun components => !components.isEmpty)
    "a principal name in the ticket is not readable"

def Ticket.parse (message : Bytes) : Except IdentifyError Ticket := do
  let request ← taken (asn1.expect message (asn1.application AP_REQ) "an AP-REQ")
  let request ← taken (asn1.expect request.content asn1.SEQUENCE "an AP-REQ")
  let version := (← taken (asn1.field request 0)).bind asn1.integer
  let kind := (← taken (asn1.field request 1)).bind asn1.integer
  if version ≠ some 5 ∨ kind ≠ some AP_REQ.toUInt32 then
    .error (.new "the AP-REQ is not Kerberos 5 message type 14")
  else
    let ticket ← required asn1 request 3 "ticket"
    if ticket.tag ≠ asn1.application TICKET then
      .error (.new "the AP-REQ's ticket is not a Ticket")
    else
      let ticket ← taken (asn1.expect ticket.content asn1.SEQUENCE "a Ticket")
      let realm ← okOr ((string asn1 (← required asn1 ticket 1 "realm in its ticket")).filter
        fun realm => !realm.isEmpty) "the ticket's realm is not readable"
      let service ← principal asn1 (← required asn1 ticket 2 "service name in its ticket")
      let sealedPart ← required asn1 ticket 3 "sealed part in its ticket"
      let encryptionType ← okOr
        (asn1.integer (← required asn1 sealedPart 0 "encryption type on its ticket"))
        "the ticket's encryption type is not read"
      let keyVersion := (← taken (asn1.field sealedPart 1)).bind asn1.integer
      let cipher ← required asn1 sealedPart 2 "cipher in its ticket"
      return { realm, service, encryptionType, keyVersion, cipher := cipher.content }

namespace Fixture

def field (number : UInt8) (inner : Bytes) : Bytes := asn1.tlv (asn1.context number true) inner

def principalName (components : List Text) : Bytes :=
  let strings := components.flatMap fun component => asn1.tlv asn1.GENERAL_STRING (toUtf8 component)
  asn1.tlv asn1.SEQUENCE
    (field asn1 0 (asn1.tlv asn1.INTEGER [1]) ++ field asn1 1 (asn1.tlv asn1.SEQUENCE strings))

def apReq (service : List Text) (realm : Text) (cipher : Bytes) : Bytes :=
  let sealedPart := field asn1 0 (asn1.tlv asn1.INTEGER [18]) ++
    field asn1 1 (asn1.tlv asn1.INTEGER [3]) ++ field asn1 2 (asn1.tlv asn1.OCTET_STRING cipher)
  let ticket := field asn1 0 (asn1.tlv asn1.INTEGER [5]) ++
    field asn1 1 (asn1.tlv asn1.GENERAL_STRING (toUtf8 realm)) ++
    field asn1 2 (principalName asn1 service) ++ field asn1 3 (asn1.tlv asn1.SEQUENCE sealedPart)
  let ticket := asn1.tlv (asn1.application TICKET) (asn1.tlv asn1.SEQUENCE ticket)
  let request := field asn1 0 (asn1.tlv asn1.INTEGER [5]) ++
    field asn1 1 (asn1.tlv asn1.INTEGER [AP_REQ]) ++ field asn1 2 (asn1.tlv 0x03 [0, 0, 0, 0, 0]) ++
    field asn1 3 ticket ++ field asn1 4 (asn1.tlv asn1.SEQUENCE [])
  asn1.tlv (asn1.application AP_REQ) (asn1.tlv asn1.SEQUENCE request)

/-- The ticket `apReq` is made of. -/
def ticket (service : List Text) (realm : Text) (cipher : Bytes) : Ticket :=
  { realm, service, encryptionType := 18, keyVersion := some 3, cipher }

def gss (mechanism inner : Bytes) : Bytes :=
  asn1.tlv (asn1.application 0) (asn1.tlv asn1.OBJECT_IDENTIFIER mechanism ++ inner)

def kerberos (apReq : Bytes) : Bytes := gss asn1 KERBEROS (TOKEN_AP_REQ ++ apReq)

def spnego (mechanismToken : Bytes) : Bytes :=
  let init := asn1.tlv asn1.SEQUENCE
    (field asn1 0 (asn1.tlv asn1.SEQUENCE (asn1.tlv asn1.OBJECT_IDENTIFIER KERBEROS)) ++
      field asn1 2 (asn1.tlv asn1.OCTET_STRING mechanismToken))
  gss asn1 SPNEGO (asn1.tlv (asn1.context 0 true) init)

end Fixture

end XmipIdentify.Kerberos
