import XmipIdentify.Jwt
import XmipIdentify.Principal.Name

/-!
# The claims of a token

What the members of an accepted token are asked for: strings, lists of
strings, whole seconds, and the principal a token names.
-/

namespace XmipIdentify

open Str

set_option autoImplicit false

namespace Number

/-- The cast to `i64`, which saturates. -/
def saturate (n : Int) : Int64 :=
  if n < -9223372036854775808 then Int64.minValue
  else if 9223372036854775808 ≤ n then Int64.maxValue
  else Int64.ofInt n

/-- A double without its fraction; what is not a number is zero. -/
def truncate (bits : UInt64) : Int :=
  let magnitude : Nat :=
    if Binary64.exponent bits = 0 ∨ Binary64.exponent bits = 2047 ∧ Binary64.fraction bits ≠ 0 then 0
    else if 1075 ≤ Binary64.exponent bits then
      (2 ^ 52 + Binary64.fraction bits) * 2 ^ (Binary64.exponent bits - 1075)
    else (2 ^ 52 + Binary64.fraction bits) / 2 ^ (1075 - Binary64.exponent bits)
  if 2 ^ 63 ≤ bits.toNat then -(magnitude : Int) else (magnitude : Int)

/-- `seconds as i64`. -/
def castI64 (bits : UInt64) : Int64 := saturate (truncate bits)

example : castI64 0x41d954fc40000000 = 1700000000 := by decide

def asI64 : Number → Option Int64
  | .posInt n => if n.toNat < 2 ^ 63 then some (Int64.ofInt n.toNat) else none
  | .negInt n => some n
  | .float _ _ => none

/-- The double of the number, for a whole one the nearest. -/
def asF64 : Number → Option UInt64
  | .posInt n => some (Binary64.ofNat n.toNat)
  | .negInt n => some (Binary64.ofInt n.toInt)
  | .float bits _ => some bits

end Number

namespace Value

def asStr : Value → Option Text
  | .string text => some text
  | _ => none

def asI64 : Value → Option Int64
  | .number n => n.asI64
  | _ => none

def asF64 : Value → Option UInt64
  | .number n => n.asF64
  | _ => none

end Value

def Members.text (members : Members) (name : Text) : Option Text := (members.get name).bind Value.asStr

namespace Compact

variable (compact : Compact)

def algorithm : Option Text := compact.header.text "alg".toList

def keyId : Option Text := compact.header.text "kid".toList

def claim (name : Text) : Option Text := compact.claims.text name

def numericClaim (name : Text) : Option Int64 :=
  (compact.claims.get name).bind fun value => value.asI64.or (value.asF64.map Number.castI64)

def principal : Option PrincipalName :=
  let users := ["upn".toList, "preferred_username".toList].filterMap compact.claim
  let application := compact.claim "idtyp".toList == some "app".toList
  if !application && !users.isEmpty then (users.findSome? UserPrincipalName.parse).map .user
  else
    (["azp".toList, "appid".toList].filterMap compact.claim).findSome? ServicePrincipalName.parse
      |>.map .service

def stringsClaim (name : Text) : List Text :=
  match compact.claims.get name with
  | some (.string one) => [one]
  | some (.array values) => (values.mapM Value.asStr).getD []
  | _ => []

/-- Of two claims that may be strings, the first that `f` accepts. -/
theorem findSome?_filterMap_claim {α : Type} (f : Text → Option α) (first second : Text) :
    ([first, second].filterMap compact.claim).findSome? f =
      ((compact.claim first).bind f).or ((compact.claim second).bind f) := by
  cases hFirst : compact.claim first with
  | none =>
    cases hSecond : compact.claim second with
    | none => simp [hFirst, hSecond]
    | some text => simp [hFirst, hSecond]
  | some text =>
    cases hSecond : compact.claim second with
    | none => cases hText : f text <;> simp [hFirst, hSecond, hText]
    | some other => cases hText : f text <;> simp [hFirst, hSecond, hText]

/-- The token is a user's: not an application's, and one of the user claims is a string. -/
def NamesUser : Prop :=
  compact.claim "idtyp".toList ≠ some "app".toList ∧
    (compact.claim "upn".toList ≠ none ∨ compact.claim "preferred_username".toList ≠ none)

def userNamed : Option UserPrincipalName :=
  ((compact.claim "upn".toList).bind UserPrincipalName.parse).or
    ((compact.claim "preferred_username".toList).bind UserPrincipalName.parse)

def serviceNamed : Option ServicePrincipalName :=
  ((compact.claim "azp".toList).bind ServicePrincipalName.parse).or
    ((compact.claim "appid".toList).bind ServicePrincipalName.parse)

theorem namesUser_iff :
    compact.NamesUser ↔ (!(compact.claim "idtyp".toList == some "app".toList) &&
      !(["upn".toList, "preferred_username".toList].filterMap compact.claim).isEmpty) = true := by
  rw [NamesUser, Bool.and_eq_true, Bool.not_eq_true', Bool.not_eq_true', beq_eq_false_iff_ne,
    List.isEmpty_eq_false_iff, ne_eq (List.filterMap _ _), List.filterMap_eq_nil_iff]
  simp only [List.forall_mem_cons, List.not_mem_nil, false_implies, implies_true, and_true,
    not_and_or, ne_eq]

variable {compact}

theorem NamesUser.principal_eq (h : compact.NamesUser) :
    compact.principal = compact.userNamed.map .user := by
  rw [principal, if_pos (compact.namesUser_iff.mp h), findSome?_filterMap_claim]
  rfl

theorem principal_eq_of_not_namesUser (h : ¬compact.NamesUser) :
    compact.principal = compact.serviceNamed.map .service := by
  rw [principal, if_neg (fun hTest => h (compact.namesUser_iff.mpr hTest)),
    findSome?_filterMap_claim]
  rfl

end Compact

end XmipIdentify
