import XmipIdentify.Principal.ServiceName
import XmipIdentify.Principal.User

/-!
# Principal names

Text with a `/` is read as a service principal name, any other as a user's.
-/

namespace XmipIdentify

open Str

set_option autoImplicit false

namespace Evidence

def PRINCIPAL_USER : Text := "principal.user".toList

def PRINCIPAL_SERVICE : Text := "principal.service".toList

end Evidence

inductive PrincipalName where
  | user (name : UserPrincipalName)
  | service (name : ServicePrincipalName)
deriving DecidableEq

namespace PrincipalName

def parse (text : Text) : Option PrincipalName :=
  if text.contains '/' then (ServicePrincipalName.parse text).map .service
  else (UserPrincipalName.parse text).map .user

def evidence : PrincipalName → Text
  | .user _ => Evidence.PRINCIPAL_USER
  | .service _ => Evidence.PRINCIPAL_SERVICE

def fmt : PrincipalName → Text
  | .user name => name.fmt
  | .service name => name.fmt

theorem parse_of_not_mem {text : Text} (h : '/' ∉ text) :
    parse text = (UserPrincipalName.parse text).map .user := by
  rw [parse, if_neg (by rwa [List.contains_iff_mem])]

end PrincipalName

end XmipIdentify
