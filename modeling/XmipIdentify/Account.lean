import XmipIdentify.JwtClaims
import XmipIdentify.Kerberos.Ticket
import XmipIdentify.Saml

/-!
# One account, one name

A domain may be spelled in either case and with trailing dots, and the name
written in either form. Every reader comes to the one stored name.
-/

namespace XmipIdentify

open Str ListCut
open ListTrim (Trimmed)

set_option autoImplicit false

namespace UserPrincipalName

/-- A spelling of the domain: other letter case, and any number of dots after it. -/
def Spells (name : UserPrincipalName) (domain : Text) : Prop :=
  ∃ base dots, domain = base ++ List.replicate dots '.' ∧
    toAsciiLowercase base = toAsciiLowercase name.domain

/-- Either form of the name, over a spelling of its domain. -/
def Writes (name : UserPrincipalName) (text : Text) : Prop :=
  ∃ domain, name.Spells domain ∧
    (text = name.user ++ '@' :: domain ∨ text = domain ++ '\\' :: name.user)

variable {name : UserPrincipalName}

theorem folded_domain (name : UserPrincipalName) : toAsciiLowercase name.domain = name.domain :=
  toAsciiLowercase_eq_self name.wellFormed.domain_folded

theorem Spells.plain {domain : Text} (h : name.Spells domain) : ∀ c ∈ domain, plain c = true := by
  obtain ⟨base, dots, rfl, hBase⟩ := h
  intro c hc
  rcases List.mem_append.mp hc with hc | hc
  · have hMem : charToAsciiLowercase c ∈ name.domain := by
      rw [← folded_domain name, ← hBase]
      exact List.mem_map.mpr ⟨c, hc, rfl⟩
    rw [← plain_charToAsciiLowercase]
    exact name.wellFormed.domain_plain _ hMem
  · rw [List.eq_of_mem_replicate hc]
    decide

theorem Spells.trim {domain : Text} (h : name.Spells domain) : trim domain = domain :=
  trim_of_trimmed (Trimmed.of_forall _ fun c hc => not_isWhitespace_of_plain (h.plain c hc))

theorem Spells.undotted {domain : Text} (h : name.Spells domain) :
    toAsciiLowercase (trimEndMatches '.' domain) = name.domain := by
  obtain ⟨base, dots, rfl, hBase⟩ := h
  calc toAsciiLowercase (trimEndMatches '.' (base ++ List.replicate dots '.'))
    _ = toAsciiLowercase (trimEndMatches '.' base) :=
      congrArg toAsciiLowercase (trimEndMatches_append_replicate '.' base dots)
    _ = trimEndMatches '.' (toAsciiLowercase base) :=
      (trimEndMatches_toAsciiLowercase (by decide) (by decide) base).symm
    _ = trimEndMatches '.' name.domain := by rw [hBase, folded_domain]
    _ = name.domain := name.wellFormed.domain_dotless

theorem Spells.of_eq {domain : Text} (h : name.Spells domain) : of name.user domain = some name := by
  have hUser : Str.trim name.user = name.user := trim_of_trimmed name.wellFormed.user_trimmed
  have hDomain := h.undotted
  rw [of_eq_some_iff, hUser, h.trim]
  refine ⟨⟨name.wellFormed.user_ne_nil, ?_, ?_, name.wellFormed.user_backslash,
    name.wellFormed.user_slash⟩, rfl, hDomain.symm⟩
  · intro hEmpty
    rw [hEmpty] at hDomain
    exact name.wellFormed.domain_ne_nil hDomain.symm
  · intro c hc
    exact h.plain c ((List.rdropWhile_prefix _ _).subset hc)

theorem Spells.ne_nil {domain : Text} (h : name.Spells domain) : domain ≠ [] := by
  intro hEmpty
  have hDomain := h.undotted
  rw [hEmpty] at hDomain
  exact name.wellFormed.domain_ne_nil hDomain.symm

/-- Both ends of either form belong to the user or to the domain, which are trimmed. -/
theorem Writes.trim {text : Text} (h : name.Writes text) : trim text = text := by
  obtain ⟨domain, hDomain, hText⟩ := h
  have hUserTrimmed := name.wellFormed.user_trimmed
  have hDomainTrimmed : Trimmed isWhitespace domain :=
    Trimmed.of_forall _ fun c hc => not_isWhitespace_of_plain (hDomain.plain c hc)
  apply trim_of_trimmed
  rcases hText with rfl | rfl
  · exact hUserTrimmed.append _ hDomainTrimmed name.wellFormed.user_ne_nil hDomain.ne_nil ['@']
  · exact hDomainTrimmed.append _ hUserTrimmed hDomain.ne_nil name.wellFormed.user_ne_nil ['\\']

theorem Writes.parse_eq {text : Text} (h : name.Writes text) : parse text = some name := by
  have hTrim := h.trim
  obtain ⟨domain, hDomain, hText⟩ := h
  have hAt := not_mem_of_forall_plain hDomain.plain (d := '@') (by decide)
  have hBackslash := not_mem_of_forall_plain hDomain.plain (d := '\\') (by decide)
  rw [parse, hTrim]
  rcases hText with rfl | rfl
  · have hNone : splitOnce '\\' (name.user ++ '@' :: domain) = none := by
      rw [splitOnce_eq_none_iff]
      simp [name.wellFormed.user_backslash, hBackslash]
    rw [hNone, rsplitOnce_append '@' name.user domain hAt]
    exact hDomain.of_eq
  · rw [splitOnce_append '\\' domain name.user hBackslash]
    exact hDomain.of_eq

theorem writes_fmt (name : UserPrincipalName) : name.Writes name.fmt :=
  ⟨name.domain, ⟨name.domain, 0, by simp, rfl⟩, .inl rfl⟩

theorem parse_fmt (name : UserPrincipalName) : parse name.fmt = some name := name.writes_fmt.parse_eq

end UserPrincipalName

end XmipIdentify
