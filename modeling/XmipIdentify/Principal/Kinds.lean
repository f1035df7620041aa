import XmipIdentify.Principal.Name
import XmipIdentify.Principal.UserForms

/-!
# Two kinds of name, told apart by one character

Every service name is read from a text with a `/`, and no user name is. So the
test the dispatcher makes on the raw text decides as the two readers do.
-/

namespace XmipIdentify

open Str ListCut

set_option autoImplicit false

theorem UserPrincipalName.not_mem_slash {text : Text} {name : UserPrincipalName}
    (h : parse text = some name) : '/' ∉ text := by
  obtain ⟨user, domain, hOf, hForms⟩ := forms_of_parse h
  have hUser := (not_mem_user hOf).2
  have hDomain := not_mem_domain hOf (d := '/') (by decide) (by decide)
  rcases hForms with rfl | rfl
  · simp [hUser, hDomain]
  · simp [hUser, hDomain]

theorem ServicePrincipalName.mem_slash {text : Text} {name : ServicePrincipalName}
    (h : parse text = some name) : '/' ∈ text := by
  rw [parse_eq_some_iff, ServiceParts.parse] at h
  obtain ⟨pieces, hCut, _⟩ := Option.bind_eq_some_iff.mp h
  obtain ⟨realm, hText, _⟩ := (cut_eq_some_iff _ pieces).mp hCut
  apply mem_of_mem_trim
  rw [hText]
  simp [joinPieces]

theorem UserPrincipalName.parse_eq_none {text : Text} (h : '/' ∈ text) : parse text = none := by
  rw [Option.eq_none_iff_forall_ne_some]
  intro name hParse
  exact not_mem_slash hParse h

theorem ServicePrincipalName.parse_eq_none {text : Text} (h : '/' ∉ text) : parse text = none := by
  rw [Option.eq_none_iff_forall_ne_some]
  intro name hParse
  exact h (mem_slash hParse)

theorem PrincipalName.parse_of_mem {text : Text} (h : '/' ∈ text) :
    parse text = (ServicePrincipalName.parse text).map .service := by
  rw [parse, if_pos (by rwa [List.contains_iff_mem])]

/-- The dispatcher asks the one reader that can answer. -/
theorem PrincipalName.parse_cases (text : Text) :
    (parse text = (UserPrincipalName.parse text).map .user ∧ ServicePrincipalName.parse text = none) ∨
      parse text = (ServicePrincipalName.parse text).map .service ∧
        UserPrincipalName.parse text = none := by
  by_cases h : '/' ∈ text
  · exact .inr ⟨parse_of_mem h, UserPrincipalName.parse_eq_none h⟩
  · exact .inl ⟨parse_of_not_mem h, ServicePrincipalName.parse_eq_none h⟩

theorem PrincipalName.parse_eq_user_iff (text : Text) (name : UserPrincipalName) :
    parse text = some (.user name) ↔ UserPrincipalName.parse text = some name := by
  rcases parse_cases text with ⟨hParse, _⟩ | ⟨hParse, hNone⟩
  · simp [hParse]
  · simp [hParse, hNone]

theorem PrincipalName.parse_eq_service_iff (text : Text) (name : ServicePrincipalName) :
    parse text = some (.service name) ↔ ServicePrincipalName.parse text = some name := by
  rcases parse_cases text with ⟨hParse, hNone⟩ | ⟨hParse, _⟩
  · simp [hParse, hNone]
  · simp [hParse]

theorem PrincipalName.parse_eq_none_iff (text : Text) :
    parse text = none ↔
      UserPrincipalName.parse text = none ∧ ServicePrincipalName.parse text = none := by
  rcases parse_cases text with ⟨hParse, hNone⟩ | ⟨hParse, hNone⟩
  · simp [hParse, hNone]
  · simp [hParse, hNone]

theorem UserPrincipalName.not_mem_slash_fmt (name : UserPrincipalName) : '/' ∉ name.fmt := by
  have hDomain := not_mem_of_forall_plain name.wellFormed.domain_plain (d := '/') (by decide)
  simp [fmt, name.wellFormed.user_slash, hDomain]

/-- No text is both kinds, the dispatcher answers as the two readers do, and what a name is
written as is never read as the other kind. -/
theorem kinds_never_overlap :
    (∀ text, ¬((UserPrincipalName.parse text).isSome = true ∧
      (ServicePrincipalName.parse text).isSome = true)) ∧
    (∀ text name, PrincipalName.parse text = some (.user name) ↔
      UserPrincipalName.parse text = some name) ∧
    (∀ text name, PrincipalName.parse text = some (.service name) ↔
      ServicePrincipalName.parse text = some name) ∧
    (∀ text, PrincipalName.parse text = none ↔
      UserPrincipalName.parse text = none ∧ ServicePrincipalName.parse text = none) ∧
    (∀ name : UserPrincipalName, ServicePrincipalName.parse name.fmt = none) ∧
    ∀ name : ServicePrincipalName, UserPrincipalName.parse name.fmt = none := by
  refine ⟨?_, PrincipalName.parse_eq_user_iff, PrincipalName.parse_eq_service_iff,
    PrincipalName.parse_eq_none_iff, ?_, ?_⟩
  · rintro text ⟨hUser, hService⟩
    rcases PrincipalName.parse_cases text with ⟨_, hNone⟩ | ⟨_, hNone⟩
    · rw [hNone] at hService
      cases hService
    · rw [hNone] at hUser
      cases hUser
  · exact fun name => ServicePrincipalName.parse_eq_none name.not_mem_slash_fmt
  · exact fun name => UserPrincipalName.parse_eq_none (by simp [ServicePrincipalName.fmt])

end XmipIdentify
