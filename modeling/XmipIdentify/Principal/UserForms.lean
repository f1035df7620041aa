import XmipIdentify.Principal.User

/-!
# The two forms of a user principal name

`user@domain` and `domain\user` are read wherever the two parts make a name, and
nothing else is. A name's parts hold no character the other form divides at, so
no text is read two ways.
-/

namespace XmipIdentify.UserPrincipalName

open Str ListCut

set_option autoImplicit false

/-- One of the two forms of these parts. -/
def Forms (text user domain : Text) : Prop :=
  text = user ++ '@' :: domain ∨ text = domain ++ '\\' :: user

theorem of_congr {user domain user' domain' : Text} (hUser : trim user = trim user')
    (hDomain : trim domain = trim domain') : of user domain = of user' domain' := by
  apply Option.ext
  intro name
  rw [of_eq_some_iff, of_eq_some_iff, hUser, hDomain]

/-- A domain is plain once it is trimmed of whitespace and dots, and both are plain or space. -/
theorem not_mem_domain {user domain : Text} {name : UserPrincipalName} (h : of user domain = some name)
    {d : Char} (hPlain : plain d = false) (hSpace : isWhitespace d = false) : d ∉ domain := by
  have hAccepted := ((of_eq_some_iff user domain name).mp h).1
  have hDot : d ≠ '.' := by
    rintro rfl
    cases hPlain
  rw [← mem_trim_iff hSpace, ← mem_trimEndMatches_iff hDot]
  exact not_mem_of_forall_plain hAccepted.domain_plain hPlain

theorem not_mem_user {user domain : Text} {name : UserPrincipalName} (h : of user domain = some name) :
    '\\' ∉ user ∧ '/' ∉ user := by
  have hAccepted := ((of_eq_some_iff user domain name).mp h).1
  rw [← mem_trim_iff (by decide), ← mem_trim_iff (by decide) (c := '/')]
  exact ⟨hAccepted.user_backslash, hAccepted.user_slash⟩

theorem parse_of_forms {text user domain : Text} {name : UserPrincipalName}
    (h : of user domain = some name) (hText : Forms text user domain) : parse text = some name := by
  have hBackslash := not_mem_domain h (d := '\\') (by decide) (by decide)
  have hAt := not_mem_domain h (d := '@') (by decide) (by decide)
  rcases hText with rfl | rfl
  · have hTrim : trim (user ++ '@' :: domain) =
        user.dropWhile isWhitespace ++ '@' :: domain.rdropWhile isWhitespace :=
      ListTrim.trim_append_cons isWhitespace (by decide) user domain
    have hNone : splitOnce '\\' (trim (user ++ '@' :: domain)) = none := by
      rw [splitOnce_eq_none_iff, mem_trim_iff (by decide)]
      simp [(not_mem_user h).1, hBackslash]
    have hAt' : '@' ∉ domain.rdropWhile isWhitespace :=
      fun hMem => hAt ((List.rdropWhile_prefix _ _).subset hMem)
    rw [parse, hNone, hTrim]
    dsimp only
    rw [rsplitOnce_append '@' _ _ hAt', ← h]
    exact of_congr (ListTrim.trim_dropWhile _ _) (ListTrim.trim_rdropWhile _ _)
  · have hTrim : trim (domain ++ '\\' :: user) =
        domain.dropWhile isWhitespace ++ '\\' :: user.rdropWhile isWhitespace :=
      ListTrim.trim_append_cons isWhitespace (by decide) domain user
    have hBackslash' : '\\' ∉ domain.dropWhile isWhitespace :=
      fun hMem => hBackslash ((List.dropWhile_sublist _).subset hMem)
    rw [parse, hTrim, splitOnce_append '\\' _ _ hBackslash', ← h]
    exact of_congr (ListTrim.trim_rdropWhile _ _) (ListTrim.trim_dropWhile _ _)

/-- What is trimmed off a text belongs to its outer parts, which are trimmed again. -/
theorem forms_of_parse {text : Text} {name : UserPrincipalName} (h : parse text = some name) :
    ∃ user domain, of user domain = some name ∧ Forms text user domain := by
  obtain ⟨u, w, hText, hu, hw⟩ := ListTrim.exists_trim isWhitespace text
  have hLead (part : Text) : trim (u ++ part) = trim part := trim_append_of_whitespace hu part
  have hTail (part : Text) : trim (part ++ w) = trim part :=
    trim_surround (u := []) (by simp) hw
  rw [parse] at h
  split at h
  · rename_i domain user hCut
    obtain ⟨hTrim, _⟩ := (splitOnce_eq_some_iff '\\' _ domain user).mp hCut
    refine ⟨user ++ w, u ++ domain, ?_, .inr ?_⟩
    · rw [← h]
      exact of_congr (hTail user) (hLead domain)
    · rw [hText, show ListTrim.trim isWhitespace text = _ from hTrim]
      simp
  · split at h
    · cases h
    · rename_i user domain hCut
      obtain ⟨hTrim, _⟩ := (rsplitOnce_eq_some_iff '@' _ user domain).mp hCut
      refine ⟨u ++ user, domain ++ w, ?_, .inl ?_⟩
      · rw [← h]
        exact of_congr (hLead user) (hTail domain)
      · rw [hText, show ListTrim.trim isWhitespace text = _ from hTrim]
        simp

/-- What is known of every name, whichever form it came in. -/
structure Named (name : UserPrincipalName) : Prop where
  user_ne_nil : name.user ≠ []
  user_trimmed : trim name.user = name.user
  user_slash : '/' ∉ name.user
  user_backslash : '\\' ∉ name.user
  domain_ne_nil : name.domain ≠ []
  domain_characters : ∀ c ∈ name.domain,
    isAsciiLowercase c = true ∨ isAsciiDigit c = true ∨ c = '.' ∨ c = '-' ∨ c = '_'
  domain_end : name.domain.getLast? ≠ some '.'

theorem named (name : UserPrincipalName) : name.Named where
  user_ne_nil := name.wellFormed.user_ne_nil
  user_trimmed := trim_of_trimmed name.wellFormed.user_trimmed
  user_slash := name.wellFormed.user_slash
  user_backslash := name.wellFormed.user_backslash
  domain_ne_nil := name.wellFormed.domain_ne_nil
  domain_characters c hc := by
    rcases plain_cases (name.wellFormed.domain_plain c hc) with h | h
    · simp only [isAsciiAlphanumeric, name.wellFormed.domain_folded c hc, Bool.false_or,
        Bool.or_eq_true] at h
      rcases h with h | h
      · exact .inl h
      · exact .inr (.inl h)
    · exact .inr (.inr h)
  domain_end := by
    intro hLast
    have hDotless := name.wellFormed.domain_dotless
    rw [trimEndMatches, List.rdropWhile_eq_self_iff] at hDotless
    rw [List.getLast?_eq_some_getLast name.wellFormed.domain_ne_nil, Option.some.injEq] at hLast
    exact hDotless name.wellFormed.domain_ne_nil (decide_eq_true hLast)

/-- The two forms are what is read, a text in both forms or divided twice is one name, and every
name is well formed. -/
theorem parse_iff_forms (text : Text) :
    (∀ name, parse text = some name ↔
      ∃ user domain, of user domain = some name ∧ Forms text user domain) ∧
    (∀ user domain user' domain' name name', Forms text user domain → Forms text user' domain' →
      of user domain = some name → of user' domain' = some name' → name = name') ∧
    ∀ name, parse text = some name → name.Named := by
  refine ⟨?_, ?_, fun name _ => name.named⟩
  · intro name
    constructor
    · exact forms_of_parse
    · rintro ⟨user, domain, hOf, hForms⟩
      exact parse_of_forms hOf hForms
  · intro user domain user' domain' name name' hForms hForms' hOf hOf'
    exact Option.some.inj ((parse_of_forms hOf hForms).symm.trans (parse_of_forms hOf' hForms'))

end XmipIdentify.UserPrincipalName
