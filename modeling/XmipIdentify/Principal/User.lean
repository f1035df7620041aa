import XmipIdentify.Library.Split
import XmipIdentify.Library.Str

/-!
# User principal names

The fields of a name are private to the source's module, so the invariant
`of` establishes is a field here: a name that breaks it cannot be built.
-/

namespace XmipIdentify

open Str ListCut
open ListTrim (Trimmed)

set_option autoImplicit false

/-- The characters a domain may hold. -/
def plain (c : Char) : Bool := isAsciiAlphanumeric c || (c == '.' || c == '-' || c == '_')

structure UserWellFormed (user domain : Text) : Prop where
  user_ne_nil : user ≠ []
  user_trimmed : Trimmed isWhitespace user
  user_backslash : '\\' ∉ user
  user_slash : '/' ∉ user
  domain_ne_nil : domain ≠ []
  domain_plain : ∀ c ∈ domain, plain c = true
  domain_folded : ∀ c ∈ domain, isAsciiUppercase c = false
  domain_dotless : trimEndMatches '.' domain = domain

structure UserPrincipalName where
  user : Text
  domain : Text
  wellFormed : UserWellFormed user domain
deriving DecidableEq

@[simp] theorem plain_charToAsciiLowercase (c : Char) : plain (charToAsciiLowercase c) = plain c := by
  have h (d : Char) (hUpper : isAsciiUppercase d = false) (hLower : isAsciiLowercase d = false) :
      (charToAsciiLowercase c == d) = (c == d) := by
    rw [Bool.eq_iff_iff, beq_iff_eq, beq_iff_eq, charToAsciiLowercase_eq_iff hUpper hLower]
  rw [plain, plain, isAsciiAlphanumeric_charToAsciiLowercase, h '.' (by decide) (by decide),
    h '-' (by decide) (by decide), h '_' (by decide) (by decide)]

theorem plain_cases {c : Char} (h : plain c = true) :
    isAsciiAlphanumeric c = true ∨ c = '.' ∨ c = '-' ∨ c = '_' := by
  simpa [plain, or_assoc] using h

theorem not_isWhitespace_of_plain {c : Char} (h : plain c = true) : isWhitespace c = false := by
  rcases plain_cases h with h | rfl | rfl | rfl
  · exact not_isWhitespace_of_isAsciiAlphanumeric h
  · decide
  · decide
  · decide

theorem not_mem_of_forall_plain {text : Text} (h : ∀ c ∈ text, plain c = true) {d : Char}
    (hd : plain d = false) : d ∉ text := by
  intro hMem
  rw [h d hMem] at hd
  cases hd

/-- The tests of `of`, on the trimmed user part and the trimmed, undotted domain. -/
structure UserAccepted (user domain : Text) : Prop where
  user_ne_nil : user ≠ []
  domain_ne_nil : domain ≠ []
  domain_plain : ∀ c ∈ domain, plain c = true
  user_backslash : '\\' ∉ user
  user_slash : '/' ∉ user

theorem UserAccepted.of_checks {user domain : Text}
    (hFirst : ¬(user.isEmpty || domain.isEmpty || !domain.all plain) = true)
    (hSecond : ¬(user.contains '\\' || user.contains '/') = true) : UserAccepted user domain := by
  simp only [Bool.or_eq_true, Bool.not_eq_true', not_or, Bool.not_eq_false, List.isEmpty_iff,
    List.all_eq_true, List.contains_iff_mem] at hFirst hSecond
  exact ⟨hFirst.1.1, hFirst.1.2, hFirst.2, hSecond.1, hSecond.2⟩

theorem UserAccepted.checks {user domain : Text} (h : UserAccepted user domain) :
    ¬(user.isEmpty || domain.isEmpty || !domain.all plain) = true ∧
      ¬(user.contains '\\' || user.contains '/') = true := by
  simp only [Bool.or_eq_true, Bool.not_eq_true', not_or, Bool.not_eq_false, List.isEmpty_iff,
    List.all_eq_true, List.contains_iff_mem]
  exact ⟨⟨⟨h.user_ne_nil, h.domain_ne_nil⟩, h.domain_plain⟩, h.user_backslash, h.user_slash⟩

theorem UserAccepted.wellFormed {user domain : Text}
    (h : UserAccepted (trim user) (trimEndMatches '.' (trim domain))) :
    UserWellFormed (trim user) (toAsciiLowercase (trimEndMatches '.' (trim domain))) where
  user_ne_nil := h.user_ne_nil
  user_trimmed := trimmed_trim user
  user_backslash := h.user_backslash
  user_slash := h.user_slash
  domain_ne_nil := (not_congr (toAsciiLowercase_eq_nil_iff _)).mpr h.domain_ne_nil
  domain_plain c hc := by
    obtain ⟨b, hb, rfl⟩ := List.mem_map.mp hc
    rw [plain_charToAsciiLowercase]
    exact h.domain_plain b hb
  domain_folded _ hc := isAsciiUppercase_of_mem_toAsciiLowercase hc
  domain_dotless := by
    rw [trimEndMatches_toAsciiLowercase (by decide) (by decide), trimEndMatches_idem]

namespace UserPrincipalName

def of (user domain : Text) : Option UserPrincipalName :=
  if hFirst : ((trim user).isEmpty || (trimEndMatches '.' (trim domain)).isEmpty ||
      !(trimEndMatches '.' (trim domain)).all plain) = true then none
  else if hSecond : ((trim user).contains '\\' || (trim user).contains '/') = true then none
  else some {
    user := trim user
    domain := toAsciiLowercase (trimEndMatches '.' (trim domain))
    wellFormed := (UserAccepted.of_checks hFirst hSecond).wellFormed }

/-- `user@domain`, divided at the last `@`, or the down-level `DOMAIN\user`. -/
def parse (text : Text) : Option UserPrincipalName :=
  match splitOnce '\\' (trim text) with
  | some (domain, user) => of user domain
  | none =>
    match rsplitOnce '@' (trim text) with
    | none => none
    | some (user, domain) => of user domain

def is (name other : UserPrincipalName) : Bool :=
  name.domain == other.domain && eqIgnoreAsciiCase name.user other.user

/-- What `Display` writes. -/
def fmt (name : UserPrincipalName) : Text := name.user ++ '@' :: name.domain

theorem ext_iff (a b : UserPrincipalName) : a = b ↔ a.user = b.user ∧ a.domain = b.domain := by
  cases a
  cases b
  simp

theorem of_eq_some_iff (user domain : Text) (name : UserPrincipalName) :
    of user domain = some name ↔
      UserAccepted (trim user) (trimEndMatches '.' (trim domain)) ∧ name.user = trim user ∧
        name.domain = toAsciiLowercase (trimEndMatches '.' (trim domain)) := by
  constructor
  · intro h
    rw [of] at h
    split at h
    · cases h
    · split at h
      · cases h
      · rename_i hFirst hSecond
        cases h
        exact ⟨.of_checks hFirst hSecond, rfl, rfl⟩
  · rintro ⟨h, hUser, hDomain⟩
    rw [of, dif_neg h.checks.1, dif_neg h.checks.2, Option.some.injEq, ext_iff]
    exact ⟨hUser.symm, hDomain.symm⟩

end UserPrincipalName

end XmipIdentify
