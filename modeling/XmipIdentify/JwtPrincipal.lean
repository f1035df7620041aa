import XmipIdentify.JwtClaims

/-!
# One kind of principal at a time

Two tokens are compared: what the claims of the kind a token does not read
hold has no part in the answer.
-/

namespace XmipIdentify.Compact

open Str

set_option autoImplicit false

/-- Two tokens whose claims of these names are the same strings, or no strings. -/
def SameClaims (names : List String) (a b : Compact) : Prop :=
  ∀ name ∈ names, a.claim name.toList = b.claim name.toList

variable {a b : Compact}

theorem SameClaims.namesUser_iff (h : SameClaims ["idtyp", "upn", "preferred_username"] a b) :
    a.NamesUser ↔ b.NamesUser := by
  rw [NamesUser, NamesUser, h "idtyp" (by simp), h "upn" (by simp), h "preferred_username" (by simp)]

theorem SameClaims.userNamed_eq (h : SameClaims ["upn", "preferred_username"] a b) :
    a.userNamed = b.userNamed := by
  rw [userNamed, userNamed, h "upn" (by simp), h "preferred_username" (by simp)]

theorem SameClaims.serviceNamed_eq (h : SameClaims ["azp", "appid"] a b) :
    a.serviceNamed = b.serviceNamed := by
  rw [serviceNamed, serviceNamed, h "azp" (by simp), h "appid" (by simp)]

theorem SameClaims.subset {names names' : List String} (h : SameClaims names a b)
    (hNames : names' ⊆ names) : SameClaims names' a b :=
  fun name hName => h name (hNames hName)

/-- A user's token answers from the user claims alone, an application's from the application
claims alone. -/
theorem principal_reads_one_kind (a b : Compact) :
    (SameClaims ["upn", "preferred_username", "azp", "appid", "idtyp"] a b →
      a.principal = b.principal) ∧
    (a.claim "idtyp".toList ≠ some "app".toList →
      (a.claim "upn".toList ≠ none ∨ a.claim "preferred_username".toList ≠ none) →
      (∀ name, a.principal ≠ some (.service name)) ∧
      (SameClaims ["idtyp", "upn", "preferred_username"] a b → a.principal = b.principal) ∧
      a.principal = (((a.claim "upn".toList).bind UserPrincipalName.parse).or
        ((a.claim "preferred_username".toList).bind UserPrincipalName.parse)).map .user) ∧
    (a.claim "idtyp".toList = some "app".toList →
      (∀ name, a.principal ≠ some (.user name)) ∧
      (SameClaims ["idtyp", "azp", "appid"] a b → a.principal = b.principal)) ∧
    (a.claim "idtyp".toList = some "app".toList ∨
        (a.claim "upn".toList = none ∧ a.claim "preferred_username".toList = none) →
      a.principal = (((a.claim "azp".toList).bind ServicePrincipalName.parse).or
        ((a.claim "appid".toList).bind ServicePrincipalName.parse)).map .service) := by
  refine ⟨?_, ?_, ?_, ?_⟩
  · intro h
    have hKind := (h.subset (by decide)).namesUser_iff
    by_cases hUser : a.NamesUser
    · rw [hUser.principal_eq, (hKind.mp hUser).principal_eq,
        (h.subset (by decide)).userNamed_eq]
    · rw [principal_eq_of_not_namesUser hUser,
        principal_eq_of_not_namesUser (fun hOther => hUser (hKind.mpr hOther)),
        (h.subset (by decide)).serviceNamed_eq]
  · intro hType hString
    have hUser : a.NamesUser := ⟨hType, hString⟩
    refine ⟨?_, ?_, hUser.principal_eq⟩
    · intro name hName
      rw [hUser.principal_eq] at hName
      simp at hName
    · intro h
      rw [hUser.principal_eq, (h.namesUser_iff.mp hUser).principal_eq,
        (h.subset (by decide)).userNamed_eq]
  · intro hType
    have hApplication : ¬a.NamesUser := fun hUser => hUser.1 hType
    refine ⟨?_, ?_⟩
    · intro name hName
      rw [principal_eq_of_not_namesUser hApplication] at hName
      simp at hName
    · intro h
      have hOther : ¬b.NamesUser := fun hUser => hUser.1 ((h "idtyp" (by simp)) ▸ hType)
      rw [principal_eq_of_not_namesUser hApplication, principal_eq_of_not_namesUser hOther,
        (h.subset (by decide)).serviceNamed_eq]
  · intro h
    apply principal_eq_of_not_namesUser
    rintro ⟨hType, hString⟩
    rcases h with h | ⟨hUpn, hPreferred⟩
    · exact hType h
    · exact hString.elim (· hUpn) (· hPreferred)

/-- An opaque user claim is no principal, and the application it came through is not one instead. -/
theorem principal_reads_one_kind_opaque :
    let claims : Members := OrderedMap.empty.insertAll
      [("upn".toList, .string "opaque".toList), ("azp".toList, .string "host/pc1.example".toList)]
    let compact : Compact := { header := .empty, claims, signature := [], signingInput := [] }
    ((compact.claim "azp".toList).bind ServicePrincipalName.parse).isSome = true ∧
      compact.principal = none := by
  intro claims compact
  have hUser := (principal_reads_one_kind compact compact).2.1 (by decide) (.inl (by decide))
  exact ⟨by decide, hUser.2.2.trans (by decide)⟩

end XmipIdentify.Compact
