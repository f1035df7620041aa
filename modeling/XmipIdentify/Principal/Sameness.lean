import XmipIdentify.Account
import XmipIdentify.Library.Agree
import XmipIdentify.Principal.LetterCase

/-!
# When two names are the same

Users are the same account where letter case alone tells their canonical texts
apart. Services are the same where everything but the realm is equal and the
realms agree; so the relation is no equivalence, but services that are the same
two by two are one service, with its realm or without.
-/

namespace XmipIdentify

open Str Agree

set_option autoImplicit false

namespace UserPrincipalName

theorem is_iff_folded (name other : UserPrincipalName) :
    name.is other = true ↔ name.folded = other.folded := by
  rw [is, Bool.and_eq_true, beq_iff_eq, eqIgnoreAsciiCase, beq_iff_eq, folded, folded, Prod.mk.injEq]
  exact and_comm

/-- The `@` of the canonical text is its last, so folding it folds the parts. -/
theorem toAsciiLowercase_fmt_eq_iff (name other : UserPrincipalName) :
    toAsciiLowercase name.fmt = toAsciiLowercase other.fmt ↔ name.folded = other.folded := by
  have hFmt (n : UserPrincipalName) :
      toAsciiLowercase n.fmt = toAsciiLowercase n.user ++ '@' :: n.domain := by
    rw [fmt, toAsciiLowercase, List.map_append, List.map_cons]
    exact congrArg (toAsciiLowercase n.user ++ '@' :: ·) (folded_domain n)
  have hAt (n : UserPrincipalName) : '@' ∉ n.domain :=
    not_mem_of_forall_plain n.wellFormed.domain_plain (by decide)
  rw [hFmt, hFmt, folded, folded, Prod.mk.injEq]
  constructor
  · intro h
    have hCut := ListCut.rsplitOnce_append '@' (toAsciiLowercase name.user) name.domain (hAt name)
    rw [h, ListCut.rsplitOnce_append '@' _ _ (hAt other)] at hCut
    exact ⟨(Prod.mk.inj (Option.some.inj hCut)).1.symm, (Prod.mk.inj (Option.some.inj hCut)).2.symm⟩
  · rintro ⟨hUser, hDomain⟩
    rw [hUser, hDomain]

/-- One account, said in three ways: by `is`, by the canonical texts, and by some texts the names
are read from. -/
theorem same_account_iff (name other : UserPrincipalName) :
    (name.is other = true ↔ toAsciiLowercase name.fmt = toAsciiLowercase other.fmt) ∧
    (name.is other = true ↔ ∃ text text', parse text = some name ∧ parse text' = some other ∧
      toAsciiLowercase text = toAsciiLowercase text') := by
  rw [is_iff_folded, toAsciiLowercase_fmt_eq_iff]
  refine ⟨Iff.rfl, ?_, ?_⟩
  · intro h
    exact ⟨name.fmt, other.fmt, parse_fmt name, parse_fmt other,
      (toAsciiLowercase_fmt_eq_iff name other).mpr h⟩
  · rintro ⟨text, text', hText, hText', hFold⟩
    obtain ⟨found, hFound, hFolded⟩ := exists_parse_of_fold hFold hText
    cases hText'.symm.trans hFound
    exact hFolded.symm

end UserPrincipalName

namespace ServicePrincipalName

/-- All of a name but its realm. -/
def unplaced (name : ServicePrincipalName) : ServiceParts := { name.toServiceParts with realm := none }

theorem is_iff (name other : ServicePrincipalName) :
    name.is other = true ↔ name.unplaced = other.unplaced ∧ Agrees name.realm other.realm := by
  have hRest : name.unplaced = other.unplaced ↔ name.class_ = other.class_ ∧ name.host = other.host ∧
      name.port = other.port ∧ name.instance_ = other.instance_ := by
    simp [unplaced]
  rw [hRest, is]
  cases name.realm with
  | none => simp [Agrees, and_assoc]
  | some ours =>
    cases other.realm with
    | none => simp [Agrees, and_assoc]
    | some theirs =>
      simp [Agrees]
      tauto

/-- `is` is reflexive and symmetric, passes through a name that has a realm, and of names that are the
same two by two one says all that the others say. -/
theorem same_service :
    (∀ name : ServicePrincipalName, name.is name = true) ∧
    (∀ name other : ServicePrincipalName, name.is other = other.is name) ∧
    (∀ name other third : ServicePrincipalName, other.realm ≠ none → name.is other = true →
      other.is third = true → name.is third = true) ∧
    ∀ names : List ServicePrincipalName, names ≠ [] →
      ((∀ name ∈ names, ∀ other ∈ names, name.is other = true) ↔
        ∃ fullest ∈ names, ∀ name ∈ names, name.unplaced = fullest.unplaced ∧
          (name.realm = none ∨ name.realm = fullest.realm)) := by
  have hSymm (name other : ServicePrincipalName) (h : name.is other = true) :
      other.is name = true := by
    rw [is_iff] at h ⊢
    exact ⟨h.1.symm, h.2.symm⟩
  refine ⟨?_, ?_, ?_, ?_⟩
  · intro name
    rw [is_iff]
    exact ⟨rfl, .refl _⟩
  · intro name other
    rw [Bool.eq_iff_iff]
    exact ⟨hSymm name other, hSymm other name⟩
  · intro name other third hRealm h h'
    rw [is_iff] at h h' ⊢
    exact ⟨h.1.trans h'.1, h.2.trans_of_known hRealm h'.2⟩
  · intro names hNames
    simp only [is_iff]
    constructor
    · intro h
      obtain ⟨fullest, hMem, hRealms⟩ := (pairwise_iff_fullest (fun name => name.realm) hNames).mp
        fun name hName other hOther => (h name hName other hOther).2
      exact ⟨fullest, hMem, fun name hName => ⟨(h name hName fullest hMem).1, hRealms name hName⟩⟩
    · rintro ⟨fullest, hMem, h⟩ name hName other hOther
      have hRealms := (pairwise_iff_fullest (fun name => name.realm) hNames).mpr
        ⟨fullest, hMem, fun name hName => (h name hName).2⟩
      exact ⟨(h name hName).1.trans (h other hOther).1.symm, hRealms name hName other hOther⟩

end ServicePrincipalName

end XmipIdentify
