import XmipIdentify.Account
import XmipIdentify.PresentedSecrecy
import XmipIdentify.Principal.Kinds
import XmipIdentify.Principal.ServiceCanonical

/-!
# A principal on the record

A principal is put on a claim as its canonical text, under the name its kind
goes by. The record keeps that text whatever is added after it, and a reader
of the record is given the principal back where its text reads back at all.
-/

namespace XmipIdentify

open Str

set_option autoImplicit false

namespace Presented

variable {Mechanism : Type}

/-- A step that puts no evidence under this name. -/
def Step.LeavesFree (name : Text) (step : Step) : Prop := ∀ pair ∈ step.evidence?, pair.1 ≠ name

/-- The first evidence under a name stays the one that is found. -/
theorem evidenceUnder_first (opening : Opening Mechanism) {before : List Step} (after : List Step)
    {name : Text} (value : Text) (h : ∀ step ∈ before, step.LeavesFree name) :
    (build opening (before ++ .withEvidence name value :: after)).evidenceUnder name =
      some value := by
  rw [evidenceUnder_eq_some_iff]
  refine ⟨before, after, rfl, ?_⟩
  intro earlier hMem
  exact h _ hMem (name, earlier) rfl rfl

/-- And none under another name is hidden by it. -/
theorem evidenceUnder_other (opening : Opening Mechanism) (before after : List Step)
    {name other : Text} (value : Text) (h : other ≠ name) :
    (build opening (before ++ .withEvidence other value :: after)).evidenceUnder name =
      (build opening (before ++ after)).evidenceUnder name := by
  rw [evidenceUnder_build, evidenceUnder_build, List.filterMap_append, List.filterMap_append,
    firstUnder_append, firstUnder_append]
  congr 1
  exact firstUnder_cons_ne h value _

theorem withoutProof_put_eq_iff (opening : Opening Mechanism) (before after : List Step)
    (name value name' value' : Text) :
    (build opening (before ++ .withEvidence name value :: after)).withoutProof =
        (build opening (before ++ .withEvidence name' value' :: after)).withoutProof ↔
      name = name' ∧ value = value' := by
  rw [withoutProof_build_eq_iff]
  simp [recorded, Step.evidence?]

end Presented

namespace PrincipalName

open Presented

variable {Mechanism : Type}

/-- What a name is written as is read as a name of its kind or as none. -/
theorem evidence_of_parse_fmt {name other : PrincipalName} (h : parse name.fmt = some other) :
    other.evidence = name.evidence := by
  cases name with
  | user user =>
    rw [fmt, parse_of_not_mem user.not_mem_slash_fmt] at h
    obtain ⟨_, _, rfl⟩ := Option.map_eq_some_iff.mp h
    rfl
  | service service =>
    rw [fmt, parse_of_mem (by simp [ServicePrincipalName.fmt])] at h
    obtain ⟨_, _, rfl⟩ := Option.map_eq_some_iff.mp h
    rfl

/-- Put on a claim before any other of its kind, a principal is found on the record under its own
name alone, and read back as itself: a user always, a service that names a host exactly when it
leaves no space at the end of a host without a port, and no `@` that is read as opening a realm
it has not. Those read back are told apart by the record. -/
theorem principal_on_the_record (opening : Opening Mechanism) (before after : List Step)
    (name : PrincipalName) (hBefore : ∀ step ∈ before, step.LeavesFree name.evidence) :
    let put (other : PrincipalName) : Presented Mechanism :=
      (build opening (before ++ .withEvidence other.evidence other.fmt :: after)).withoutProof
    (put name).evidenceUnder name.evidence = some name.fmt ∧
    (∀ other, other ≠ name.evidence →
      (put name).evidenceUnder other = (build opening (before ++ after)).evidenceUnder other) ∧
    (∀ other, ((put name).evidenceUnder name.evidence).bind parse = some other →
      other.evidence = name.evidence) ∧
    (∀ user, name = .user user →
      ((put name).evidenceUnder Evidence.PRINCIPAL_USER).bind UserPrincipalName.parse =
        some user) ∧
    (∀ service, name = .service service → service.host ≠ [] →
      (((put name).evidenceUnder Evidence.PRINCIPAL_SERVICE).bind ServicePrincipalName.parse =
        some service ↔ service.Clear)) ∧
    ∀ other, parse name.fmt = some name → parse other.fmt = some other →
      (put name = put other ↔ name = other) := by
  intro put
  have hFound : (put name).evidenceUnder name.evidence = some name.fmt :=
    evidenceUnder_first opening after name.fmt hBefore
  refine ⟨hFound, ?_, ?_, ?_, ?_, ?_⟩
  · intro other hOther
    exact evidenceUnder_other opening before after name.fmt hOther.symm
  · intro other hOther
    rw [hFound, Option.bind_some] at hOther
    exact evidence_of_parse_fmt hOther
  · rintro user rfl
    have hUser : (put (.user user)).evidenceUnder Evidence.PRINCIPAL_USER = some user.fmt := hFound
    rw [hUser, Option.bind_some, user.parse_fmt]
  · rintro service rfl hHost
    have hService : (put (.service service)).evidenceUnder Evidence.PRINCIPAL_SERVICE =
        some service.fmt := hFound
    rw [hService, Option.bind_some]
    exact service.parse_fmt_iff_clear hHost
  · intro other hName hOther
    refine (withoutProof_put_eq_iff opening before after _ _ _ _).trans ⟨?_, ?_⟩
    · rintro ⟨_, hFmt⟩
      rw [hFmt, hOther] at hName
      exact (Option.some.inj hName).symm
    · rintro rfl
      exact ⟨rfl, rfl⟩

/-- An account written the older way, beside a scope and a token. -/
theorem principal_on_the_record_jane :
    ∃ user : UserPrincipalName, user.fmt = "Jane@corp.example".toList ∧
      ((build (.passed "jwt" "jane".toList : Opening String)
        ([.withEvidence "scope".toList "read".toList, .withProof "jwt.token".toList ['t']] ++
          [.withEvidence Evidence.PRINCIPAL_USER user.fmt])).withoutProof.evidenceUnder
            Evidence.PRINCIPAL_USER).bind UserPrincipalName.parse = some user := by
  let user := (UserPrincipalName.parse "CORP.Example\\Jane".toList).get (by decide)
  have hBefore : ∀ step ∈
      [Step.withEvidence "scope".toList "read".toList, .withProof "jwt.token".toList ['t']],
      step.LeavesFree (PrincipalName.user user).evidence := by
    simp only [List.forall_mem_cons, Step.LeavesFree, Step.evidence?]
    refine ⟨?_, ?_, fun _ hStep => (List.not_mem_nil hStep).elim⟩
    · rintro _ ⟨⟩
      decide
    · rintro _ ⟨⟩
  have hRecord := principal_on_the_record (.passed "jwt" "jane".toList) _ [] (.user user) hBefore
  exact ⟨user, by decide, hRecord.2.2.2.1 user rfl⟩

end PrincipalName

end XmipIdentify
