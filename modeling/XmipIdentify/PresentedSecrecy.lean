import XmipIdentify.Presented

/-!
# What a claim gives away of its proof

The record side is a two-run statement: builds that differ in proof values
alone are one to every observer but the authenticator. Equality is another
matter. It is derived, so it compares the proof the type's own contract says
is never compared; the last theorem says for which pairs that shows.
-/

namespace XmipIdentify

open Str

set_option autoImplicit false

namespace Presented

variable {Mechanism : Type}

theorem Step.evidence?_eq_some_iff (step : Step) (name value : Text) :
    step.evidence? = some (name, value) ↔ step = .withEvidence name value := by
  cases step with
  | withEvidence _ _ => simp [Step.evidence?]
  | withProof _ _ => simp [Step.evidence?]

theorem Step.proof?_eq_some_iff (step : Step) (name value : Text) :
    step.proof? = some (name, value) ↔ step = .withProof name value := by
  cases step with
  | withEvidence _ _ => simp [Step.proof?]
  | withProof _ _ => simp [Step.proof?]

section Given

variable {part : Step → Option (Text × Text)} {give : Text → Text → Step}
  (hPart : ∀ step name value, part step = some (name, value) ↔ step = give name value)
include hPart

theorem firstUnder_given_eq_none_iff (steps : List Step) (name : Text) :
    firstUnder name (steps.filterMap part) = none ↔ ∀ value, give name value ∉ steps := by
  rw [firstUnder_eq_none_iff]
  constructor
  · intro h value hMem
    exact h (name, value) (List.mem_filterMap.mpr ⟨_, hMem, (hPart _ name value).mpr rfl⟩) rfl
  · rintro h ⟨_, value⟩ hMem rfl
    obtain ⟨step, hStep, hGives⟩ := List.mem_filterMap.mp hMem
    obtain rfl := (hPart step _ value).mp hGives
    exact h value hStep

/-- Of the steps that give something under a name the first decides what is found there. -/
theorem firstUnder_given_eq_some_iff (steps : List Step) (name value : Text) :
    firstUnder name (steps.filterMap part) = some value ↔ ∃ before after,
      steps = before ++ give name value :: after ∧ ∀ earlier, give name earlier ∉ before := by
  constructor
  · intro h
    obtain ⟨⟨other, _⟩, hFind, rfl⟩ := Option.map_eq_some_iff.mp h
    obtain ⟨hName, front, back, hSplit, hFront⟩ := List.find?_eq_some_iff_append.mp hFind
    obtain rfl : other = name := eq_of_beq hName
    -- The steps are cut where the pairs are; those that give no pair go with what is before.
    obtain ⟨before, rest, rfl, rfl, hRest⟩ := List.filterMap_eq_append_iff.mp hSplit
    obtain ⟨skipped, step, after, rfl, hSkipped, hStep, rfl⟩ := List.filterMap_eq_cons_iff.mp hRest
    obtain rfl := (hPart step _ _).mp hStep
    refine ⟨before ++ skipped, after, (List.append_assoc _ _ _).symm, ?_⟩
    intro earlier hMem
    have hGives := (hPart _ other earlier).mpr rfl
    rcases List.mem_append.mp hMem with hMem | hMem
    · have hNot := hFront _ (List.mem_filterMap.mpr ⟨_, hMem, hGives⟩)
      simp at hNot
    · cases (hSkipped _ hMem).symm.trans hGives
  · rintro ⟨before, after, rfl, hFirst⟩
    have hNone := (firstUnder_given_eq_none_iff hPart before name).mpr hFirst
    rw [List.filterMap_append, firstUnder_append, hNone, Option.none_or,
      List.filterMap_cons_some ((hPart _ name value).mpr rfl), firstUnder_cons_self]

end Given

theorem evidence_build (opening : Opening Mechanism) (steps : List Step) :
    (build opening steps).evidence = steps.filterMap Step.evidence? := by
  rw [build, evidence_foldl_apply]
  cases opening <;> rfl

theorem proof_build (opening : Opening Mechanism) (steps : List Step) :
    (build opening steps).proof = steps.filterMap Step.proof? := by
  rw [build, proof_foldl_apply]
  cases opening <;> rfl

theorem evidenceUnder_build (opening : Opening Mechanism) (steps : List Step) (name : Text) :
    (build opening steps).evidenceUnder name =
      firstUnder name (steps.filterMap Step.evidence?) := by
  rw [evidenceUnder, evidence_build]

theorem proofUnder_build (opening : Opening Mechanism) (steps : List Step) (name : Text) :
    (build opening steps).proofUnder name = firstUnder name (steps.filterMap Step.proof?) := by
  rw [proofUnder, proof_build]

theorem evidenceUnder_eq_some_iff (opening : Opening Mechanism) (steps : List Step)
    (name value : Text) :
    (build opening steps).evidenceUnder name = some value ↔ ∃ before after,
      steps = before ++ .withEvidence name value :: after ∧
        ∀ earlier, .withEvidence name earlier ∉ before := by
  rw [evidenceUnder_build]
  exact firstUnder_given_eq_some_iff Step.evidence?_eq_some_iff steps name value

theorem proofUnder_eq_some_iff (opening : Opening Mechanism) (steps : List Step)
    (name value : Text) :
    (build opening steps).proofUnder name = some value ↔ ∃ before after,
      steps = before ++ .withProof name value :: after ∧
        ∀ earlier, .withProof name earlier ∉ before := by
  rw [proofUnder_build]
  exact firstUnder_given_eq_some_iff Step.proof?_eq_some_iff steps name value

theorem proofUnder_withoutProof (claim : Presented Mechanism) (name : Text) :
    claim.withoutProof.proofUnder name = none := rfl

/-- Noninterference of the proof values; and each lookup of the built claim answers what the first
step of its own kind under that name gave, or nothing where there is no such step. -/
theorem secrets_stay_at_the_gate {Layer : Type} (layerOf : Mechanism → Layer)
    (opening : Opening Mechanism) (steps steps' : List Step)
    (h : List.Forall₂ Step.Alike steps steps') :
    ((build opening steps).value = (build opening steps').value ∧
      (build opening steps).established = (build opening steps').established ∧
      (build opening steps).layer layerOf = (build opening steps').layer layerOf ∧
      (∀ name, (build opening steps).evidenceUnder name = (build opening steps').evidenceUnder name) ∧
      (build opening steps).fmt = (build opening steps').fmt ∧
      (build opening steps).withoutProof = (build opening steps').withoutProof) ∧
    ((∀ name, (build opening steps).withoutProof.proofUnder name = none) ∧
      (build opening steps).withoutProof.mechanism = (build opening steps).mechanism ∧
      (build opening steps).withoutProof.value = (build opening steps).value ∧
      (build opening steps).withoutProof.established = (build opening steps).established ∧
      (build opening steps).withoutProof.evidence = (build opening steps).evidence) ∧
    ∀ name,
      (∀ value, (build opening steps).evidenceUnder name = some value ↔ ∃ before after,
        steps = before ++ .withEvidence name value :: after ∧
          ∀ earlier, .withEvidence name earlier ∉ before) ∧
      ((build opening steps).evidenceUnder name = none ↔
        ∀ value, .withEvidence name value ∉ steps) ∧
      (∀ value, (build opening steps).proofUnder name = some value ↔ ∃ before after,
        steps = before ++ .withProof name value :: after ∧
          ∀ earlier, .withProof name earlier ∉ before) ∧
      ((build opening steps).proofUnder name = none ↔ ∀ value, .withProof name value ∉ steps) := by
  have hAlike : Alike (build opening steps) (build opening steps') := Alike.build opening h
  refine ⟨⟨hAlike.value, hAlike.established, ?_, ?_, hAlike.fmt_eq, hAlike.withoutProof_eq⟩,
    ⟨proofUnder_withoutProof _, rfl, rfl, rfl, rfl⟩, ?_⟩
  · exact congrArg layerOf hAlike.mechanism
  · intro name
    exact congrArg (firstUnder name) hAlike.evidence
  · intro name
    refine ⟨evidenceUnder_eq_some_iff opening steps name, ?_,
      proofUnder_eq_some_iff opening steps name, ?_⟩
    · rw [evidenceUnder_build]
      exact firstUnder_given_eq_none_iff Step.evidence?_eq_some_iff steps name
    · rw [proofUnder_build]
      exact firstUnder_given_eq_none_iff Step.proof?_eq_some_iff steps name

theorem secrets_stay_at_the_gate_basic :
    (build (.passed "username" ['c', '1'] : Opening String)
        [.withEvidence ['s'] ['h'], .withProof ['s'] ['x']]).fmt =
      (build (.passed "username" ['c', '1']) [.withEvidence ['s'] ['h'], .withProof ['s'] ['y']]).fmt :=
  (secrets_stay_at_the_gate String.length (.passed "username" ['c', '1'])
    [.withEvidence ['s'] ['h'], .withProof ['s'] ['x']]
    [.withEvidence ['s'] ['h'], .withProof ['s'] ['y']]
    (.cons (.withEvidence ['s'] ['h']) (.cons (.withProof ['s'] ['x'] ['y']) .nil))).1.2.2.2.2.1

/-- What of a build the record keeps: everything but the proof steps. -/
def recorded (opening : Opening Mechanism) (steps : List Step) :
    Mechanism × Text × Established × List (Text × Text) :=
  (opening.claim.mechanism, opening.claim.value, opening.claim.established,
    steps.filterMap Step.evidence?)

theorem fields_build (opening : Opening Mechanism) (steps : List Step) :
    build opening steps =
      { mechanism := opening.claim.mechanism
        value := opening.claim.value
        established := opening.claim.established
        evidence := steps.filterMap Step.evidence?
        proof := steps.filterMap Step.proof? } := by
  obtain ⟨hMechanism, hValue, hEstablished⟩ := frame_foldl_apply opening.claim steps
  rw [← evidence_build opening, ← proof_build opening, ← hMechanism, ← hValue, ← hEstablished]
  rfl

theorem withoutProof_build_eq_iff (opening opening' : Opening Mechanism) (steps steps' : List Step) :
    (build opening steps).withoutProof = (build opening' steps').withoutProof ↔
      recorded opening steps = recorded opening' steps' := by
  rw [fields_build opening, fields_build opening']
  simp [withoutProof, recorded]

theorem build_eq_iff (opening opening' : Opening Mechanism) (steps steps' : List Step) :
    build opening steps = build opening' steps' ↔
      recorded opening steps = recorded opening' steps' ∧
        steps.filterMap Step.proof? = steps'.filterMap Step.proof? := by
  rw [fields_build opening, fields_build opening']
  simp [recorded, and_assoc]

variable [DecidableEq Mechanism]

/-- `==` answers as the recorded parts do exactly for the builds whose proof steps agree
wherever their recorded parts do. -/
theorem eq_ignores_proof_iff (opening opening' : Opening Mechanism) (steps steps' : List Step) :
    (((build opening steps == build opening' steps') = true ↔
        recorded opening steps = recorded opening' steps') ↔
      (recorded opening steps = recorded opening' steps' →
        steps.filterMap Step.proof? = steps'.filterMap Step.proof?)) ∧
    (((build opening steps == build opening' steps') =
        ((build opening steps).withoutProof == (build opening' steps').withoutProof)) ↔
      (recorded opening steps = recorded opening' steps' →
        steps.filterMap Step.proof? = steps'.filterMap Step.proof?)) ∧
    ((build opening steps == (build opening steps).withoutProof) = true ↔
      steps.filterMap Step.proof? = []) := by
  refine ⟨?_, ?_, ?_⟩
  · rw [beq_iff_eq, build_eq_iff]
    tauto
  · rw [Bool.eq_iff_iff, beq_iff_eq, beq_iff_eq, build_eq_iff, withoutProof_build_eq_iff]
    tauto
  · rw [beq_iff_eq, fields_build opening]
    simp [withoutProof]

theorem eq_compares_proof :
    ¬ ∀ steps steps' : List Step,
      (build (.new "username" ['c', '1'] .passed : Opening String) steps ==
          build (.new "username" ['c', '1'] .passed) steps') =
        ((build (.new "username" ['c', '1'] .passed : Opening String) steps).withoutProof ==
          (build (.new "username" ['c', '1'] .passed) steps').withoutProof) := by
  intro h
  exact absurd (h [.withProof ['b'] ['x']] [.withProof ['b'] ['y']]) (by decide)

end Presented

end XmipIdentify
