import Mathlib.Data.List.Forall2
import XmipIdentify.IdentifyError

/-!
# A claim, and what of it outlives the gate

A claim is built by one of four openings and any interleaving of evidence and
proof steps. Two builds that differ in proof values alone meet in everything
but `proof` and `==`: the derived equality does compare the proofs.
-/

namespace XmipIdentify

open Str

set_option autoImplicit false

inductive Established where
  | passed
  | inferred
  | detected
deriving DecidableEq, Repr

/-- The mechanism is the core crate's type; a claim asks only its layer of it. -/
structure Presented (Mechanism : Type) where
  mechanism : Mechanism
  value : Text
  established : Established
  evidence : List (Text × Text)
  proof : List (Text × Text)
deriving DecidableEq

/-- What `Debug` hands the formatter: the struct's name, its fields, their values. -/
inductive DebugTree (Mechanism : Type) where
  | mechanism (mechanism : Mechanism)
  | established (established : Established)
  | str (text : Text)
  | tuple (items : List (DebugTree Mechanism))
  | list (items : List (DebugTree Mechanism))
  | debugStruct (name : String) (fields : List (String × DebugTree Mechanism))

/-- `find` on the name, then the value: the first one given under it. -/
def firstUnder (name : Text) (pairs : List (Text × Text)) : Option Text :=
  (pairs.find? fun (candidate, _) => candidate == name).map Prod.snd

theorem firstUnder_append (name : Text) (pairs pairs' : List (Text × Text)) :
    firstUnder name (pairs ++ pairs') = (firstUnder name pairs).or (firstUnder name pairs') := by
  rw [firstUnder, firstUnder, firstUnder, List.find?_append, Option.map_or]

theorem firstUnder_cons_self (name value : Text) (pairs : List (Text × Text)) :
    firstUnder name ((name, value) :: pairs) = some value := by
  simp [firstUnder]

theorem firstUnder_cons_ne {name other : Text} (h : other ≠ name) (value : Text)
    (pairs : List (Text × Text)) :
    firstUnder name ((other, value) :: pairs) = firstUnder name pairs := by
  simp [firstUnder, h]

theorem firstUnder_eq_none_iff (name : Text) (pairs : List (Text × Text)) :
    firstUnder name pairs = none ↔ ∀ pair ∈ pairs, pair.1 ≠ name := by
  simp [firstUnder]

namespace Presented

variable {Mechanism : Type}

def new (mechanism : Mechanism) (value : Text) (established : Established) : Presented Mechanism where
  mechanism := mechanism
  value := value
  established := established
  evidence := []
  proof := []

def passed (mechanism : Mechanism) (value : Text) : Presented Mechanism :=
  new mechanism value .passed

def inferred (mechanism : Mechanism) (value : Text) : Presented Mechanism :=
  new mechanism value .inferred

def detected (mechanism : Mechanism) (value : Text) : Presented Mechanism :=
  new mechanism value .detected

def withEvidence (claim : Presented Mechanism) (name value : Text) : Presented Mechanism :=
  { claim with evidence := claim.evidence ++ [(name, value)] }

def withProof (claim : Presented Mechanism) (name value : Text) : Presented Mechanism :=
  { claim with proof := claim.proof ++ [(name, value)] }

def evidenceUnder (claim : Presented Mechanism) (name : Text) : Option Text :=
  firstUnder name claim.evidence

def proofUnder (claim : Presented Mechanism) (name : Text) : Option Text :=
  firstUnder name claim.proof

def withoutProof (claim : Presented Mechanism) : Presented Mechanism :=
  { claim with proof := [] }

def layer {Layer : Type} (layerOf : Mechanism → Layer) (claim : Presented Mechanism) : Layer :=
  layerOf claim.mechanism

/-- The hand-written `Debug`: of a proof, only the names. -/
def fmt (claim : Presented Mechanism) : DebugTree Mechanism :=
  .debugStruct "Presented"
    [("mechanism", .mechanism claim.mechanism),
     ("value", .str claim.value),
     ("established", .established claim.established),
     ("evidence", .list (claim.evidence.map fun (name, value) => .tuple [.str name, .str value])),
     ("proof", .list (claim.proof.map fun (name, _) => .str name))]

/-- The four ways a claim is begun. -/
inductive Opening (Mechanism : Type) where
  | new (mechanism : Mechanism) (value : Text) (established : Established)
  | passed (mechanism : Mechanism) (value : Text)
  | inferred (mechanism : Mechanism) (value : Text)
  | detected (mechanism : Mechanism) (value : Text)

def Opening.claim : Opening Mechanism → Presented Mechanism
  | .new mechanism value established => Presented.new mechanism value established
  | .passed mechanism value => Presented.passed mechanism value
  | .inferred mechanism value => Presented.inferred mechanism value
  | .detected mechanism value => Presented.detected mechanism value

/-- One builder step. -/
inductive Step where
  | withEvidence (name value : Text)
  | withProof (name value : Text)
deriving DecidableEq

def apply (claim : Presented Mechanism) : Step → Presented Mechanism
  | .withEvidence name value => claim.withEvidence name value
  | .withProof name value => claim.withProof name value

/-- The claim an opening and a finite sequence of steps build. -/
def build (opening : Opening Mechanism) (steps : List Step) : Presented Mechanism :=
  steps.foldl apply opening.claim

def Step.evidence? : Step → Option (Text × Text)
  | .withEvidence name value => some (name, value)
  | .withProof _ _ => none

def Step.proof? : Step → Option (Text × Text)
  | .withEvidence _ _ => none
  | .withProof name value => some (name, value)

/-- Two steps that differ at most in the value of a proof. -/
inductive Step.Alike : Step → Step → Prop where
  | withEvidence (name value : Text) : Alike (.withEvidence name value) (.withEvidence name value)
  | withProof (name value value' : Text) : Alike (.withProof name value) (.withProof name value')

/-- What two claims share when only proof values tell them apart. -/
structure Alike (a b : Presented Mechanism) : Prop where
  mechanism : a.mechanism = b.mechanism
  value : a.value = b.value
  established : a.established = b.established
  evidence : a.evidence = b.evidence
  proofNames : a.proof.map Prod.fst = b.proof.map Prod.fst

theorem Alike.refl (claim : Presented Mechanism) : Alike claim claim := ⟨rfl, rfl, rfl, rfl, rfl⟩

theorem Alike.apply {a b : Presented Mechanism} (h : Alike a b) {step step' : Step}
    (hStep : step.Alike step') : Alike (a.apply step) (b.apply step') := by
  cases hStep with
  | withEvidence name value =>
    exact ⟨h.mechanism, h.value, h.established, congrArg (· ++ [(name, value)]) h.evidence,
      h.proofNames⟩
  | withProof name value value' =>
    refine ⟨h.mechanism, h.value, h.established, h.evidence, ?_⟩
    change (a.proof ++ [(name, value)]).map Prod.fst = (b.proof ++ [(name, value')]).map Prod.fst
    rw [List.map_append, List.map_append, h.proofNames]
    rfl

theorem Alike.build (opening : Opening Mechanism) {steps steps' : List Step}
    (h : List.Forall₂ Step.Alike steps steps') :
    Alike (Presented.build opening steps) (Presented.build opening steps') := by
  have hApply : Relator.LiftFun Alike (Relator.LiftFun Step.Alike Alike)
      (@Presented.apply Mechanism) (@Presented.apply Mechanism) :=
    fun _ _ hClaim _ _ hStep => hClaim.apply hStep
  exact List.rel_foldl hApply (Alike.refl opening.claim) h

theorem Alike.fmt_eq {a b : Presented Mechanism} (h : Alike a b) : a.fmt = b.fmt := by
  have hNames (claim : Presented Mechanism) :
      claim.proof.map (fun (name, _) => (DebugTree.str name : DebugTree Mechanism)) =
        (claim.proof.map Prod.fst).map DebugTree.str := by
    rw [List.map_map]
    rfl
  rw [fmt, fmt, hNames, hNames, h.mechanism, h.value, h.established, h.evidence, h.proofNames]

theorem Alike.withoutProof_eq {a b : Presented Mechanism} (h : Alike a b) :
    a.withoutProof = b.withoutProof := by
  rw [withoutProof, withoutProof, h.mechanism, h.value, h.established, h.evidence]

/-- A step adds to one of the two lists and changes nothing else. -/
theorem frame_foldl_apply (claim : Presented Mechanism) (steps : List Step) :
    (steps.foldl apply claim).mechanism = claim.mechanism ∧
      (steps.foldl apply claim).value = claim.value ∧
      (steps.foldl apply claim).established = claim.established := by
  induction steps generalizing claim with
  | nil => exact ⟨rfl, rfl, rfl⟩
  | cons step steps ih =>
    obtain ⟨hMechanism, hValue, hEstablished⟩ := ih (claim.apply step)
    rw [List.foldl_cons, hMechanism, hValue, hEstablished]
    cases step with
    | withEvidence name value => exact ⟨rfl, rfl, rfl⟩
    | withProof name value => exact ⟨rfl, rfl, rfl⟩

theorem evidence_foldl_apply (claim : Presented Mechanism) (steps : List Step) :
    (steps.foldl apply claim).evidence = claim.evidence ++ steps.filterMap Step.evidence? := by
  induction steps generalizing claim with
  | nil => simp
  | cons step steps ih =>
    rw [List.foldl_cons, ih]
    cases step with
    | withEvidence name value => simp [apply, withEvidence, Step.evidence?]
    | withProof name value => simp [apply, withProof, Step.evidence?, List.filterMap_cons]

theorem proof_foldl_apply (claim : Presented Mechanism) (steps : List Step) :
    (steps.foldl apply claim).proof = claim.proof ++ steps.filterMap Step.proof? := by
  induction steps generalizing claim with
  | nil => simp
  | cons step steps ih =>
    rw [List.foldl_cons, ih]
    cases step with
    | withEvidence name value => simp [apply, withEvidence, Step.proof?, List.filterMap_cons]
    | withProof name value => simp [apply, withProof, Step.proof?]

end Presented

end XmipIdentify
