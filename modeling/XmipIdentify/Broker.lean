import XmipIdentify.Gates
import XmipIdentify.Library.OrderedMap

/-!
# The sender a broker names

The identifier searches the sender fields in their own order and the
properties of the arrival for each. The transport's word reaches the proof
and nothing the record keeps.
-/

namespace XmipIdentify

open Str

set_option autoImplicit false

namespace Evidence

def BROKER_CONNECTION : Text := "broker.connection".toList

end Evidence

theorem firstUnder_eq_lookup (name : Text) (pairs : List (Text × Text)) :
    firstUnder name pairs = pairs.lookup name := by
  induction pairs with
  | nil => rfl
  | cons pair rest ih =>
    obtain ⟨candidate, value⟩ := pair
    rw [SortedEntries.lookup_cons, ← ih, firstUnder, firstUnder, List.find?_cons]
    by_cases hName : name = candidate
    · simp [hName]
    · have hCandidate : (candidate == name) = false := beq_eq_false_iff_ne.mpr (Ne.symm hName)
      dsimp only
      rw [hCandidate, if_neg hName]

theorem firstUnder_perm {pairs pairs' : List (Text × Text)} (h : (pairs.map Prod.fst).Nodup)
    (hPerm : pairs.Perm pairs') (name : Text) : firstUnder name pairs = firstUnder name pairs' := by
  rw [firstUnder_eq_lookup, firstUnder_eq_lookup, SortedEntries.lookup_perm h hPerm]

/-- The names of `context::property` the identifier reads. Nothing below asks that they differ. -/
structure ContextProperty where
  BROKER_SENDERS : List Text
  BROKER : Text
  BROKER_VERIFIED : Text

namespace Broker

variable {Arriving Mechanism : Type} (context : ContextProperty) (broker : Mechanism)

/-- The sender field a property gives, trimmed; a blank one is not there. -/
def present (arrival : StreamArrival Arriving) (field : Text) : Option (Text × Text) :=
  (((arrival.property field).map trim).filter fun sender => !sender.isEmpty).map
    fun sender => (field, sender)

def withHost (arrival : StreamArrival Arriving) (claim : Presented Mechanism) :
    Presented Mechanism :=
  match (arrival.property context.BROKER).map trim with
  | some host => claim.withEvidence context.BROKER host
  | none => claim

def withWord (arrival : StreamArrival Arriving) (claim : Presented Mechanism) :
    Presented Mechanism :=
  match arrival.property context.BROKER_VERIFIED with
  | some word => claim.withProof Evidence.BROKER_CONNECTION (trim word)
  | none => claim

def identify (arrival : StreamArrival Arriving) :
    Except IdentifyError (Option (Presented Mechanism)) :=
  match context.BROKER_SENDERS.findSome? (present arrival) with
  | none => .ok none
  | some (field, sender) =>
    .ok (some (withWord context arrival (withHost context arrival
      ((Presented.detected broker sender).withEvidence field sender))))

/-- No value, or nothing but whitespace. -/
def Blank (value : Option Text) : Prop := ∀ text ∈ value, trim text = []

theorem present_eq_none_iff (arrival : StreamArrival Arriving) (field : Text) :
    present arrival field = none ↔ Blank (arrival.property field) := by
  rw [present]
  cases arrival.property field with
  | none => simp [Blank]
  | some text => simp [Blank, Option.filter]

theorem present_eq_some_iff (arrival : StreamArrival Arriving) (field name sender : Text) :
    present arrival field = some (name, sender) ↔
      name = field ∧ ∃ text, arrival.property field = some text ∧ trim text = sender ∧
        sender ≠ [] := by
  rw [present]
  cases arrival.property field with
  | none => simp
  | some text =>
    simp only [Option.map_some, Option.map_eq_some_iff, Option.filter_eq_some_iff,
      Option.some.injEq, Bool.not_eq_true', List.isEmpty_eq_false_iff, Prod.mk.injEq]
    constructor
    · rintro ⟨_, ⟨rfl, hText⟩, rfl, rfl⟩
      exact ⟨rfl, text, rfl, rfl, hText⟩
    · rintro ⟨rfl, _, rfl, rfl, hText⟩
      exact ⟨_, ⟨rfl, hText⟩, rfl, rfl⟩

@[simp] theorem withoutProof_withWord (arrival : StreamArrival Arriving)
    (claim : Presented Mechanism) :
    (withWord context arrival claim).withoutProof = claim.withoutProof := by
  rw [withWord]
  split
  · rfl
  · rfl

@[simp] theorem value_withWord (arrival : StreamArrival Arriving) (claim : Presented Mechanism) :
    (withWord context arrival claim).value = claim.value := by
  rw [withWord]
  split
  · rfl
  · rfl

@[simp] theorem value_withHost (arrival : StreamArrival Arriving) (claim : Presented Mechanism) :
    (withHost context arrival claim).value = claim.value := by
  rw [withHost]
  split
  · rfl
  · rfl

variable {context broker}

theorem identify_eq_none_iff (arrival : StreamArrival Arriving) :
    identify context broker arrival = .ok none ↔
      ∀ field ∈ context.BROKER_SENDERS, Blank (arrival.property field) := by
  simp only [← present_eq_none_iff, ← List.findSome?_eq_none_iff]
  rw [identify]
  cases context.BROKER_SENDERS.findSome? (present arrival) with
  | none => simp
  | some found => simp

/-- The claim is the first sender field that is not blank. -/
theorem value_of_identify {arrival : StreamArrival Arriving} {claim : Presented Mechanism}
    (h : identify context broker arrival = .ok (some claim)) :
    ∃ before field after text, context.BROKER_SENDERS = before ++ field :: after ∧
      (∀ earlier ∈ before, Blank (arrival.property earlier)) ∧
      arrival.property field = some text ∧ trim text ≠ [] ∧ claim.value = trim text := by
  rw [identify] at h
  split at h
  · cases h
  · rename_i name sender hFound
    obtain ⟨before, field, after, hSenders, hField, hBefore⟩ :=
      List.findSome?_eq_some_iff.mp hFound
    obtain ⟨_, text, hText, rfl, hBlank⟩ := (present_eq_some_iff arrival field name sender).mp hField
    cases h
    refine ⟨before, field, after, text, hSenders, fun earlier hEarlier => ?_, hText, hBlank, ?_⟩
    · exact (present_eq_none_iff arrival earlier).mp (hBefore earlier hEarlier)
    · simp [Presented.detected, Presented.new, Presented.withEvidence]

theorem findSome?_present_congr {fields : List Text} {a b : StreamArrival Arriving}
    (h : ∀ field ∈ fields, a.property field = b.property field) :
    fields.findSome? (present a) = fields.findSome? (present b) := by
  induction fields with
  | nil => rfl
  | cons field rest ih =>
    obtain ⟨hField, hRest⟩ := List.forall_mem_cons.mp h
    have hPresent : present a field = present b field := by rw [present, present, hField]
    rw [List.findSome?_cons, List.findSome?_cons, hPresent, ih hRest]

/-- What is recorded follows from the sender fields and the host. The order in which properties
with distinct names stand is not seen at all. -/
theorem identify_reads_senders_and_host (context : ContextProperty) (broker : Mechanism) :
    (∀ a b : StreamArrival Arriving, a.property context.BROKER = b.property context.BROKER →
      (∀ field ∈ context.BROKER_SENDERS, a.property field = b.property field) →
      ∃ said said', identify context broker a = .ok said ∧ identify context broker b = .ok said' ∧
        said.map Presented.withoutProof = said'.map Presented.withoutProof) ∧
    (∀ a b : StreamArrival Arriving, (a.properties.map Prod.fst).Nodup →
      a.properties.Perm b.properties → identify context broker a = identify context broker b) ∧
    ∀ arrival : StreamArrival Arriving,
      (identify context broker arrival = .ok none ↔
        ∀ field ∈ context.BROKER_SENDERS, Blank (arrival.property field)) ∧
      ∀ claim, identify context broker arrival = .ok (some claim) →
        ∃ before field after text, context.BROKER_SENDERS = before ++ field :: after ∧
          (∀ earlier ∈ before, Blank (arrival.property earlier)) ∧
          arrival.property field = some text ∧ trim text ≠ [] ∧ claim.value = trim text := by
  refine ⟨?_, ?_, fun arrival => ⟨identify_eq_none_iff arrival, fun _ h => value_of_identify h⟩⟩
  · intro a b hHost hSenders
    rw [identify, identify, findSome?_present_congr hSenders]
    cases context.BROKER_SENDERS.findSome? (present b) with
    | none => exact ⟨none, none, rfl, rfl, rfl⟩
    | some found =>
      refine ⟨_, _, rfl, rfl, ?_⟩
      simp [withHost, hHost]
  · intro a b hNodup hPerm
    have hProperty (name : Text) : a.property name = b.property name :=
      firstUnder_perm hNodup hPerm name
    rw [identify, identify, findSome?_present_congr fun field _ => hProperty field]
    simp only [withHost, withWord, hProperty]

/-- The transport's word tells the two claims apart until the proof is left behind. -/
theorem identify_reads_senders_and_host_word :
    let context : ContextProperty :=
      ⟨["user-id".toList, "SenderId".toList], "broker".toList, "broker.verified".toList⟩
    let vouched : StreamArrival Bool := ⟨true, "https://queue/1#m".toList,
      [("SenderId".toList, " AIDAEXAMPLE".toList), ("user-id".toList, " ".toList),
        ("broker".toList, "sqs.example".toList), ("broker.verified".toList, "handshake".toList)]⟩
    let bare : StreamArrival Bool := ⟨false, [],
      [("broker".toList, "sqs.example".toList), ("user-id".toList, " ".toList),
        ("SenderId".toList, " AIDAEXAMPLE".toList)]⟩
    identify context () vouched ≠ identify context () bare ∧
      ∃ said said', identify context () vouched = .ok said ∧ identify context () bare = .ok said' ∧
        said.map Presented.withoutProof = said'.map Presented.withoutProof := by
  intro context vouched bare
  exact ⟨by decide, (identify_reads_senders_and_host context ()).1 vouched bare (by decide)
    (forall_of_all (by decide))⟩

end Broker

end XmipIdentify
