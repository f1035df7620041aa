import XmipIdentify.Library.Gather
import XmipIdentify.Presented

/-!
# The two gates

A transport identifier is given the arrival, a message identifier the Message
that is made after it. Each gate reads every claim its identifiers find, in
their order, and ends at the first of them that fails.
-/

namespace XmipIdentify

open Str Gather

set_option autoImplicit false

/-- Everything readable of a Stream before a Message exists. How it arrives is the core crate's
type. -/
structure StreamArrival (Arriving : Type) where
  arriving : Arriving
  sourceUri : Text
  properties : List (Text × Text)

def StreamArrival.property {Arriving : Type} (arrival : StreamArrival Arriving) (name : Text) :
    Option Text :=
  firstUnder name arrival.properties

structure TransportIdentifier (Arriving Mechanism : Type) where
  mechanism : Mechanism
  identify : StreamArrival Arriving → Except IdentifyError (Option (Presented Mechanism))

structure MessageIdentifier (Message Mechanism : Type) where
  mechanism : Mechanism
  identify : Message → Except IdentifyError (Option (Presented Mechanism))

variable {Arriving Message Mechanism : Type}

def identifyTransport (identifiers : List (TransportIdentifier Arriving Mechanism))
    (arrival : StreamArrival Arriving) : Except IdentifyError (List (Presented Mechanism)) :=
  gather (fun identifier => identifier.identify arrival) [] identifiers

def identifyMessage (identifiers : List (MessageIdentifier Message Mechanism)) (message : Message) :
    Except IdentifyError (List (Presented Mechanism)) :=
  gather (fun identifier => identifier.identify message) [] identifiers

/-- A gate that reads every claim once, whatever the order of those it asks. -/
structure ReadsEveryClaim {Identifier Claim : Type}
    (ask : Identifier → Except IdentifyError (Option Claim))
    (gate : List Identifier → Except IdentifyError (List Claim)) : Prop where
  claims : ∀ identifiers claims, gate identifiers = .ok claims ↔
    ∃ said : List (Option Claim), identifiers.map ask = said.map .ok ∧ claims = said.filterMap id
  succeeds : ∀ identifiers, (∃ claims, gate identifiers = .ok claims) ↔
    ∀ identifier ∈ identifiers, ∃ said, ask identifier = .ok said
  failure : ∀ identifiers error, gate identifiers = .error error ↔
    ∃ before identifier after, identifiers = before ++ identifier :: after ∧
      (∀ earlier ∈ before, ∃ said, ask earlier = .ok said) ∧ ask identifier = .error error
  order : ∀ identifiers identifiers' : List Identifier, identifiers.Perm identifiers' →
    (∃ claims claims', gate identifiers = .ok claims ∧ gate identifiers' = .ok claims' ∧
      claims.Perm claims') ∨
    ∃ error error', gate identifiers = .error error ∧ gate identifiers' = .error error'
  append : ∀ first second claims claims', gate first = .ok claims → gate second = .ok claims' →
    gate (first ++ second) = .ok (claims ++ claims')
  append_error : ∀ first second error, gate first = .error error →
    gate (first ++ second) = .error error

theorem readsEveryClaim_gather {Identifier Claim : Type}
    (ask : Identifier → Except IdentifyError (Option Claim)) :
    ReadsEveryClaim ask (gather ask []) where
  claims identifiers claims := gather_eq_ok_iff ask [] claims identifiers
  succeeds identifiers := gather_succeeds_iff ask [] identifiers
  failure identifiers error := gather_eq_error_iff ask [] identifiers error
  order identifiers identifiers' hPerm := by
    cases hResult : gather ask [] identifiers with
    | ok claims =>
      obtain ⟨claims', hResult', hClaims⟩ := gather_perm ask hPerm hResult
      exact .inl ⟨claims, claims', rfl, hResult', hClaims⟩
    | error error =>
      cases hResult' : gather ask [] identifiers' with
      | ok claims' =>
        obtain ⟨claims, hClaims, _⟩ := gather_perm ask hPerm.symm hResult'
        cases hResult.symm.trans hClaims
      | error error' => exact .inr ⟨error, error', rfl, rfl⟩
  append first second claims claims' hFirst hSecond := by
    rw [gather_append, hFirst]
    change gather ask claims second = _
    rw [gather_eq_map, hSecond]
    rfl
  append_error first second error hFirst := by
    rw [gather_append, hFirst]
    rfl

/-- Both gates, on every arrival and every Message. -/
theorem gates_read_every_claim :
    (∀ arrival : StreamArrival Arriving,
      ReadsEveryClaim (fun identifier : TransportIdentifier Arriving Mechanism =>
        identifier.identify arrival) fun identifiers => identifyTransport identifiers arrival) ∧
    ∀ message : Message,
      ReadsEveryClaim (fun identifier : MessageIdentifier Message Mechanism =>
        identifier.identify message) fun identifiers => identifyMessage identifiers message :=
  ⟨fun _ => readsEveryClaim_gather _, fun _ => readsEveryClaim_gather _⟩

end XmipIdentify
