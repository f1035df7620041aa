import XmipIdentify.Broker
import XmipIdentify.Library.TwoPasses

/-!
# What a gate lets out

Two gates whose identifiers answer the same but for proof values print and
record the same. A property is kept off the record of every gate that can be
set up when each identifier keeps it off its own; the broker keeps off every
property but the sender fields and the host.
-/

namespace XmipIdentify

open Str Gather

set_option autoImplicit false

variable {Arriving Message Mechanism : Type}

/-- What a gate prints, records and names, whatever it was asked. -/
structure LetsOutTheSame (a b : Except IdentifyError (List (Presented Mechanism))) : Prop where
  printed : a.map (List.map Presented.fmt) = b.map (List.map Presented.fmt)
  recorded : a.map (List.map Presented.withoutProof) = b.map (List.map Presented.withoutProof)
  proofNames : (a.map (List.map fun claim => claim.proof.map Prod.fst)) =
    b.map (List.map fun claim => claim.proof.map Prod.fst)

theorem letsOutTheSame_of_both {a b : Except IdentifyError (List (Presented Mechanism))}
    (h : Both (List.Forall₂ Presented.Alike) a b) : LetsOutTheSame a b := by
  have hShown {δ : Type} {f : Presented Mechanism → δ}
      (hf : ∀ a b : Presented Mechanism, a.Alike b → f a = f b) :
      a.map (List.map f) = b.map (List.map f) :=
    (both_shown_iff f f a b).mp (h.mono fun _ _ hClaims => hClaims.imp hf)
  exact ⟨hShown fun _ _ h => h.fmt_eq, hShown fun _ _ h => h.withoutProof_eq,
    hShown fun _ _ h => h.proofNames⟩

/-- Both gates, over any identifiers, and a record made of their answers or of each answer. -/
theorem gates_let_out_the_same :
    (∀ (identifiers identifiers' : List (TransportIdentifier Arriving Mechanism))
      (arrival arrival' : StreamArrival Arriving),
      List.Forall₂ (fun a b => Reply Presented.Alike (a.identify arrival) (b.identify arrival'))
        identifiers identifiers' →
      LetsOutTheSame (identifyTransport identifiers arrival)
        (identifyTransport identifiers' arrival')) ∧
    (∀ (identifiers identifiers' : List (MessageIdentifier Message Mechanism))
      (message message' : Message),
      List.Forall₂ (fun a b => Reply Presented.Alike (a.identify message) (b.identify message'))
        identifiers identifiers' →
      LetsOutTheSame (identifyMessage identifiers message)
        (identifyMessage identifiers' message')) ∧
    (∀ (identifiers : List (TransportIdentifier Arriving Mechanism))
      (arrival : StreamArrival Arriving),
      gather (fun identifier : TransportIdentifier Arriving Mechanism =>
          (identifier.identify arrival).map (Option.map Presented.withoutProof)) [] identifiers =
        (identifyTransport identifiers arrival).map (List.map Presented.withoutProof)) ∧
    ∀ (identifiers : List (MessageIdentifier Message Mechanism)) (message : Message),
      gather (fun identifier : MessageIdentifier Message Mechanism =>
          (identifier.identify message).map (Option.map Presented.withoutProof)) [] identifiers =
        (identifyMessage identifiers message).map (List.map Presented.withoutProof) := by
  refine ⟨?_, ?_, ?_, ?_⟩
  · intro identifiers identifiers' arrival arrival' h
    exact letsOutTheSame_of_both (gather_both h .nil)
  · intro identifiers identifiers' message message' h
    exact letsOutTheSame_of_both (gather_both h .nil)
  · intro identifiers arrival
    exact gather_map_answers Presented.withoutProof identifiers
  · intro identifiers message
    exact gather_map_answers Presented.withoutProof identifiers

/-- Two passwords at one gate, the other identifier silent. -/
theorem gates_let_out_the_same_password :
    let silent : TransportIdentifier Unit String := ⟨"broker", fun _ => .ok none⟩
    let named (password : Text) : TransportIdentifier Unit String :=
      ⟨"basic", fun _ => .ok (some
        ((Presented.passed "basic" ['c', '1']).withProof ['p'] password))⟩
    let arrival : StreamArrival Unit := ⟨(), [], []⟩
    LetsOutTheSame (identifyTransport [silent, named ['x']] arrival)
      (identifyTransport [silent, named ['y', 'z']] arrival) := by
  intro silent named arrival
  have hNamed : Presented.Alike ((Presented.passed "basic" ['c', '1']).withProof ['p'] ['x'])
      ((Presented.passed "basic" ['c', '1']).withProof ['p'] ['y', 'z']) :=
    (Presented.Alike.refl _).apply (.withProof ['p'] ['x'] ['y', 'z'])
  exact (@gates_let_out_the_same Unit Unit String).1
    [silent, named ['x']] [silent, named ['y', 'z']] arrival arrival
    (.cons (.answered .none) (.cons (.answered (.some hNamed)) .nil))

namespace StreamArrival

/-- Everything but what stands under this name, in the order it stands in. -/
def besides (name : Text) (arrival : StreamArrival Arriving) : StreamArrival Arriving :=
  { arrival with properties := arrival.properties.filter fun (candidate, _) => candidate != name }

theorem property_besides {name other : Text} (h : other ≠ name) (arrival : StreamArrival Arriving) :
    (arrival.besides name).property other = arrival.property other := by
  rw [property, property, firstUnder, firstUnder, besides, List.find?_filter]
  congr 2
  funext pair
  by_cases hOther : pair.1 = other
  · have hName : pair.1 ≠ name := hOther ▸ h
    simp [hOther, h]
  · simp [hOther]

/-- Two arrivals that are one but for a property. -/
def AgreeBut (name : Text) (a b : StreamArrival Arriving) : Prop := a.besides name = b.besides name

theorem AgreeBut.property_eq {name other : Text} {a b : StreamArrival Arriving}
    (h : a.AgreeBut name b) (hOther : other ≠ name) : a.property other = b.property other := by
  rw [← property_besides hOther a, ← property_besides hOther b, h]

end StreamArrival

/-- Two claims of which a record keeps the same. -/
def Presented.SameRecord (a b : Presented Mechanism) : Prop := a.withoutProof = b.withoutProof

/-- Whatever stands under the name, the identifier's answer is one on the record. -/
def TransportIdentifier.KeepsOff (identifier : TransportIdentifier Arriving Mechanism)
    (name : Text) : Prop :=
  ∀ a b : StreamArrival Arriving, a.AgreeBut name b →
    Reply Presented.SameRecord (identifier.identify a) (identifier.identify b)

/-- Whatever stands under the name, the gate's record is one. -/
def GateKeepsOff (gate : List (TransportIdentifier Arriving Mechanism)) (name : Text) : Prop :=
  ∀ a b : StreamArrival Arriving, a.AgreeBut name b →
    (identifyTransport gate a).map (List.map Presented.withoutProof) =
      (identifyTransport gate b).map (List.map Presented.withoutProof)

/-- A setup keeps a property off the record in every gate made of it when each member does. -/
theorem gates_keepOff_iff (identifiers : List (TransportIdentifier Arriving Mechanism))
    (name : Text) :
    (∀ gate : List (TransportIdentifier Arriving Mechanism),
        (∀ identifier ∈ gate, identifier ∈ identifiers) → GateKeepsOff gate name) ↔
      ∀ identifier ∈ identifiers, identifier.KeepsOff name := by
  have hPasses := passes_both_iff (R := Presented.SameRecord) (StreamArrival.AgreeBut name)
    (fun arrival (identifier : TransportIdentifier Arriving Mechanism) =>
      identifier.identify arrival) identifiers
  refine Iff.trans ?_ hPasses
  refine forall_congr' fun gate => imp_congr_right fun _ => ?_
  refine forall_congr' fun a => forall_congr' fun b => imp_congr_right fun _ => ?_
  exact (both_shown_iff Presented.withoutProof Presented.withoutProof _ _).symm

namespace Broker

variable (context : ContextProperty) (broker : Mechanism)

def identifier : TransportIdentifier Arriving Mechanism := ⟨broker, identify context broker⟩

variable {context broker}

/-- A field found before any other decides. -/
theorem identify_of_first {arrival : StreamArrival Arriving} {field text : Text} {rest : List Text}
    (hSenders : context.BROKER_SENDERS = field :: rest) (hText : arrival.property field = some text)
    (hSender : trim text ≠ []) :
    identify context broker arrival = .ok (some (withWord context arrival (withHost context arrival
      ((Presented.detected broker (trim text)).withEvidence field (trim text))))) := by
  have hPresent : present arrival field = some (field, trim text) :=
    (present_eq_some_iff arrival field field (trim text)).mpr ⟨rfl, text, hText, rfl, hSender⟩
  rw [identify, hSenders, List.findSome?_cons, hPresent]

theorem sameRecord_identify {a b : StreamArrival Arriving}
    (hSenders : ∀ field ∈ context.BROKER_SENDERS, a.property field = b.property field)
    (hHost : context.BROKER_SENDERS ≠ [] → a.property context.BROKER = b.property context.BROKER) :
    Reply Presented.SameRecord (identify context broker a) (identify context broker b) := by
  rw [identify, identify, findSome?_present_congr hSenders]
  cases hFound : context.BROKER_SENDERS.findSome? (present b) with
  | none => exact .answered .none
  | some found =>
    have hSome : context.BROKER_SENDERS ≠ [] := by
      intro hNil
      rw [hNil] at hFound
      cases hFound
    refine .answered (.some ?_)
    simp only [Presented.SameRecord, withoutProof_withWord, withHost, hHost hSome]

theorem identify_eq_none_of_reply {a b : StreamArrival Arriving}
    (h : Reply Presented.SameRecord (identify context broker a) (identify context broker b))
    (hNone : identify context broker b = .ok none) : identify context broker a = .ok none := by
  rw [hNone] at h
  generalize identify context broker a = reply at h
  cases h with
  | answered h =>
    cases h
    rfl

/-- Without the one field a sender stands in there is no claim to record. -/
theorem not_mem_senders_of_keepsOff [Inhabited Arriving] {name : Text}
    (h : (identifier context broker : TransportIdentifier Arriving Mechanism).KeepsOff name) :
    name ∉ context.BROKER_SENDERS := by
  intro hName
  let named : StreamArrival Arriving := ⟨default, [], [(name, ['x'])]⟩
  let bare : StreamArrival Arriving := ⟨default, [], []⟩
  have hReply := h named bare (by simp [StreamArrival.AgreeBut, StreamArrival.besides, named, bare])
  have hBare : identify context broker bare = .ok none := by
    apply (identify_eq_none_iff bare).mpr
    intro field _ text hText
    cases hText
  have hBlank := (identify_eq_none_iff named).mp (identify_eq_none_of_reply hReply hBare)
    name hName ['x'] (by simp [StreamArrival.property, firstUnder, named])
  exact absurd hBlank (by decide)

/-- With a sender found, the host is one more piece of evidence or it is not there. -/
theorem senders_eq_nil_of_keepsOff [Inhabited Arriving]
    (h : (identifier context broker : TransportIdentifier Arriving Mechanism).KeepsOff
      context.BROKER) : context.BROKER_SENDERS = [] := by
  by_contra hSome
  obtain ⟨field, rest, hFields⟩ := List.exists_cons_of_ne_nil hSome
  have hField : field ≠ context.BROKER := by
    rintro rfl
    apply not_mem_senders_of_keepsOff h
    rw [hFields]
    exact List.mem_cons_self
  let hosted : StreamArrival Arriving := ⟨default, [], [(field, ['x']), (context.BROKER, ['h'])]⟩
  let bare : StreamArrival Arriving := ⟨default, [], [(field, ['x'])]⟩
  have hReply := h hosted bare (by simp [StreamArrival.AgreeBut, StreamArrival.besides, hosted,
    bare, hField])
  have hHosted : hosted.property field = some ['x'] := by
    simp [StreamArrival.property, firstUnder, hosted]
  have hBare : bare.property field = some ['x'] := by
    simp [StreamArrival.property, firstUnder, bare]
  simp only [identifier, identify_of_first hFields hHosted (by decide),
    identify_of_first hFields hBare (by decide)] at hReply
  cases hReply with
  | answered hClaims =>
    cases hClaims with
    | some hClaims =>
      have hSame := congrArg (fun claim => claim.evidence.length) hClaims
      simp only [withoutProof_withWord] at hSame
      simp [withHost, StreamArrival.property, firstUnder, hosted, bare, hField,
        Presented.withoutProof, Presented.withEvidence, Presented.detected, Presented.new] at hSame

/-- Nothing but the sender fields and the host is seen on the record, and each of them is. -/
theorem keepsOff_iff [Inhabited Arriving] (name : Text) :
    (identifier context broker : TransportIdentifier Arriving Mechanism).KeepsOff name ↔
      name ∉ context.BROKER_SENDERS ∧ (name ≠ context.BROKER ∨ context.BROKER_SENDERS = []) := by
  constructor
  · intro h
    refine ⟨not_mem_senders_of_keepsOff h, or_iff_not_imp_left.mpr fun hName => ?_⟩
    obtain rfl := not_not.mp hName
    exact senders_eq_nil_of_keepsOff h
  · rintro ⟨hSenders, hHost⟩ a b hAgree
    refine sameRecord_identify (fun field hField => ?_) fun hSome => ?_
    · exact hAgree.property_eq (ne_of_mem_of_not_mem hField hSenders)
    · exact hAgree.property_eq (hHost.resolve_right hSome).symm

theorem proof_withHost (arrival : StreamArrival Arriving) (claim : Presented Mechanism) :
    (withHost context arrival claim).proof = claim.proof := by
  rw [withHost]
  split
  · rfl
  · rfl

theorem proof_of_identify {arrival : StreamArrival Arriving} {claim : Presented Mechanism}
    (h : identify context broker arrival = .ok (some claim)) :
    claim.proof = ((arrival.property context.BROKER_VERIFIED).map fun word =>
      (Evidence.BROKER_CONNECTION, trim word)).toList := by
  rw [identify] at h
  split at h
  · cases h
  · rename_i field sender _
    cases h
    rw [withWord]
    cases arrival.property context.BROKER_VERIFIED with
    | none => exact proof_withHost arrival _
    | some word =>
      have hHost := @proof_withHost _ _ context arrival
        ((Presented.detected broker sender).withEvidence field sender)
      exact congrArg (· ++ [(Evidence.BROKER_CONNECTION, trim word)]) hHost

theorem identify_answers (arrival : StreamArrival Arriving) :
    ∃ said, identify context broker arrival = .ok said := by
  rw [identify]
  split
  · exact ⟨_, rfl⟩
  · exact ⟨_, rfl⟩

/-- In a gate the broker adds its claim in its place and fails nothing. What keeps a property off
the record is that it is no sender field, not the host, and kept off by the others; the word of
the transport is the whole proof. -/
theorem broker_in_a_gate [Inhabited Arriving] (context : ContextProperty) (broker : Mechanism) :
    (∀ (before after : List (TransportIdentifier Arriving Mechanism))
      (arrival : StreamArrival Arriving), ∃ said,
      identify context broker arrival = .ok said ∧
        identifyTransport (before ++ identifier context broker :: after) arrival =
          (identifyTransport before arrival).bind fun first =>
            (identifyTransport after arrival).map fun rest => first ++ said.toList ++ rest) ∧
    (∀ (others : List (TransportIdentifier Arriving Mechanism)) (name : Text),
      (∀ gate : List (TransportIdentifier Arriving Mechanism),
        (∀ member ∈ gate, member ∈ identifier context broker :: others) →
          GateKeepsOff gate name) ↔
        (name ∉ context.BROKER_SENDERS ∧
          (name ≠ context.BROKER ∨ context.BROKER_SENDERS = [])) ∧
          ∀ other ∈ others, other.KeepsOff name) ∧
    ∀ (arrival : StreamArrival Arriving) (claim : Presented Mechanism),
      identify context broker arrival = .ok (some claim) →
        claim.proof = ((arrival.property context.BROKER_VERIFIED).map fun word =>
          (Evidence.BROKER_CONNECTION, trim word)).toList := by
  refine ⟨?_, ?_, fun _ _ h => proof_of_identify h⟩
  · intro before after arrival
    obtain ⟨said, hSaid⟩ : ∃ said, identify context broker arrival = .ok said :=
      identify_answers arrival
    refine ⟨said, hSaid, ?_⟩
    rw [identifyTransport, gather_append]
    congr 1
    funext first
    have hAsk : (identifier context broker).identify arrival = .ok said := hSaid
    rw [gather_cons, hAsk]
    exact gather_eq_map _ (first ++ said.toList) after
  · intro others name
    rw [gates_keepOff_iff, List.forall_mem_cons, keepsOff_iff]

end Broker

end XmipIdentify
