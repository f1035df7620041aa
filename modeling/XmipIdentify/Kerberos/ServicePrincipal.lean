import XmipIdentify.Library.Split
import XmipIdentify.Kerberos.TicketRead

/-!
# What the claim tells of a ticket's service

The components and the realm are written as the ticket has them. The claim tells
two tickets apart as far as their own separators let it: a `/` in a component
and an `@` in a realm are not told from the ones that `written` puts there.
-/

namespace XmipIdentify.Kerberos

open Str ListCut

set_option autoImplicit false

/-- The two hold equally many separators, the realms and the components in the same place. -/
structure Ticket.SeparatorsAgree (ticket ticket' : Ticket) : Prop where
  realm : ticket.realm.count '@' = ticket'.realm.count '@'
  service : ∀ pair ∈ ticket.service.zip ticket'.service, pair.1.count '/' = pair.2.count '/'

/-- The separators are all `written`'s own. -/
structure Ticket.Unseparated (ticket : Ticket) : Prop where
  realm : '@' ∉ ticket.realm
  service : ∀ component ∈ ticket.service, '/' ∉ component

theorem written_inj_of_count {components components' : List Text} {realm realm' : Text}
    (hComponents : components ≠ []) (hComponents' : components' ≠ [])
    (hRealm : realm.count '@' = realm'.count '@')
    (hCount : ∀ pair ∈ components.zip components', pair.1.count '/' = pair.2.count '/')
    (h : written components realm = written components' realm') :
    components = components' ∧ realm = realm' := by
  obtain ⟨hJoined, hSame⟩ := append_cons_inj_of_count h hRealm
  exact ⟨intercalate_inj_of_count hComponents hComponents' hCount hJoined, hSame⟩

theorem Ticket.SeparatorsAgree.of_unseparated {ticket ticket' : Ticket} (h : ticket.Unseparated)
    (h' : ticket'.Unseparated) : ticket.SeparatorsAgree ticket' where
  realm := by rw [List.count_eq_zero.mpr h.realm, List.count_eq_zero.mpr h'.realm]
  service pair hPair := by
    obtain ⟨hLeft, hRight⟩ := List.of_mem_zip hPair
    rw [List.count_eq_zero.mpr (h.service _ hLeft), List.count_eq_zero.mpr (h'.service _ hRight)]

theorem Ticket.SeparatorsAgree.of_eq {ticket ticket' : Ticket}
    (hService : ticket.service = ticket'.service) (hRealm : ticket.realm = ticket'.realm) :
    ticket.SeparatorsAgree ticket' where
  realm := by rw [hRealm]
  service pair hPair := by
    rw [hService, List.zip, List.zipWith_self] at hPair
    obtain ⟨component, _, rfl⟩ := List.mem_map.mp hPair
    rfl

theorem service_ne_nil_of_parse {asn1 : Asn1} {message : Bytes} {ticket : Ticket}
    (h : Ticket.parse asn1 message = .ok ticket) : ticket.service ≠ [] := by
  obtain ⟨_, _, hReads⟩ := (parse_eq_ok_iff message ticket).mp h
  exact hReads.service_ne_nil

/-- Tickets of one claim are for one service exactly where their separators agree; where none holds
a separator of its own, they do. -/
theorem one_claim_one_service_iff {asn1 : Asn1} {message message' : Bytes} {ticket ticket' : Ticket}
    (h : Ticket.parse asn1 message = .ok ticket) (h' : Ticket.parse asn1 message' = .ok ticket')
    (hClaim : ticket.servicePrincipal = ticket'.servicePrincipal) :
    (ticket.service = ticket'.service ∧ ticket.realm = ticket'.realm ↔
      ticket.SeparatorsAgree ticket') ∧
    (ticket.Unseparated → ticket'.Unseparated →
      ticket.service = ticket'.service ∧ ticket.realm = ticket'.realm) := by
  have hDetermined (hAgree : ticket.SeparatorsAgree ticket') :
      ticket.service = ticket'.service ∧ ticket.realm = ticket'.realm :=
    written_inj_of_count (service_ne_nil_of_parse h) (service_ne_nil_of_parse h') hAgree.realm
      hAgree.service hClaim
  refine ⟨⟨?_, hDetermined⟩, ?_⟩
  · rintro ⟨hService, hRealm⟩
    exact .of_eq hService hRealm
  · intro hTicket hTicket'
    exact hDetermined (.of_unseparated hTicket hTicket')

theorem one_claim_one_service_iff_http :
    ((Fixture.ticket ["HTTP".toList, "xmip.example".toList] "REALM".toList [1]).service =
        (Fixture.ticket ["HTTP".toList, "xmip.example".toList] "REALM".toList [2]).service ∧
      (Fixture.ticket ["HTTP".toList, "xmip.example".toList] "REALM".toList [1]).realm =
        (Fixture.ticket ["HTTP".toList, "xmip.example".toList] "REALM".toList [2]).realm) :=
  (one_claim_one_service_iff (parse_apReq Asn1.der_laws [1] (by simp) (by simp))
    (parse_apReq Asn1.der_laws [2] (by simp) (by simp)) rfl).2
    ⟨by decide, by decide⟩ ⟨by decide, by decide⟩

/-- One component `a/b`, and the components `a` and `b`. -/
theorem one_claim_two_services :
    Ticket.parse Asn1.der (Fixture.apReq Asn1.der ["a/b".toList] "R".toList []) =
        .ok (Fixture.ticket ["a/b".toList] "R".toList []) ∧
      Ticket.parse Asn1.der (Fixture.apReq Asn1.der ["a".toList, "b".toList] "R".toList []) =
        .ok (Fixture.ticket ["a".toList, "b".toList] "R".toList []) ∧
      (Fixture.ticket ["a/b".toList] "R".toList []).servicePrincipal =
        (Fixture.ticket ["a".toList, "b".toList] "R".toList []).servicePrincipal ∧
      (Fixture.ticket ["a/b".toList] "R".toList []).service ≠
        (Fixture.ticket ["a".toList, "b".toList] "R".toList []).service :=
  ⟨parse_apReq Asn1.der_laws [] (by simp) (by simp),
    parse_apReq Asn1.der_laws [] (by simp) (by simp), by decide, by decide⟩

end XmipIdentify.Kerberos
