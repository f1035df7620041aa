import XmipIdentify.JwtAccepted

/-!
# Member names are told apart

The map grows by one name for each member read, and a name it has already
stops the reading. A part of a token that carries such an object is refused
wherever the repeat stands.
-/

namespace XmipIdentify.Compact

open Str ListCut

set_option autoImplicit false

variable (codec : Codec) (serde : SerdeJson)

/-- The header or the claims part of the token is the text of this object. -/
def Carries (token : Text) (members : List (Text × Json)) : Prop :=
  ∃ header claims signature bytes,
    (trim token).splitOn '.' = [header, claims, signature] ∧
    (Jwt.decode codec header "header" = .ok bytes ∨ Jwt.decode codec claims "claims" = .ok bytes) ∧
    serde.Reads bytes members

variable {codec serde} in
theorem Documents.carries {token : Text} {headerMembers claimsMembers : List (Text × Json)}
    (h : Documents codec serde token headerMembers claimsMembers) :
    Carries codec serde token headerMembers ∧ Carries codec serde token claimsMembers := by
  obtain ⟨header, claims, signature, headerBytes, claimsBytes, hSplit, hHeader, hClaims, hReads1,
    hReads2⟩ := h
  exact ⟨⟨header, claims, signature, headerBytes, hSplit, .inl hHeader, hReads1⟩,
    ⟨header, claims, signature, claimsBytes, hSplit, .inr hClaims, hReads2⟩⟩

variable {codec serde} in
/-- What an accepted token carries names each member once. -/
theorem Carries.nodup {token : Text} {members : List (Text × Json)} {compact : Compact}
    (h : Carries codec serde token members) (hParse : parse codec serde token = .ok compact) :
    (members.map Prod.fst).Nodup := by
  obtain ⟨headerMembers, claimsMembers, hDocuments, hNodup1, hNodup2, _, _⟩ :=
    documents_of_parse codec serde hParse
  obtain ⟨_, _, _, _, _, hSplit, hHeader, hClaims, hReads1, hReads2⟩ := hDocuments
  obtain ⟨_, _, _, bytes, hSplit', hBytes, hReads⟩ := h
  cases hSplit.symm.trans hSplit'
  rcases hBytes with hBytes | hBytes
  · cases hHeader.symm.trans hBytes
    rwa [hReads.unique hReads1]
  · cases hClaims.symm.trans hBytes
    rwa [hReads.unique hReads2]

theorem not_nodup_of_positions {members : List (Text × Json)} {i j : Nat} {name : Text} {v w : Json}
    (hij : i ≠ j) (hi : members[i]? = some (name, v)) (hj : members[j]? = some (name, w)) :
    ¬(members.map Prod.fst).Nodup := by
  intro hNodup
  have hi' : (members.map Prod.fst)[i]? = some name := by rw [List.getElem?_map, hi]; rfl
  have hj' : (members.map Prod.fst)[j]? = some name := by rw [List.getElem?_map, hj]; rfl
  obtain ⟨hLength, _⟩ := List.getElem?_eq_some_iff.mp hi'
  exact hij ((List.getElem?_inj hLength hNodup).mp (hi'.trans hj'.symm))

/-- The visitor takes a sequence of members exactly when their names are distinct and then loses
none of them; a name at two places refuses the token. -/
theorem member_names_are_told_apart (members : List (Text × Json)) :
    let entries := members.map fun member => (member.1, Except.ok member.2)
    ((∃ result, serde.visitMap (.ok ()) .empty entries = .ok result) ↔
      (members.map Prod.fst).Nodup) ∧
    (∀ result, serde.visitMap (.ok ()) .empty entries = .ok result →
      (∀ member ∈ members, result.get member.1 = some member.2.lastWins) ∧
      ∀ name, name ∉ members.map Prod.fst → result.get name = none) ∧
    ∀ (i j : Nat) (name : Text) (v w : Json), i ≠ j → members[i]? = some (name, v) →
      members[j]? = some (name, w) → ∀ token, Carries codec serde token members →
        ∃ error, parse codec serde token = .error error := by
  intro entries
  have hVisit (result : Members) : serde.visitMap (.ok ()) .empty entries = .ok result ↔
      (members.map Prod.fst).Nodup ∧ result = SerdeJson.enter .empty members :=
    serde.visitMap_members_eq_ok_iff members result
  refine ⟨?_, ?_, ?_⟩
  · constructor
    · rintro ⟨result, hResult⟩
      exact ((hVisit result).mp hResult).1
    · intro hNodup
      exact ⟨_, (hVisit _).mpr ⟨hNodup, rfl⟩⟩
  · intro result hResult
    obtain ⟨hNodup, rfl⟩ := (hVisit result).mp hResult
    constructor
    · intro member hMember
      rw [SerdeJson.get_enter hNodup, SortedEntries.lookup_of_mem hNodup hMember]
      rfl
    · intro name hName
      rw [SerdeJson.get_enter hNodup, SortedEntries.lookup_eq_none_of_not_mem hName]
      rfl
  · intro i j name v w hij hi hj token hCarries
    cases hParse : parse codec serde token with
    | error error => exact ⟨error, rfl⟩
    | ok compact => exact absurd (hCarries.nodup hParse) (not_nodup_of_positions hij hi hj)

/-- The second `sub` is behind an escape, and another member stands between the two. -/
theorem member_names_are_told_apart_escaped :
    let header := toUtf8 "\x7b\"alg\":\"none\"\x7d".toList
    let claims := toUtf8 "\x7b\"sub\":\"x\",\"iss\":\"i\",\"\\u0073ub\":\"x\"\x7d".toList
    let cm : List (Text × Json) := [("sub".toList, .string "x".toList),
      ("iss".toList, .string "i".toList), ("sub".toList, .string "x".toList)]
    let serde := SerdeJson.ofTable [(header, [("alg".toList, .string "none".toList)]), (claims, cm)]
    ∃ error, parse Codec.rfc4648 serde (Codec.rfc4648.token header claims []) = .error error := by
  intro header claims cm serde
  have hHeader : serde.Reads header _ := SerdeJson.reads_ofTable rfl
  have hClaims : serde.Reads claims cm := SerdeJson.reads_ofTable rfl
  have hDocuments := Documents.token Codec.rfc4648 serde Codec.rfc4648_urlLaws [] hHeader hClaims
  exact (member_names_are_told_apart Codec.rfc4648 serde cm).2.2 0 2 _ _ _ (by decide) rfl rfl _
    hDocuments.carries.2

end XmipIdentify.Compact
