import XmipIdentify.JwtAccepted
import XmipIdentify.Library.FirstFault

/-!
# Why a token is refused

The parts of a token are read in their order, and the members of an object in
theirs. A refusal names the part its first fault is in and says what that fault
is: a name that is there already, before the value after it is even looked at.
-/

namespace XmipIdentify

open Str ListCut FirstFault

set_option autoImplicit false

namespace SerdeJson

variable (serde : SerdeJson)

/-- Members read without a fault, as the visitor is given them. -/
def offered (read : List (Text × Json)) : List (Text × Except serde.Error Json) :=
  read.map fun member => (member.1, .ok member.2)

def repeated (name : Text) : serde.Error :=
  serde.custom ("the member " ++ String.ofList (debug serde.printable name) ++ " appears twice")

/-- Where the reading of an object stops, and with which failure. -/
inductive Stops (access : MapAccess serde.Error) : serde.Error → Prop where
  | name {read rest : List _} {name : Text} {value : Except serde.Error Json}
      (entries : access.entries = serde.offered read ++ (name, value) :: rest)
      (nodup : (read.map Prod.fst).Nodup) (seen : name ∈ read.map Prod.fst) :
      Stops access (serde.repeated name)
  | value {read rest : List _} {name : Text} {failure : serde.Error}
      (entries : access.entries = serde.offered read ++ (name, .error failure) :: rest)
      (nodup : (read.map Prod.fst).Nodup) (unseen : name ∉ read.map Prod.fst) :
      Stops access failure
  | finish {read : List _} {failure : serde.Error} (entries : access.entries = serde.offered read)
      (nodup : (read.map Prod.fst).Nodup) (finish : access.finish = .error failure) :
      Stops access failure

/-- One turn of the loop. -/
def visitMember (members : Members) (entry : Text × Except serde.Error Json) :
    Except serde.Error Members :=
  if members.containsKey entry.1 then .error (serde.repeated entry.1)
  else entry.2.map fun value => members.insert entry.1 value.lastWins

theorem visitMap_eq_foldlM (finish : Except serde.Error Unit) (members : Members)
    (entries : List (Text × Except serde.Error Json)) :
    serde.visitMap finish members entries =
      entries.foldlM serde.visitMember members >>= fun result => finish.map fun _ => result := by
  induction entries generalizing members with
  | nil => rfl
  | cons entry rest ih =>
    obtain ⟨name, value⟩ := entry
    rw [visitMap.eq_def, List.foldlM_cons, visitMember]
    dsimp only
    split
    · rfl
    · cases value with
      | error failure => rfl
      | ok value => exact ih _

theorem foldlM_visitMember_eq_ok_iff (entries : List (Text × Except serde.Error Json))
    (result : Members) :
    entries.foldlM serde.visitMember .empty = .ok result ↔
      ∃ read, entries = serde.offered read ∧ (read.map Prod.fst).Nodup ∧
        result = enter .empty read := by
  have hVisit := serde.visitMap_eq_ok_iff (.ok ()) .empty result entries
  rw [visitMap_eq_foldlM, bind_eq_ok_iff] at hVisit
  constructor
  · intro h
    obtain ⟨read, hEntries, _, hNodup, _, hResult⟩ := hVisit.mp ⟨result, h, rfl⟩
    exact ⟨read, hEntries, hNodup, hResult⟩
  · rintro ⟨read, hEntries, hNodup, hResult⟩
    obtain ⟨_, h, hSame⟩ := hVisit.mpr ⟨read, hEntries, rfl, hNodup, fun _ _ => rfl, hResult⟩
    cases hSame
    exact h

theorem containsKey_enter_iff {read : List (Text × Json)} (h : (read.map Prod.fst).Nodup)
    (name : Text) : (enter .empty read).containsKey name = true ↔ name ∈ read.map Prod.fst := by
  rw [OrderedMap.containsKey, get_enter h, Option.isSome_map, Option.isSome_iff_ne_none]
  constructor
  · intro hSome
    by_contra hName
    exact hSome (SortedEntries.lookup_eq_none_of_not_mem hName)
  · intro hName hNone
    obtain ⟨member, hMember, rfl⟩ := List.mem_map.mp hName
    rw [SortedEntries.lookup_of_mem h hMember] at hNone
    cases hNone

/-- A turn fails over the name or, where that is new, over the value. -/
theorem visitMember_eq_error_iff {read : List (Text × Json)} (h : (read.map Prod.fst).Nodup)
    (name : Text) (value : Except serde.Error Json) (failure : serde.Error) :
    serde.visitMember (enter .empty read) (name, value) = .error failure ↔
      (name ∈ read.map Prod.fst ∧ failure = serde.repeated name) ∨
        (name ∉ read.map Prod.fst ∧ value = .error failure) := by
  rw [visitMember, ← containsKey_enter_iff h name]
  split
  · rename_i hSeen
    simp [hSeen, eq_comm]
  · rename_i hUnseen
    cases value with
    | error other => simp [hUnseen, Except.map]
    | ok value => simp [hUnseen, Except.map]

theorem visitMap_eq_error_iff (access : MapAccess serde.Error) (failure : serde.Error) :
    serde.visitMap access.finish .empty access.entries = .error failure ↔
      serde.Stops access failure := by
  rw [visitMap_eq_foldlM, FirstFault.bind_eq_error_iff, foldlM_eq_error_iff]
  simp only [foldlM_visitMember_eq_ok_iff]
  constructor
  · rintro (⟨_, ⟨name, value⟩, rest, _, hEntries, ⟨read, rfl, hNodup, rfl⟩, hFailure⟩ |
      ⟨_, ⟨read, hEntries, hNodup, rfl⟩, hFinish⟩)
    · rcases (serde.visitMember_eq_error_iff hNodup name value failure).mp hFailure with
        ⟨hSeen, rfl⟩ | ⟨hUnseen, rfl⟩
      · exact .name hEntries hNodup hSeen
      · exact .value hEntries hNodup hUnseen
    · cases hEnd : access.finish with
      | error other =>
        rw [hEnd] at hFinish
        cases hFinish
        exact .finish hEntries hNodup hEnd
      | ok u =>
        rw [hEnd] at hFinish
        cases hFinish
  · intro h
    cases h with
    | name entries nodup seen =>
      exact .inl ⟨_, _, _, _, entries, ⟨_, rfl, nodup, rfl⟩,
        (serde.visitMember_eq_error_iff nodup _ _ _).mpr (.inl ⟨seen, rfl⟩)⟩
    | value entries nodup unseen =>
      exact .inl ⟨_, _, _, _, entries, ⟨_, rfl, nodup, rfl⟩,
        (serde.visitMember_eq_error_iff nodup _ _ _).mpr (.inr ⟨unseen, rfl⟩)⟩
    | finish entries nodup finish =>
      refine .inr ⟨_, ⟨_, entries, nodup, rfl⟩, ?_⟩
      rw [finish]
      rfl

end SerdeJson

namespace Compact

open Jwt

variable (codec : Codec) (serde : SerdeJson)

/-- Why a part is no object, in the words of the refusal. -/
inductive PartRefused (text : Text) (what : String) : IdentifyError → Prop where
  | encoding (foreign : ∀ bytes, codec.decodeUrl (trimEndMatches '=' text) ≠ .ok bytes) :
      PartRefused text what (.new s!"the JWT {what} is not base64url")
  | noObject {bytes : Bytes} {failure : serde.Error}
      (decoded : codec.decodeUrl (trimEndMatches '=' text) = .ok bytes)
      (failed : serde.access bytes = .error failure) :
      PartRefused text what
        (.new ("the JWT " ++ what ++ " is not a JSON object: " ++ serde.display failure))
  | stopped {bytes : Bytes} {access : MapAccess serde.Error} {failure : serde.Error}
      (decoded : codec.decodeUrl (trimEndMatches '=' text) = .ok bytes)
      (opened : serde.access bytes = .ok access) (stops : serde.Stops access failure) :
      PartRefused text what (.new ("the JWT " ++ what ++ " is not a JSON object: " ++
        serde.display (serde.fixPosition bytes failure)))

theorem decode_eq_error_iff (text : Text) (what : String) (error : IdentifyError) :
    decode codec text what = .error error ↔
      (∀ bytes, codec.decodeUrl (trimEndMatches '=' text) ≠ .ok bytes) ∧
        error = .new s!"the JWT {what} is not base64url" := by
  rw [decode]
  cases codec.decodeUrl (trimEndMatches '=' text) with
  | error failure => simp [eq_comm]
  | ok bytes => simp

theorem fromSlice_eq_error_iff (bytes : Bytes) (failure : serde.Error) :
    serde.fromSlice bytes = .error failure ↔
      serde.access bytes = .error failure ∨ ∃ access stop, serde.access bytes = .ok access ∧
        serde.Stops access stop ∧ failure = serde.fixPosition bytes stop := by
  rw [SerdeJson.fromSlice]
  cases serde.access bytes with
  | error other => simp
  | ok access =>
    dsimp only
    rw [mapError_eq_error_iff]
    simp [serde.visitMap_eq_error_iff access]

theorem decodeObject_eq_error_iff (text : Text) (what : String) (error : IdentifyError) :
    decodeObject codec serde text what = .error error ↔
      PartRefused codec serde text what error := by
  rw [decodeObject]
  constructor
  · intro h
    split at h
    · rename_i failure hDecode
      obtain ⟨hForeign, rfl⟩ := (decode_eq_error_iff codec text what failure).mp hDecode
      cases h
      exact .encoding hForeign
    · rename_i bytes hDecode
      have hBytes := (decode_eq_ok_iff codec text what bytes).mp hDecode
      split at h
      · cases h
      · rename_i failure hRead
        cases h
        rcases (fromSlice_eq_error_iff serde bytes failure).mp hRead with
          hFailed | ⟨access, stop, hOpened, hStops, rfl⟩
        · exact .noObject hBytes hFailed
        · exact .stopped hBytes hOpened hStops
  · intro h
    cases h with
    | encoding foreign => rw [(decode_eq_error_iff codec text what _).mpr ⟨foreign, rfl⟩]
    | @noObject bytes failure decoded failed =>
      have hRead := (fromSlice_eq_error_iff serde bytes failure).mpr (.inl failed)
      rw [(decode_eq_ok_iff codec text what bytes).mpr decoded]
      dsimp only
      rw [hRead]
    | @stopped bytes access failure decoded opened stops =>
      have hRead := (fromSlice_eq_error_iff serde bytes _).mpr
        (.inr ⟨access, failure, opened, stops, rfl⟩)
      rw [(decode_eq_ok_iff codec text what bytes).mpr decoded]
      dsimp only
      rw [hRead]

/-- Why a token is refused: for the first of its parts that is at fault, or for their number. -/
inductive Refused (token : Text) : IdentifyError → Prop where
  | parts (count : ((trim token).splitOn '.').length ≠ 3) :
      Refused token (.new "a JWT has exactly three parts around two dots")
  | header {header claims signature : Text} {error : IdentifyError}
      (split : (trim token).splitOn '.' = [header, claims, signature])
      (refused : PartRefused codec serde header "header" error) : Refused token error
  | claims {header claims signature : Text} {error : IdentifyError}
      (split : (trim token).splitOn '.' = [header, claims, signature])
      (headerRead : ∀ error, ¬PartRefused codec serde header "header" error)
      (refused : PartRefused codec serde claims "claims" error) : Refused token error
  | signature {header claims signature : Text}
      (split : (trim token).splitOn '.' = [header, claims, signature])
      (headerRead : ∀ error, ¬PartRefused codec serde header "header" error)
      (claimsRead : ∀ error, ¬PartRefused codec serde claims "claims" error)
      (foreign : ∀ bytes, codec.decodeUrl (trimEndMatches '=' signature) ≠ .ok bytes) :
      Refused token (.new "the JWT signature is not base64url")

theorem exists_decodeObject_iff (text : Text) (what : String) :
    (∃ members, decodeObject codec serde text what = .ok members) ↔
      ∀ error, ¬PartRefused codec serde text what error := by
  simp only [← decodeObject_eq_error_iff]
  cases decodeObject codec serde text what with
  | error failure => simp
  | ok members => simp

theorem refused_iff (token : Text) (error : IdentifyError) :
    parse codec serde token = .error error ↔ Refused codec serde token error := by
  constructor
  · intro h
    rw [parse] at h
    split at h
    · rename_i header claims signature hSplit
      rcases (FirstFault.bind_eq_error_iff _ _ _).mp h with hHeader | ⟨headerMembers, hHeader, h⟩
      · exact .header hSplit ((decodeObject_eq_error_iff codec serde _ _ _).mp hHeader)
      have hHeaderRead := (exists_decodeObject_iff codec serde _ _).mp ⟨_, hHeader⟩
      rcases (FirstFault.bind_eq_error_iff _ _ _).mp h with hClaims | ⟨claimsMembers, hClaims, h⟩
      · exact .claims hSplit hHeaderRead ((decodeObject_eq_error_iff codec serde _ _ _).mp hClaims)
      have hClaimsRead := (exists_decodeObject_iff codec serde _ _).mp ⟨_, hClaims⟩
      rcases (FirstFault.bind_eq_error_iff _ _ _).mp h with hSignature | ⟨_, _, h⟩
      · obtain ⟨hForeign, rfl⟩ := (decode_eq_error_iff codec _ _ _).mp hSignature
        exact .signature hSplit hHeaderRead hClaimsRead hForeign
      · cases h
    · rename_i hSplit
      cases h
      refine .parts fun hCount => ?_
      obtain ⟨header, claims, signature, hParts⟩ := List.length_eq_three.mp hCount
      exact hSplit header claims signature hParts
  · intro h
    cases h with
    | parts count =>
      rw [parse]
      split
      · rename_i hSplit
        rw [hSplit] at count
        exact absurd rfl count
      · rfl
    | header split refused =>
      rw [parse, split]
      dsimp only
      rw [(decodeObject_eq_error_iff codec serde _ _ _).mpr refused]
      rfl
    | claims split headerRead refused =>
      obtain ⟨_, hHeader⟩ := (exists_decodeObject_iff codec serde _ _).mpr headerRead
      rw [parse, split]
      dsimp only
      rw [hHeader, (decodeObject_eq_error_iff codec serde _ _ _).mpr refused]
      rfl
    | signature split headerRead claimsRead foreign =>
      obtain ⟨_, hHeader⟩ := (exists_decodeObject_iff codec serde _ _).mpr headerRead
      obtain ⟨_, hClaims⟩ := (exists_decodeObject_iff codec serde _ _).mpr claimsRead
      rw [parse, split]
      dsimp only
      rw [hHeader, hClaims, (decode_eq_error_iff codec _ _ _).mpr ⟨foreign, rfl⟩]
      rfl

/-- A token is refused for its first fault and in the words for it, and accepted where it has
none. A repeated name in the header is said to be one whatever follows it. -/
theorem refused_for_the_first_fault (token : Text) :
    (∀ error, parse codec serde token = .error error ↔ Refused codec serde token error) ∧
    ((∃ compact, parse codec serde token = .ok compact) ↔
      ∀ error, ¬Refused codec serde token error) ∧
    ∀ (header claims signature : Text) (bytes : Bytes) (access : MapAccess serde.Error)
      (read : List (Text × Json)) (name : Text) (value : Except serde.Error Json) (rest : List _),
      (trim token).splitOn '.' = [header, claims, signature] →
      codec.decodeUrl (trimEndMatches '=' header) = .ok bytes → serde.access bytes = .ok access →
      access.entries = serde.offered read ++ (name, value) :: rest →
      (read.map Prod.fst).Nodup → name ∈ read.map Prod.fst →
      parse codec serde token = .error (.new ("the JWT header is not a JSON object: " ++
        serde.display (serde.fixPosition bytes (serde.repeated name)))) := by
  refine ⟨refused_iff codec serde token, ?_, ?_⟩
  · simp only [← refused_iff]
    cases parse codec serde token with
    | error failure => simp
    | ok compact => simp
  · intro header claims signature bytes access read name value rest hSplit hBytes hAccess hEntries
      hNodup hSeen
    exact (refused_iff codec serde token _).mpr
      (.header hSplit (.stopped hBytes hAccess (.name hEntries hNodup hSeen)))

/-- The header repeats a name, and the claims are no text at all. -/
theorem refused_for_the_first_fault_alg :
    let header := toUtf8 "\x7b\"alg\":\"none\",\"alg\":null\x7d".toList
    let serde := SerdeJson.ofTable [(header, [("alg".toList, .string "none".toList),
      ("alg".toList, .null)])]
    parse Codec.rfc4648 serde (Codec.rfc4648.encodeUrlUnpadded header ++ "..".toList) =
      .error (.new "the JWT header is not a JSON object: the member \"alg\" appears twice") := by
  intro header serde
  exact (refused_for_the_first_fault Codec.rfc4648 serde _).2.2
    (Codec.rfc4648.encodeUrlUnpadded header) [] [] header _
    [("alg".toList, .string "none".toList)] "alg".toList (.ok .null) []
    (by decide) (by decide) rfl rfl (by decide) (by decide)

end Compact

end XmipIdentify
