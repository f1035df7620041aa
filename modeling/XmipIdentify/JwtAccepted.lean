import XmipIdentify.JwtEncoded

/-!
# What an accepted token says

The signed text fixes the members a token is read to. They are one meaning to
every reader exactly where the values themselves are: the names of the header
and of the claims set are told apart, the names below them are not.
-/

namespace XmipIdentify.Compact

open Str ListCut

set_option autoImplicit false

variable (codec : Codec) (serde : SerdeJson)

theorem signed_text_determines {token : Text} {compact : Compact}
    (h : parse codec serde token = .ok compact) :
    (∃ signature, trim token = compact.signingInput ++ '.' :: signature ∧ '.' ∉ signature ∧
      Jwt.decode codec signature "signature" = .ok compact.signature) ∧
    (∃ header claims, compact.signingInput = header ++ '.' :: claims ∧
      '.' ∉ header ∧ '.' ∉ claims ∧
      Jwt.decodeObject codec serde header "header" = .ok compact.header ∧
      Jwt.decodeObject codec serde claims "claims" = .ok compact.claims) ∧
    ∀ token' compact', parse codec serde token' = .ok compact' →
      compact'.signingInput = compact.signingInput →
      compact'.header = compact.header ∧ compact'.claims = compact.claims := by
  obtain ⟨header, claims, signature, hToken, hHeader, hClaims, hSignature, h1, h2, h3, hInput⟩ :=
    (parse_eq_ok_iff codec serde token compact).mp h
  refine ⟨⟨signature, by rw [hToken, hInput]; simp, hSignature, h3⟩,
    ⟨header, claims, hInput, hHeader, hClaims, h1, h2⟩, ?_⟩
  intro token' compact' h' hSame
  obtain ⟨header', claims', signature', _, hHeader', _, _, h1', h2', _, hInput'⟩ :=
    (parse_eq_ok_iff codec serde token' compact').mp h'
  have hCut : splitOnce '.' (header' ++ '.' :: claims') = some (header, claims) := by
    rw [← hInput', hSame, hInput, splitOnce_append '.' header claims hHeader]
  rw [splitOnce_append '.' header' claims' hHeader'] at hCut
  cases hCut
  exact ⟨Except.ok.inj (h1'.symm.trans h1), Except.ok.inj (h2'.symm.trans h2)⟩

theorem signed_text_determines_sub :
    let header := toUtf8 "\x7b\"alg\":\"none\"\x7d".toList
    let claims := toUtf8 "\x7b\"sub\":\"x\"\x7d".toList
    let serde := SerdeJson.ofTable [(header, [("alg".toList, .string "none".toList)]),
      (claims, [("sub".toList, .string "x".toList)])]
    ∃ compact, parse Codec.rfc4648 serde (Codec.rfc4648.token header claims []) = .ok compact ∧
      ∀ token' compact', parse Codec.rfc4648 serde token' = .ok compact' →
        compact'.signingInput = compact.signingInput →
        compact'.header = compact.header ∧ compact'.claims = compact.claims := by
  intro header claims serde
  have hHeader : serde.Reads header _ := SerdeJson.reads_ofTable rfl
  have hClaims : serde.Reads claims _ := SerdeJson.reads_ofTable rfl
  have hParse := Codec.rfc4648_urlLaws.parse_bare_token serde [] hHeader hClaims
    (by decide) (by decide)
  exact ⟨_, hParse, (signed_text_determines Codec.rfc4648 serde hParse).2.2⟩

/-- The documents in the two parts of a token. -/
def Documents (token : Text) (headerMembers claimsMembers : List (Text × Json)) : Prop :=
  ∃ header claims signature headerBytes claimsBytes,
    (trim token).splitOn '.' = [header, claims, signature] ∧
    Jwt.decode codec header "header" = .ok headerBytes ∧
    Jwt.decode codec claims "claims" = .ok claimsBytes ∧
    serde.Reads headerBytes headerMembers ∧ serde.Reads claimsBytes claimsMembers

variable {codec serde} in
theorem Documents.unique {token : Text} {hm cm hm' cm' : List (Text × Json)}
    (h : Documents codec serde token hm cm) (h' : Documents codec serde token hm' cm') :
    hm = hm' ∧ cm = cm' := by
  obtain ⟨_, _, _, _, _, hSplit, hHeader, hClaims, hReads1, hReads2⟩ := h
  obtain ⟨_, _, _, _, _, hSplit', hHeader', hClaims', hReads1', hReads2'⟩ := h'
  cases hSplit.symm.trans hSplit'
  cases hHeader.symm.trans hHeader'
  cases hClaims.symm.trans hClaims'
  exact ⟨hReads1.unique hReads1', hReads2.unique hReads2'⟩

/-- A reader that keeps the first of repeated names, at every depth, a reader that keeps the
last, and the map all say the same. -/
def OneMeaning (members : List (Text × Json)) (map : Members) : Prop :=
  (Json.object members).firstWins = .object map.entries ∧
    (Json.object members).lastWins = .object map.entries

theorem lastWins_object (members : List (Text × Json)) :
    (Json.object members).lastWins = .object (SerdeJson.enter .empty members).entries := by
  rw [Json.lastWins, Json.read, Json.readMembers_eq_foldl, SerdeJson.enter,
    OrderedMap.entries_insertAll]
  rfl

theorem oneMeaning_enter_iff {members : List (Text × Json)}
    (hNodup : (members.map Prod.fst).Nodup) :
    OneMeaning members (SerdeJson.enter .empty members) ↔
      ∀ member ∈ members, Json.Agree member.2 member.2 := by
  rw [OneMeaning, ← lastWins_object, and_iff_left rfl, Json.firstWins, Json.lastWins, Json.read,
    Json.read, Value.object.injEq, Json.readMembers_eq_iff]
  constructor
  · intro h member hMember
    have hName := h member.1
    rw [SortedEntries.lastOf_eq_lookup hNodup, SortedEntries.lookup_of_mem hNodup hMember,
      Option.map_some, Option.map_some, Option.some.injEq] at hName
    exact (Json.firstWins_eq_lastWins_iff member.2 member.2).mp hName
  · intro h name
    rw [SortedEntries.lastOf_eq_lookup hNodup]
    cases hLookup : members.lookup name with
    | none => rfl
    | some value =>
      have hAgree := h (name, value) (SortedEntries.mem_of_lookup hLookup)
      rw [Option.map_some, Option.map_some, Json.firstWins_eq_lastWins_of_agree hAgree]

/-- The members an accepted token is read to are its documents' members, named once each. -/
theorem documents_of_parse {token : Text} {compact : Compact}
    (h : parse codec serde token = .ok compact) :
    ∃ headerMembers claimsMembers, Documents codec serde token headerMembers claimsMembers ∧
      (headerMembers.map Prod.fst).Nodup ∧ (claimsMembers.map Prod.fst).Nodup ∧
      compact.header = SerdeJson.enter .empty headerMembers ∧
      compact.claims = SerdeJson.enter .empty claimsMembers := by
  obtain ⟨header, claims, signature, hToken, hHeader, hClaims, hSignature, h1, h2, _, _⟩ :=
    (parse_eq_ok_iff codec serde token compact).mp h
  obtain ⟨headerBytes, hHeaderBytes, h1⟩ := (Jwt.decodeObject_eq_ok_iff _ _ _ _ _).mp h1
  obtain ⟨claimsBytes, hClaimsBytes, h2⟩ := (Jwt.decodeObject_eq_ok_iff _ _ _ _ _).mp h2
  obtain ⟨headerMembers, hReads1, hNodup1, hEnter1⟩ := (serde.fromSlice_eq_ok_iff _ _).mp h1
  obtain ⟨claimsMembers, hReads2, hNodup2, hEnter2⟩ := (serde.fromSlice_eq_ok_iff _ _).mp h2
  have hSplit := (splitOn_eq_three_iff '.' (trim token) header claims signature).mpr
    ⟨hToken, hHeader, hClaims, hSignature⟩
  exact ⟨headerMembers, claimsMembers, ⟨header, claims, signature, headerBytes, claimsBytes,
    hSplit, hHeaderBytes, hClaimsBytes, hReads1, hReads2⟩, hNodup1, hNodup2, hEnter1, hEnter2⟩

theorem one_meaning_iff {token : Text} {compact : Compact}
    (h : parse codec serde token = .ok compact) :
    ∃ headerMembers claimsMembers, Documents codec serde token headerMembers claimsMembers ∧
      (OneMeaning headerMembers compact.header ∧ OneMeaning claimsMembers compact.claims ↔
        (∀ member ∈ headerMembers, Json.Agree member.2 member.2) ∧
          ∀ member ∈ claimsMembers, Json.Agree member.2 member.2) := by
  obtain ⟨headerMembers, claimsMembers, hDocuments, hNodup1, hNodup2, hHeader, hClaims⟩ :=
    documents_of_parse codec serde h
  refine ⟨headerMembers, claimsMembers, hDocuments, ?_⟩
  rw [hHeader, hClaims]
  exact and_congr (oneMeaning_enter_iff hNodup1) (oneMeaning_enter_iff hNodup2)

theorem Documents.token {header claims : Bytes} (laws : codec.UrlLaws) (signature : Bytes)
    {hm cm : List (Text × Json)} (hHeader : serde.Reads header hm) (hClaims : serde.Reads claims cm) :
    Documents codec serde (codec.token header claims signature) hm cm :=
  ⟨_, _, _, header, claims, by rw [laws.trim_token]; exact laws.splitOn_token header claims signature,
    laws.decode header _, laws.decode claims _, hHeader, hClaims⟩

theorem one_meaning_iff_audience :
    let header := toUtf8 "\x7b\"alg\":\"none\"\x7d".toList
    let claims := toUtf8 "\x7b\"aud\":[\"a\",\"b\"]\x7d".toList
    let hm : List (Text × Json) := [("alg".toList, .string "none".toList)]
    let cm : List (Text × Json) :=
      [("aud".toList, .array [.string "a".toList, .string "b".toList])]
    let serde := SerdeJson.ofTable [(header, hm), (claims, cm)]
    ∃ compact, parse Codec.rfc4648 serde (Codec.rfc4648.token header claims []) = .ok compact ∧
      OneMeaning hm compact.header ∧ OneMeaning cm compact.claims := by
  intro header claims hm cm serde
  have hHeader : serde.Reads header hm := SerdeJson.reads_ofTable rfl
  have hClaims : serde.Reads claims cm := SerdeJson.reads_ofTable rfl
  have hParse := Codec.rfc4648_urlLaws.parse_bare_token serde [] hHeader hClaims
    (by decide) (by decide)
  obtain ⟨hm', cm', hDocuments, hIff⟩ := one_meaning_iff Codec.rfc4648 serde hParse
  obtain ⟨rfl, rfl⟩ := hDocuments.unique
    (Documents.token Codec.rfc4648 serde Codec.rfc4648_urlLaws [] hHeader hClaims)
  exact ⟨_, hParse, hIff.mpr ⟨Json.agree_self_members hm rfl, Json.agree_self_members cm rfl⟩⟩

/-- A key named twice inside the `cnf` claim: the token is accepted, and the first and the last
reading of its claims differ. -/
theorem nested_names_are_not_told_apart :
    let header := toUtf8 "\x7b\"alg\":\"none\"\x7d".toList
    let claims := toUtf8 "\x7b\"cnf\":\x7b\"kid\":\"a\",\"kid\":\"b\"\x7d\x7d".toList
    let hm : List (Text × Json) := [("alg".toList, .string "none".toList)]
    let cm : List (Text × Json) := [("cnf".toList,
      .object [("kid".toList, .string "a".toList), ("kid".toList, .string "b".toList)])]
    let serde := SerdeJson.ofTable [(header, hm), (claims, cm)]
    let token := Codec.rfc4648.token header claims []
    ∃ compact, parse Codec.rfc4648 serde token = .ok compact ∧
      Documents Codec.rfc4648 serde token hm cm ∧
      (Json.object cm).firstWins ≠ (Json.object cm).lastWins ∧ ¬ OneMeaning cm compact.claims := by
  intro header claims hm cm serde token
  have hHeader : serde.Reads header hm := SerdeJson.reads_ofTable rfl
  have hClaims : serde.Reads claims cm := SerdeJson.reads_ofTable rfl
  have hParse := Codec.rfc4648_urlLaws.parse_bare_token serde [] hHeader hClaims
    (by decide) (by decide)
  have hDiffer : (Json.object cm).firstWins ≠ (Json.object cm).lastWins := by
    intro h
    cases h
  exact ⟨_, hParse, .token Codec.rfc4648 serde Codec.rfc4648_urlLaws [] hHeader hClaims, hDiffer,
    fun h => hDiffer (h.1.trans h.2.symm)⟩

end XmipIdentify.Compact
