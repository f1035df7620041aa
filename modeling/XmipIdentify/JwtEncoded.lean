import XmipIdentify.Jwt

/-!
# Tokens as they are written

A token is three encoded parts around two dots. Whatever the parts hold, no
stage on the way to the claims trims, splits or refuses what was written.
-/

namespace XmipIdentify

open Str ListCut
open ListTrim (Trimmed)

set_option autoImplicit false

namespace Codec

/-- `<header>.<claims>`, which is what a signature covers. -/
def signingInput (codec : Codec) (header claims : Bytes) : Text :=
  codec.encodeUrlUnpadded header ++ '.' :: codec.encodeUrlUnpadded claims

def token (codec : Codec) (header claims signature : Bytes) : Text :=
  codec.signingInput header claims ++ '.' :: codec.encodeUrlUnpadded signature

variable {codec : Codec} (laws : codec.UrlLaws)
include laws

theorem UrlLaws.not_mem {c : Char} (hc : urlSymbol c = false) (bytes : Bytes) :
    c ∉ codec.encodeUrlUnpadded bytes := by
  intro hMem
  rw [laws.symbols bytes c hMem] at hc
  cases hc

theorem UrlLaws.decode (bytes : Bytes) (what : String) :
    Jwt.decode codec (codec.encodeUrlUnpadded bytes) what = .ok bytes := by
  rw [Jwt.decode_eq_ok_iff, trimEndMatches_of_not_mem (laws.not_mem (by decide) bytes)]
  exact laws.decode_encode bytes

theorem UrlLaws.splitOn_token (header claims signature : Bytes) :
    (codec.token header claims signature).splitOn '.' =
      [codec.encodeUrlUnpadded header, codec.encodeUrlUnpadded claims,
        codec.encodeUrlUnpadded signature] := by
  have hDot : ∀ bytes, '.' ∉ codec.encodeUrlUnpadded bytes := laws.not_mem (by decide)
  rw [splitOn_eq_three_iff]
  exact ⟨by simp [token, signingInput], hDot header, hDot claims, hDot signature⟩

theorem UrlLaws.not_isWhitespace_token (header claims signature : Bytes) :
    ∀ c ∈ codec.token header claims signature, isWhitespace c = false := by
  have hPart : ∀ bytes, ∀ c ∈ codec.encodeUrlUnpadded bytes, isWhitespace c = false :=
    fun bytes c hc => not_isWhitespace_of_urlSymbol (laws.symbols bytes c hc)
  intro c hc
  simp only [token, signingInput, List.mem_append, List.mem_cons] at hc
  rcases hc with (hc | rfl | hc) | rfl | hc
  · exact hPart header c hc
  · decide
  · exact hPart claims c hc
  · decide
  · exact hPart signature c hc

theorem UrlLaws.trim_token (header claims signature : Bytes) :
    trim (codec.token header claims signature) = codec.token header claims signature :=
  trim_of_trimmed (Trimmed.of_forall _ (laws.not_isWhitespace_token header claims signature))

theorem UrlLaws.isCompact_token (header claims signature : Bytes) :
    Jwt.isCompact (codec.token header claims signature) = true := by
  rw [Jwt.isCompact_iff]
  exact ⟨⟨_, _, _, laws.splitOn_token header claims signature⟩,
    laws.not_isWhitespace_token header claims signature⟩

/-- The parts are what was written, whatever whitespace stands around the token. -/
theorem UrlLaws.parse_token (serde : SerdeJson) {header claims : Bytes} (signature : Bytes)
    {headerMembers claimsMembers : List (Text × Json)}
    (hHeader : serde.Reads header headerMembers) (hClaims : serde.Reads claims claimsMembers)
    (hHeaderNames : (headerMembers.map Prod.fst).Nodup)
    (hClaimsNames : (claimsMembers.map Prod.fst).Nodup) {u w : Text}
    (hu : ∀ c ∈ u, isWhitespace c = true) (hw : ∀ c ∈ w, isWhitespace c = true) :
    Compact.parse codec serde (u ++ (codec.token header claims signature ++ w)) = .ok {
      header := SerdeJson.enter .empty headerMembers
      claims := SerdeJson.enter .empty claimsMembers
      signature
      signingInput := codec.signingInput header claims } := by
  have hTrim : trim (u ++ (codec.token header claims signature ++ w)) =
      codec.token header claims signature := by
    rw [trim_surround hu hw, laws.trim_token]
  have hDot : ∀ bytes, '.' ∉ codec.encodeUrlUnpadded bytes := laws.not_mem (by decide)
  rw [Compact.parse_eq_ok_iff, hTrim]
  refine ⟨codec.encodeUrlUnpadded header, codec.encodeUrlUnpadded claims,
    codec.encodeUrlUnpadded signature, by simp [token, signingInput], hDot header, hDot claims,
    hDot signature, ?_, ?_, laws.decode signature _, rfl⟩
  · exact (Jwt.decodeObject_eq_ok_iff _ _ _ _ _).mpr ⟨header, laws.decode header _,
      (serde.fromSlice_eq_ok_iff header _).mpr ⟨headerMembers, hHeader, hHeaderNames, rfl⟩⟩
  · exact (Jwt.decodeObject_eq_ok_iff _ _ _ _ _).mpr ⟨claims, laws.decode claims _,
      (serde.fromSlice_eq_ok_iff claims _).mpr ⟨claimsMembers, hClaims, hClaimsNames, rfl⟩⟩

theorem UrlLaws.parse_bare_token (serde : SerdeJson) {header claims : Bytes} (signature : Bytes)
    {headerMembers claimsMembers : List (Text × Json)}
    (hHeader : serde.Reads header headerMembers) (hClaims : serde.Reads claims claimsMembers)
    (hHeaderNames : (headerMembers.map Prod.fst).Nodup)
    (hClaimsNames : (claimsMembers.map Prod.fst).Nodup) :
    Compact.parse codec serde (codec.token header claims signature) = .ok {
      header := SerdeJson.enter .empty headerMembers
      claims := SerdeJson.enter .empty claimsMembers
      signature
      signingInput := codec.signingInput header claims } := by
  have hNone : ∀ c ∈ ([] : Text), isWhitespace c = true := by simp
  have h := laws.parse_token serde signature hHeader hClaims hHeaderNames hClaimsNames hNone hNone
  rwa [List.nil_append, List.append_nil] at h

end Codec

theorem Authorization.under_of_clean {scheme wanted token : Text}
    (hScheme : scheme ≠ []) (hSpaceless : ∀ c ∈ scheme, isWhitespace c = false)
    (hToken : token ≠ []) (hClean : ∀ c ∈ token, isWhitespace c = false)
    (hWanted : toAsciiLowercase scheme = toAsciiLowercase wanted) :
    under (scheme ++ ' ' :: token) wanted = some token := by
  have hTrim : trim token = token := trim_of_trimmed (Trimmed.of_forall _ hClean)
  have hSpaces : ∀ c ∈ [' '], isAsciiWhitespace c = true := forall_of_all (by decide)
  have h := @under_of_spaced [] scheme [' '] token wanted (by simp) hScheme hSpaceless
    (List.cons_ne_nil _ _) hSpaces (by rwa [hTrim]) hWanted
  rwa [hTrim] at h

/-- Every token written from two objects with distinct member names and any signature bytes is
read back, is taken for a token, and is carried bare or under its scheme. -/
theorem Compact.written_token_is_read {codec : Codec} (laws : codec.UrlLaws) (serde : SerdeJson)
    {header claims : Bytes} (signature : Bytes) {headerMembers claimsMembers : List (Text × Json)}
    (hHeader : serde.Reads header headerMembers) (hClaims : serde.Reads claims claimsMembers)
    (hHeaderNames : (headerMembers.map Prod.fst).Nodup)
    (hClaimsNames : (claimsMembers.map Prod.fst).Nodup) :
    (∀ u w : Text, (∀ c ∈ u, isWhitespace c = true) → (∀ c ∈ w, isWhitespace c = true) →
      ∃ compact, parse codec serde (u ++ (codec.token header claims signature ++ w)) = .ok compact ∧
        (∀ name, compact.header.get name = (headerMembers.lookup name).map Json.lastWins) ∧
        (∀ name, compact.claims.get name = (claimsMembers.lookup name).map Json.lastWins) ∧
        compact.signature = signature ∧
        compact.signingInput =
          codec.encodeUrlUnpadded header ++ '.' :: codec.encodeUrlUnpadded claims) ∧
    Jwt.isCompact (codec.token header claims signature) = true ∧
    Jwt.carried (codec.token header claims signature) none =
      some (codec.token header claims signature) ∧
    ∀ scheme wanted : Text, scheme ≠ [] → (∀ c ∈ scheme, isWhitespace c = false) →
      toAsciiLowercase scheme = toAsciiLowercase wanted →
      Jwt.carried (scheme ++ ' ' :: codec.token header claims signature) (some wanted) =
        some (codec.token header claims signature) := by
  have hCompact := laws.isCompact_token header claims signature
  refine ⟨?_, hCompact, ?_, ?_⟩
  · intro u w hu hw
    exact ⟨_, laws.parse_token serde signature hHeader hClaims hHeaderNames hClaimsNames hu hw,
      SerdeJson.get_enter hHeaderNames, SerdeJson.get_enter hClaimsNames, rfl, rfl⟩
  · rw [Jwt.carried_none_eq_some_iff]
    exact ⟨laws.trim_token header claims signature, hCompact⟩
  · intro scheme wanted hScheme hSpaceless hWanted
    have hToken : codec.token header claims signature ≠ [] := by
      intro hEmpty
      rw [hEmpty] at hCompact
      cases hCompact
    rw [Jwt.carried_some_eq_some_iff]
    exact ⟨Authorization.under_of_clean hScheme hSpaceless hToken
      (laws.not_isWhitespace_token header claims signature) hWanted, hCompact⟩

/-- A `serde_json` that knows the documents it is given and no others. -/
def SerdeJson.ofTable (documents : List (Bytes × List (Text × Json))) : SerdeJson where
  Error := String
  custom message := message
  display message := message
  fixPosition _ message := message
  access bytes :=
    match documents.lookup bytes with
    | some members => .ok ⟨members.map fun member => (member.1, .ok member.2), .ok ()⟩
    | none => .error "expected value at line 1 column 1"
  printable c := 0x20 ≤ c.toNat && c.toNat ≤ 0x7e

theorem SerdeJson.reads_ofTable {documents : List (Bytes × List (Text × Json))} {bytes : Bytes}
    {members : List (Text × Json)} (h : documents.lookup bytes = some members) :
    (ofTable documents).Reads bytes members := by
  simp only [Reads, ofTable, h]

theorem Compact.written_token_is_read_unsigned :
    let header := toUtf8 "\x7b\"alg\":\"none\"\x7d".toList
    let claims := toUtf8 "\x7b\"sub\":\"party-x\"\x7d".toList
    let serde := SerdeJson.ofTable [(header, [("alg".toList, .string "none".toList)]),
      (claims, [("sub".toList, .string "party-x".toList)])]
    let token := Codec.rfc4648.token header claims []
    (∃ compact, parse Codec.rfc4648 serde (' ' :: (token ++ ['\n'])) = .ok compact ∧
      compact.signature = []) ∧
    Jwt.carried ("Bearer".toList ++ ' ' :: token) (some "bearer".toList) = some token := by
  intro header claims serde token
  have hHeader : serde.Reads header _ := SerdeJson.reads_ofTable rfl
  have hClaims : serde.Reads claims _ := SerdeJson.reads_ofTable rfl
  have h := written_token_is_read Codec.rfc4648_urlLaws serde [] hHeader hClaims
    (by decide) (by decide)
  obtain ⟨compact, hParse, _, _, hSignature, _⟩ := h.1 [' '] ['\n']
    (forall_of_all (by decide)) (forall_of_all (by decide))
  exact ⟨⟨compact, hParse, hSignature⟩,
    h.2.2.2 _ _ (by decide) (forall_of_all (by decide)) (by decide)⟩

end XmipIdentify
