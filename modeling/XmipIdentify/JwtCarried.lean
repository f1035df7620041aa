import XmipIdentify.JwtEncoded

/-!
# The shape of a token, decided twice

What is carried has three parts, and what has three readable parts is
carried: the test of the first gate passes over no token the second could
read.
-/

namespace XmipIdentify

open Str ListCut

set_option autoImplicit false

namespace Jwt

theorem isCompact_of_carried {raw token : Text} {scheme : Option Text}
    (h : carried raw scheme = some token) : isCompact token = true := by
  cases scheme with
  | none => exact ((carried_none_eq_some_iff raw token).mp h).2
  | some scheme => exact ((carried_some_eq_some_iff raw scheme token).mp h).2

theorem infix_of_carried {raw token : Text} {scheme : Option Text}
    (h : carried raw scheme = some token) : token <:+: raw := by
  cases scheme with
  | none =>
    obtain ⟨rfl, _⟩ := (carried_none_eq_some_iff raw token).mp h
    exact ListTrim.trim_isInfix _ raw
  | some scheme =>
    obtain ⟨hUnder, _⟩ := (carried_some_eq_some_iff raw scheme token).mp h
    obtain ⟨_, rfl, _⟩ := (Authorization.under_eq_some_iff raw scheme token).mp hUnder
    exact Authorization.scheme_snd_isInfix raw

variable {codec : Codec} {serde : SerdeJson}

/-- A failure to read a part names the part. -/
theorem decode_error {text : Text} {what : String} {error : IdentifyError}
    (h : decode codec text what = .error error) :
    ∃ rest, error.message = "the JWT " ++ (what ++ rest) := by
  rw [decode] at h
  split at h
  · cases h
  · cases h
    exact ⟨" is not base64url", by simp [IdentifyError.new, String.append_assoc, toString]⟩

theorem decodeObject_error {text : Text} {what : String} {error : IdentifyError}
    (h : decodeObject codec serde text what = .error error) :
    ∃ rest, error.message = "the JWT " ++ (what ++ rest) := by
  rw [decodeObject] at h
  split at h
  · rename_i failure hDecode
    cases h
    exact decode_error hDecode
  · split at h
    · cases h
    · rename_i failure _
      cases h
      exact ⟨" is not a JSON object: " ++ serde.display failure,
        by simp [IdentifyError.new, String.append_assoc]⟩

/-- Padding aside, what is decoded is symbols. -/
theorem not_isWhitespace_of_decode (hForeign : codec.RefusesForeign) {text : Text} {what : String}
    {bytes : Bytes} (h : decode codec text what = .ok bytes) :
    ∀ c ∈ text, isWhitespace c = false := by
  intro c hc
  rw [decode_eq_ok_iff] at h
  by_cases hPad : c = '='
  · rw [hPad]
    decide
  · exact not_isWhitespace_of_urlSymbol
      (hForeign _ bytes h c ((mem_trimEndMatches_iff hPad text).mpr hc))

end Jwt

namespace Compact

open Jwt

variable {codec : Codec} {serde : SerdeJson}

theorem parse_error_of_three {token header claims signature : Text} {error : IdentifyError}
    (hSplit : (trim token).splitOn '.' = [header, claims, signature])
    (h : parse codec serde token = .error error) :
    ∃ rest, error.message = "the JWT " ++ rest := by
  simp only [parse, hSplit] at h
  cases hHeader : decodeObject codec serde header "header" with
  | error failure =>
    rw [hHeader] at h
    cases h
    exact ⟨_, (decodeObject_error hHeader).choose_spec⟩
  | ok headerMembers =>
    rw [hHeader, ok_bind] at h
    cases hClaims : decodeObject codec serde claims "claims" with
    | error failure =>
      rw [hClaims] at h
      cases h
      exact ⟨_, (decodeObject_error hClaims).choose_spec⟩
    | ok claimsMembers =>
      rw [hClaims, ok_bind] at h
      cases hSignature : decode codec signature "signature" with
      | error failure =>
        rw [hSignature] at h
        cases h
        exact ⟨_, (decode_error hSignature).choose_spec⟩
      | ok signatureBytes =>
        rw [hSignature] at h
        cases h

/-- What the second gate can read has the shape the first one asks for. -/
theorem isCompact_of_parse (hForeign : codec.RefusesForeign) {token : Text} {compact : Compact}
    (h : parse codec serde token = .ok compact) : isCompact (trim token) = true := by
  obtain ⟨header, claims, signature, hToken, hHeader, hClaims, hSignature, h1, h2, h3, _⟩ :=
    (parse_eq_ok_iff codec serde token compact).mp h
  obtain ⟨headerBytes, h1, _⟩ := (decodeObject_eq_ok_iff _ _ _ _ _).mp h1
  obtain ⟨claimsBytes, h2, _⟩ := (decodeObject_eq_ok_iff _ _ _ _ _).mp h2
  rw [isCompact_iff]
  refine ⟨⟨header, claims, signature, (splitOn_eq_three_iff '.' _ _ _ _).mpr
    ⟨hToken, hHeader, hClaims, hSignature⟩⟩, fun c hc => ?_⟩
  simp only [hToken, List.mem_append, List.mem_cons] at hc
  rcases hc with hc | rfl | hc | rfl | hc
  · exact not_isWhitespace_of_decode hForeign h1 c hc
  · decide
  · exact not_isWhitespace_of_decode hForeign h2 c hc
  · decide
  · exact not_isWhitespace_of_decode hForeign h3 c hc

theorem parse_trim (token : Text) : parse codec serde (trim token) = parse codec serde token := by
  rw [parse, parse, trim_of_trimmed (trimmed_trim token)]

/-- The two gates' tests agree on every value of the header. -/
theorem carried_agrees_with_parse (serde : SerdeJson) (hForeign : codec.RefusesForeign) :
    (∀ (raw : Text) (scheme : Option Text) (token : Text), carried raw scheme = some token →
      (∀ c ∈ token, isWhitespace c = false) ∧ token.count '.' = 2 ∧ token <:+: raw ∧
      parse codec serde token ≠ .error (.new "a JWT has exactly three parts around two dots")) ∧
    ∀ (text : Text) (compact : Compact), parse codec serde text = .ok compact →
      isCompact (trim text) = true ∧ carried text none = some (trim text) ∧
      (∀ scheme w wanted : Text, scheme ≠ [] → (∀ c ∈ scheme, isWhitespace c = false) →
        w ≠ [] → (∀ c ∈ w, isAsciiWhitespace c = true) →
        toAsciiLowercase scheme = toAsciiLowercase wanted →
        carried (scheme ++ (w ++ text)) (some wanted) = some (trim text)) ∧
      parse codec serde (trim text) = .ok compact := by
  constructor
  · intro raw scheme token h
    obtain ⟨⟨header, claims, signature, hSplit⟩, hClean⟩ :=
      (isCompact_iff token).mp (isCompact_of_carried h)
    refine ⟨hClean, ?_, infix_of_carried h, fun hParse => ?_⟩
    · obtain ⟨rfl, hHeader, hClaims, hSignature⟩ := (splitOn_eq_three_iff '.' _ _ _ _).mp hSplit
      simp [List.count_append, List.count_eq_zero_of_not_mem, hHeader, hClaims, hSignature]
    · have hTrim : trim token = token := trim_of_trimmed (.of_forall _ hClean)
      obtain ⟨rest, hMessage⟩ := parse_error_of_three (by rwa [hTrim]) hParse
      have hHead := congrArg (fun message => message.toList.head?) hMessage
      simp [IdentifyError.new] at hHead
  · intro text compact h
    have hCompact := isCompact_of_parse hForeign h
    have hText : trim text ≠ [] := by
      intro hEmpty
      rw [hEmpty] at hCompact
      cases hCompact
    refine ⟨hCompact, (carried_none_eq_some_iff _ _).mpr ⟨rfl, hCompact⟩, ?_,
      (parse_trim text).trans h⟩
    intro scheme w wanted hScheme hSpaceless hw hSpaces hWanted
    rw [carried_some_eq_some_iff]
    exact ⟨@Authorization.under_of_spaced [] scheme w text wanted (by simp) hScheme hSpaceless hw
      hSpaces hText hWanted, hCompact⟩

/-- A no-break space before the token belongs to no scheme and is trimmed all the same. -/
theorem carried_agrees_with_parse_bearer :
    let header := toUtf8 "\x7b\"alg\":\"none\"\x7d".toList
    let claims := toUtf8 "\x7b\"sub\":\"x\"\x7d".toList
    let serde := SerdeJson.ofTable [(header, [("alg".toList, .string "none".toList)]),
      (claims, [("sub".toList, .string "x".toList)])]
    let token := Codec.rfc4648.token header claims []
    carried ("BEARER".toList ++ (['\t', ' '] ++ '\u00a0' :: (token ++ ['\n'])))
      (some "Bearer".toList) = some token ∧
    parse Codec.rfc4648 serde token ≠
      .error (.new "a JWT has exactly three parts around two dots") := by
  intro header claims serde token
  have hHeader : serde.Reads header _ := SerdeJson.reads_ofTable rfl
  have hClaims : serde.Reads claims _ := SerdeJson.reads_ofTable rfl
  have hu : ∀ c ∈ ['\u00a0'], isWhitespace c = true := forall_of_all (by decide)
  have hw : ∀ c ∈ ['\n'], isWhitespace c = true := forall_of_all (by decide)
  have hParse := Codec.rfc4648_urlLaws.parse_token serde [] hHeader hClaims
    (by decide) (by decide) hu hw
  have hTrim : trim (['\u00a0'] ++ (token ++ ['\n'])) = token :=
    (trim_surround hu hw).trans (Codec.rfc4648_urlLaws.trim_token header claims [])
  have h := carried_agrees_with_parse serde Codec.rfc4648_refusesForeign
  have hCarried := (h.2 _ _ hParse).2.2.1 "BEARER".toList ['\t', ' '] "Bearer".toList (by decide)
    (forall_of_all (by decide)) (by decide) (forall_of_all (by decide)) (by decide)
  rw [hTrim] at hCarried
  exact ⟨hCarried, (h.1 _ _ _ hCarried).2.2.2⟩

end Compact

end XmipIdentify
