import XmipIdentify.Authorization
import XmipIdentify.Library.Ascii

/-!
# The Basic credential

The first colon ends the user, so a user has none and a password any number.
The trims on the way work on the encoded text, which has no whitespace, and
leave the two alone.
-/

namespace XmipIdentify.Authorization

open Str ListCut
open ListTrim (Trimmed)

set_option autoImplicit false

variable {codec : Codec}

theorem basic_eq_ok_iff (codec : Codec) (credential user password : Text) :
    basic codec credential = .ok (user, password) ↔
      user ≠ [] ∧ ':' ∉ user ∧
        codec.decode (trim credential) = .ok (toUtf8 (user ++ ':' :: password)) := by
  rw [basic]
  cases codec.decode (trim credential) with
  | error failure => simp
  | ok bytes =>
    rw [Except.ok.injEq]
    dsimp only
    cases hText : fromUtf8 bytes with
    | none =>
      refine ⟨(nomatch ·), ?_⟩
      rintro ⟨_, _, rfl⟩
      rw [fromUtf8_toUtf8] at hText
      cases hText
    | some text =>
      obtain rfl := (fromUtf8_eq_some_iff bytes text).mp hText
      dsimp only
      constructor
      · intro h
        split at h
        · cases h
        · rename_i before after hCut
          obtain ⟨rfl, hColon⟩ := (splitOnce_eq_some_iff ':' text before after).mp hCut
          split at h
          · cases h
          · rename_i hUser
            cases h
            exact ⟨fun hEmpty => hUser (List.isEmpty_iff.mpr hEmpty), hColon, rfl⟩
      · rintro ⟨hUser, hColon, hBytes⟩
        have hWhole : text = user ++ ':' :: password := by
          have := congrArg fromUtf8 hBytes
          simpa using this
        rw [hWhole, splitOnce_append ':' user password hColon]
        simp [hUser]

/-- Where the bytes have no colon, or begin with one, there is no user to name. -/
theorem colon_of_basic {credential user password : Text} {bytes : Bytes}
    (h : basic codec credential = .ok (user, password))
    (hBytes : codec.decode (trim credential) = .ok bytes) :
    fromUtf8 bytes ≠ none ∧ asciiByte ':' ∈ bytes ∧ bytes.head? ≠ some (asciiByte ':') := by
  obtain ⟨hUser, hColon, hDecode⟩ := (basic_eq_ok_iff codec credential user password).mp h
  cases hDecode.symm.trans hBytes
  refine ⟨by simp, ?_, fun hHead => ?_⟩
  · rw [asciiByte_mem_toUtf8_iff (by decide)]
    simp
  · obtain ⟨back, hBack⟩ : ∃ back, toUtf8 (user ++ ':' :: password) = [asciiByte ':'] ++ back :=
      ⟨_, (List.cons_head?_tail hHead).symm⟩
    obtain ⟨rest, hText, _⟩ := eq_append_of_toUtf8_eq (forall_of_all (by decide)) hBack
    cases user with
    | nil => exact hUser rfl
    | cons c user =>
      obtain ⟨hHead, _⟩ := List.cons.inj hText
      exact hColon (List.mem_cons.mpr (.inl hHead.symm))

theorem basic_of_encoded (laws : codec.StandardLaws) {user password : Text} (hUser : user ≠ [])
    (hColon : ':' ∉ user) :
    basic codec (codec.encode (toUtf8 (user ++ ':' :: password))) = .ok (user, password) := by
  rw [basic_eq_ok_iff, laws.trim_encode]
  exact ⟨hUser, hColon, laws.decode_encode _⟩

/-- What stands under the scheme is the encoded text, without the whitespace on either side. -/
theorem under_of_encoded (laws : codec.StandardLaws) {bytes : Bytes} (hBytes : bytes ≠ [])
    {spelling wanted u w v : Text} (hName : wanted ≠ [])
    (hSpaceless : ∀ c ∈ wanted, isWhitespace c = false)
    (hSpelling : toAsciiLowercase spelling = toAsciiLowercase wanted)
    (hu : ∀ c ∈ u, isWhitespace c = true) (hw : w ≠ [])
    (hSpaces : ∀ c ∈ w, isAsciiWhitespace c = true) (hv : ∀ c ∈ v, isWhitespace c = true) :
    under (u ++ (spelling ++ (w ++ (codec.encode bytes ++ v)))) wanted =
      some (codec.encode bytes) := by
  have hSpelled : spelling ≠ [] := by
    rintro rfl
    exact hName ((toAsciiLowercase_eq_nil_iff wanted).mp hSpelling.symm)
  have hTrim : trim (codec.encode bytes ++ v) = codec.encode bytes :=
    (@trim_surround [] _ v (by simp) hv).trans (laws.trim_encode bytes)
  have hUnder := under_of_spaced hu hSpelled (not_isWhitespace_of_folded hSpelling hSpaceless) hw
    hSpaces (by rw [hTrim]; exact laws.encode_ne_nil hBytes) hSpelling
  rwa [hTrim] at hUnder

/-- Any spelling of `Basic`, any spaces after it and around the header, and the credential reads
back as it was written; what reads as a credential was written so. -/
theorem basic_reads_back (laws : codec.StandardLaws) :
    (∀ user password spelling u w v : Text, user ≠ [] → ':' ∉ user →
      toAsciiLowercase spelling = toAsciiLowercase "Basic".toList →
      (∀ c ∈ u, isWhitespace c = true) → w ≠ [] → (∀ c ∈ w, isAsciiWhitespace c = true) →
      (∀ c ∈ v, isWhitespace c = true) →
      ∃ credential,
        under (u ++ (spelling ++ (w ++ (codec.encode (toUtf8 (user ++ ':' :: password)) ++ v))))
          "Basic".toList = some credential ∧
        basic codec credential = .ok (user, password)) ∧
    ∀ credential : Text,
      (∀ user password, basic codec credential = .ok (user, password) → user ≠ [] ∧ ':' ∉ user ∧
        codec.decode (trim credential) = .ok (toUtf8 (user ++ ':' :: password))) ∧
      (∀ failure, codec.decode (trim credential) = .error failure →
        ∃ error, basic codec credential = .error error) ∧
      ∀ bytes, codec.decode (trim credential) = .ok bytes →
        (fromUtf8 bytes = none ∨ asciiByte ':' ∉ bytes ∨ bytes.head? = some (asciiByte ':')) →
        ∃ error, basic codec credential = .error error := by
  constructor
  · intro user password spelling u w v hUser hColon hSpelling hu hw hSpaces hv
    have hBytes : toUtf8 (user ++ ':' :: password) ≠ [] := by
      rw [toUtf8_append, toUtf8_cons, utf8EncodeChar_of_ascii (by decide)]
      simp
    exact ⟨_, under_of_encoded laws hBytes (by decide) (forall_of_all (by decide)) hSpelling hu hw
      hSpaces hv, basic_of_encoded laws hUser hColon⟩
  · intro credential
    refine ⟨fun user password => (basic_eq_ok_iff codec credential user password).mp, ?_, ?_⟩
    · intro failure hFailure
      exact ⟨_, by rw [basic, hFailure]⟩
    · intro bytes hBytes hBad
      cases hResult : basic codec credential with
      | error error => exact ⟨error, rfl⟩
      | ok pair =>
        obtain ⟨hUtf8, hMem, hHead⟩ := colon_of_basic hResult hBytes
        rcases hBad with hBad | hBad | hBad
        · exact absurd hBad hUtf8
        · exact absurd hMem hBad
        · exact absurd hBad hHead

theorem basic_reads_back_alice :
    let written := Codec.rfc4648.encode (toUtf8 ("alice".toList ++ ':' :: "pencil: é\n:".toList))
    ∃ credential, under ([' '] ++ ("bASIC".toList ++ (['\t', ' '] ++ (written ++ ['\n']))))
        "Basic".toList = some credential ∧
      basic Codec.rfc4648 credential = .ok ("alice".toList, "pencil: é\n:".toList) :=
  (basic_reads_back Codec.rfc4648_standardLaws).1 "alice".toList "pencil: é\n:".toList
    "bASIC".toList [' '] ['\t', ' '] ['\n'] (by decide) (by decide) (by decide)
    (forall_of_all (by decide)) (by decide) (forall_of_all (by decide)) (forall_of_all (by decide))

end XmipIdentify.Authorization
