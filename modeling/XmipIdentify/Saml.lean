import XmipIdentify.Codec
import XmipIdentify.Principal.User

/-!
# SAML assertions

The rule both gates read a name by. The base64 of a message is decoded with
the whitespace between its lines left out.
-/

namespace XmipIdentify.Saml

open Str

set_option autoImplicit false

def UPN_ATTRIBUTE : Text := "http://schemas.xmlsoap.org/ws/2005/05/identity/claims/upn".toList

def NAMING_FORMATS : List Text :=
  ["urn:oasis:names:tc:SAML:1.1:nameid-format:emailAddress".toList,
    "urn:oasis:names:tc:SAML:1.1:nameid-format:WindowsDomainQualifiedName".toList,
    "urn:oasis:names:tc:SAML:1.1:nameid-format:unspecified".toList]

def decode (codec : Codec) (text : Text) : Except IdentifyError Bytes :=
  match codec.decode (text.filter fun c => !isWhitespace c) with
  | .ok bytes => .ok bytes
  | .error _ => .error (.new "the SAML message is not base64")

def isUpnAttribute (name : Text) : Bool :=
  trim name == UPN_ATTRIBUTE || eqIgnoreAsciiCase (trim name) "upn".toList

def userPrincipal (nameId : Text) (format upnAttribute : Option Text) : Option UserPrincipalName :=
  let naming := format.all fun format => NAMING_FORMATS.contains (trim format)
  (if naming then UserPrincipalName.parse (trim nameId) else none).or
    (upnAttribute.bind fun text => UserPrincipalName.parse (trim text))

theorem decode_eq_ok_iff (codec : Codec) (text : Text) (bytes : Bytes) :
    decode codec text = .ok bytes ↔
      codec.decode (text.filter fun c => !isWhitespace c) = .ok bytes := by
  rw [decode]
  cases codec.decode (text.filter fun c => !isWhitespace c) with
  | ok other => simp
  | error failure => simp

/-- A message is read back wherever its text is broken into lines, by whatever whitespace. -/
theorem decode_lines {codec : Codec} (laws : codec.StandardLaws) {bytes : Bytes}
    {lines : List (Text × Text)} (hText : lines.flatMap Prod.fst = codec.encode bytes)
    (hBreaks : ∀ line ∈ lines, ∀ c ∈ line.2, isWhitespace c = true) :
    decode codec (lines.flatMap fun line => line.1 ++ line.2) = .ok bytes := by
  have hLine : ∀ line ∈ lines, (line.1 ++ line.2).filter (fun c => !isWhitespace c) = line.1 := by
    intro line hMem
    have hFirst : ∀ c ∈ line.1, isWhitespace c = false := by
      intro c hc
      apply laws.spaceless bytes
      rw [← hText]
      exact List.mem_flatMap.mpr ⟨line, hMem, hc⟩
    rw [List.filter_append, List.filter_eq_self.mpr (by simpa using hFirst),
      List.filter_eq_nil_iff.mpr (by simpa using hBreaks line hMem), List.append_nil]
  rw [decode_eq_ok_iff, List.filter_flatMap, List.flatMap_congr hLine, hText]
  exact laws.decode_encode bytes

/-- With any whitespace around it, the claims URI letter for letter or `upn` in any case. -/
theorem isUpnAttribute_iff (name : Text) :
    isUpnAttribute name = true ↔ ∃ u spelling w, name = u ++ (spelling ++ w) ∧
      (∀ c ∈ u, isWhitespace c = true) ∧ (∀ c ∈ w, isWhitespace c = true) ∧
      (spelling = UPN_ATTRIBUTE ∨ toAsciiLowercase spelling = "upn".toList) := by
  have hTest : isUpnAttribute name = true ↔
      trim name = UPN_ATTRIBUTE ∨ toAsciiLowercase (trim name) = "upn".toList := by
    rw [isUpnAttribute, eqIgnoreAsciiCase, Bool.or_eq_true, beq_iff_eq, beq_iff_eq]
    rfl
  rw [hTest]
  constructor
  · intro h
    obtain ⟨u, w, hName, hu, hw⟩ := ListTrim.exists_trim isWhitespace name
    exact ⟨u, trim name, w, hName, hu, hw, h⟩
  · rintro ⟨u, spelling, w, rfl, hu, hw, h⟩
    have hTrimmed : ListTrim.Trimmed isWhitespace spelling := by
      rcases h with rfl | h
      · exact (ListTrim.trim_eq_self_iff isWhitespace _).mp (by decide +kernel)
      · rw [← trimmed_toAsciiLowercase_iff, h]
        exact (ListTrim.trim_eq_self_iff isWhitespace _).mp (by decide)
    rwa [trim_surround hu hw, trim_of_trimmed hTrimmed]

end XmipIdentify.Saml
