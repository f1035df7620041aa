import XmipIdentify.Account
import XmipIdentify.Library.Decimal
import XmipIdentify.Library.Settle
import XmipIdentify.Principal.Kinds
import XmipIdentify.Principal.ServiceCanonical
import XmipIdentify.Principal.ServiceRead

/-!
# Canonical texts settle

A service name's canonical text need not read back as the name. Read and written
again it only loses characters and capitals, so it comes to a text that does, or
to one that is no name. A user's is there at once.
-/

namespace XmipIdentify

open Str ListCut Settle

set_option autoImplicit false

theorem showU16_sublist {digits : Text} {n : UInt16} (h : parseU16 digits = some n) :
    (showU16 n).Sublist digits := by
  obtain ⟨body, hText, hNe, hDigits, hValue⟩ := (parseU16_eq_some_iff digits n).mp h
  have hPlus : body.Sublist digits := by
    rcases hText with rfl | rfl
    · exact List.Sublist.refl _
    · exact List.sublist_cons_self _ _
  obtain ⟨hFits, hPadded⟩ := Decimal.padded_ofDigitChars fun c hc =>
    (isAsciiDigit_iff c).mp (hDigits c hc)
  have hLength : body.length - 1 + 1 = body.length := Nat.sub_add_cancel (List.length_pos_iff.mpr hNe)
  rw [← hLength] at hFits hPadded
  have hSuffix := Decimal.toDigits_isSuffix_padded hFits
  rw [hPadded, hValue] at hSuffix
  exact hSuffix.sublist.trans hPlus

namespace ServicePrincipalName

theorem thinned_lower {text written : Text} (h : text.Sublist written) :
    Thinned charToAsciiLowercase (toAsciiLowercase text) written := .map h

/-- Reading drops and folds, and writing puts nothing back. -/
theorem thinned_fmt {text : Text} {name : ServicePrincipalName} (h : parse text = some name) :
    Thinned charToAsciiLowercase name.fmt text := by
  rw [parse_eq_some_iff, ServiceParts.parse] at h
  obtain ⟨pieces, hCut, hAssemble⟩ := Option.bind_eq_some_iff.mp h
  obtain ⟨realm, hText, _, _, _, hRealm, _⟩ := (cut_eq_some_iff _ pieces).mp hCut
  obtain ⟨host, port, hPort, _, _, hParts⟩ := (assemble_eq_some_iff pieces _).mp hAssemble
  have hTrim (part : Text) : (trim part).Sublist part := ListTrim.trim_sublist isWhitespace part
  have hClass : name.class_ = trim pieces.class_ := congrArg ServiceParts.class_ hParts
  have hHost : name.host = toAsciiLowercase (trimEndMatches '.' host) := congrArg ServiceParts.host hParts
  have hNamePort : name.port = port := congrArg ServiceParts.port hParts
  have hInstance : name.instance_ = (pieces.instance_.map trim).filter nonempty :=
    congrArg ServiceParts.instance_ hParts
  have hNameRealm : name.realm = (pieces.realm.filter nonempty).map toAsciiLowercase :=
    congrArg ServiceParts.realm hParts
  have hDots : (trimEndMatches '.' host).Sublist host := (List.rdropWhile_prefix _ _).sublist
  have hHostPort : Thinned charToAsciiLowercase (name.host ++ portText name.port) pieces.host := by
    rw [hHost, hNamePort]
    refine Thinned.sublist ?_ (hTrim pieces.host)
    rcases cutPort_cases hPort with ⟨rfl, rfl, _⟩ | ⟨digits, n, hWritten, _, hDigits, rfl⟩
    · rw [portText, List.append_nil]
      exact thinned_lower hDots
    · rw [hWritten]
      exact (thinned_lower hDots).append ((Thinned.of_sublist (showU16_sublist hDigits)).cons ':')
  have hSlashed : Thinned charToAsciiLowercase (slashed name.instance_) (slashed pieces.instance_) := by
    rw [hInstance]
    cases pieces.instance_ with
    | none => exact .of_sublist (List.Sublist.refl _)
    | some i =>
      by_cases hNe : nonempty (trim i) = true
      · simpa [slashed, Option.filter, hNe] using (Thinned.of_sublist (hTrim i)).cons '/'
      · simpa [slashed, Option.filter, hNe] using Thinned.of_sublist (List.nil_sublist _)
  have hAttached : Thinned charToAsciiLowercase (attached name.realm) (attached realm) := by
    rw [hNameRealm, hRealm]
    cases realm with
    | none => exact .of_sublist (List.Sublist.refl _)
    | some r =>
      by_cases hNe : nonempty (trim r) = true
      · simpa [attached, Option.filter, hNe] using (thinned_lower (hTrim r)).cons '@'
      · simpa [attached, Option.filter, hNe] using Thinned.of_sublist (List.nil_sublist _)
  have hWritten : Thinned charToAsciiLowercase name.fmt (trim text) := by
    rw [fmt_eq, hText, joinPieces, joinPieces, hClass]
    exact (Thinned.of_sublist (hTrim pieces.class_)).append
      ((hHostPort.append (hSlashed.append hAttached)).cons '/')
  exact hWritten.sublist (hTrim text)

end ServicePrincipalName

namespace PrincipalName

/-- The canonical text of what a text names. -/
def canonical (text : Text) : Option Text := (parse text).map fmt

theorem canonical_eq_some_iff (text written : Text) :
    canonical text = some written ↔ ∃ name, parse text = some name ∧ name.fmt = written :=
  Option.map_eq_some_iff

theorem canonical_user (name : UserPrincipalName) : canonical name.fmt = some name.fmt := by
  rw [canonical, (parse_eq_user_iff name.fmt name).mpr name.parse_fmt]
  rfl

/-- A service's text is no user's, so its canonical text is a service's or none. -/
theorem canonical_service {text : Text} (h : '/' ∈ text) :
    canonical text = (ServicePrincipalName.parse text).map ServicePrincipalName.fmt := by
  rw [canonical, parse_of_mem h, Option.map_map]
  rfl

theorem lighter_of_canonical {text written : Text} (h : '/' ∈ text)
    (hWritten : canonical text = some written) :
    '/' ∈ written ∧ (written = text ∨
      weight charToAsciiLowercase written < weight charToAsciiLowercase text) := by
  rw [canonical_service h] at hWritten
  obtain ⟨name, hName, rfl⟩ := Option.map_eq_some_iff.mp hWritten
  refine ⟨by simp [ServicePrincipalName.fmt], ?_⟩
  exact (ServicePrincipalName.thinned_fmt hName).eq_or_lighter charToAsciiLowercase_idem

/-- Written and read again and again, a text comes to one whose name writes that very text, or to
one that names nobody. -/
theorem canonical_settles (text : Text) :
    ∃ k ≤ 2 * text.length + 1, iterate canonical k text = none ∨
      ∃ final name, iterate canonical k text = some final ∧ parse final = some name ∧
        name.fmt = final := by
  have hSettled : ∃ k ≤ 2 * text.length + 1, Settled canonical k text := by
    by_cases hSlash : '/' ∈ text
    · obtain ⟨k, hk, h⟩ := exists_settled (P := ('/' ∈ ·)) (f := canonical)
        (fun _ _ h hWritten => lighter_of_canonical h hWritten) hSlash
      have hWeight := @weight_le Char charToAsciiLowercase _ text
      exact ⟨k, by omega, h⟩
    · refine ⟨1, by omega, ?_⟩
      cases hCanonical : canonical text with
      | none => exact .inl (by rw [iterate, hCanonical]; rfl)
      | some written =>
        obtain ⟨name, hName, rfl⟩ := (canonical_eq_some_iff text written).mp hCanonical
        rw [parse_of_not_mem hSlash, Option.map_eq_some_iff] at hName
        obtain ⟨user, _, rfl⟩ := hName
        exact Settled.step hCanonical (.inr ⟨_, rfl, canonical_user user⟩)
  obtain ⟨k, hk, hNone | ⟨final, hFinal, hFixed⟩⟩ := hSettled
  · exact ⟨k, hk, .inl hNone⟩
  · obtain ⟨name, hName, hFmt⟩ := (canonical_eq_some_iff final final).mp hFixed
    exact ⟨k, hk, .inr ⟨final, name, hFinal, hName, hFmt⟩⟩

/-- Each dot that goes leaves a space that is trimmed only with the next reading. -/
example : iterate canonical 3 "HTTP/x . .".toList = some "HTTP/x".toList := by decide

end PrincipalName

end XmipIdentify
