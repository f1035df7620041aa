import XmipIdentify.Library.Split
import XmipIdentify.Library.Str

/-!
# How a service principal name is cut

The realm comes off at the last `@` unless a `/` follows it, then the name is
cut at its first two `/`. A cut text is exactly the writing of its pieces.
-/

namespace XmipIdentify

open Str ListCut
open ListTrim (Trimmed)

set_option autoImplicit false

/-- What a text is cut into: class, host with port, instance, and the trimmed realm. -/
structure ServicePieces where
  class_ : Text
  host : Text
  instance_ : Option Text
  realm : Option Text
deriving DecidableEq

def cutRealm (text : Text) : Text × Option Text :=
  match rsplitOnce '@' text with
  | some (name, realm) => if realm.contains '/' then (text, none) else (name, some (trim realm))
  | none => (text, none)

def cutName (realm : Option Text) (name : Text) : Option ServicePieces :=
  match splitn '/' 3 name with
  | class_ :: host :: rest => some { class_, host, instance_ := rest.head?, realm }
  | _ => none

def ServicePieces.cut (text : Text) : Option ServicePieces :=
  cutName (cutRealm text).2 (cutRealm text).1

def slashed : Option Text → Text
  | none => []
  | some instance_ => '/' :: instance_

def attached : Option Text → Text
  | none => []
  | some realm => '@' :: realm

theorem cutRealm_cases (text : Text) :
    (cutRealm text = (text, none) ∧ '@' ∉ lastPiece '/' text) ∨
    ∃ name realm, text = name ++ '@' :: realm ∧ '@' ∉ realm ∧ '/' ∉ realm ∧
      cutRealm text = (name, some (trim realm)) := by
  cases hCut : rsplitOnce '@' text with
  | none =>
    left
    have hAt := (rsplitOnce_eq_none_iff '@' text).mp hCut
    exact ⟨by rw [cutRealm, hCut], fun h => hAt (mem_of_mem_lastPiece h)⟩
  | some cut =>
    obtain ⟨name, realm⟩ := cut
    obtain ⟨rfl, hAt⟩ := (rsplitOnce_eq_some_iff '@' text name realm).mp hCut
    by_cases hSlash : '/' ∈ realm
    · left
      obtain ⟨u, w, rfl⟩ := List.append_of_mem hSlash
      have hTail : lastPiece '/' (name ++ '@' :: (u ++ '/' :: w)) = lastPiece '/' w := by
        rw [← List.cons_append, ← List.append_assoc, lastPiece_append]
      refine ⟨by rw [cutRealm, hCut]; simp, ?_⟩
      rw [hTail]
      intro h
      exact hAt (by simp [mem_of_mem_lastPiece h])
    · right
      exact ⟨name, realm, rfl, hAt, hSlash, by rw [cutRealm, hCut]; simp [hSlash]⟩

theorem cutRealm_append {name realm : Text} (hAt : '@' ∉ realm) (hSlash : '/' ∉ realm) :
    cutRealm (name ++ '@' :: realm) = (name, some (trim realm)) := by
  rw [cutRealm, rsplitOnce_append '@' name realm hAt]
  simp [hSlash]

theorem cutRealm_of_not_mem_lastPiece {text : Text} (h : '@' ∉ lastPiece '/' text) :
    cutRealm text = (text, none) := by
  rcases cutRealm_cases text with ⟨hCut, _⟩ | ⟨name, realm, rfl, _, hSlash, _⟩
  · exact hCut
  · refine absurd ?_ h
    rw [lastPiece_append_of_not_mem '/' name ('@' :: realm) (by simp [hSlash])]
    simp

theorem cutName_cases (realm : Option Text) (name : Text) :
    ('/' ∉ name ∧ cutName realm name = none) ∨
    (∃ c h, name = c ++ '/' :: h ∧ '/' ∉ c ∧ '/' ∉ h ∧ cutName realm name = some ⟨c, h, none, realm⟩) ∨
    (∃ c h i, name = c ++ '/' :: (h ++ '/' :: i) ∧ '/' ∉ c ∧ '/' ∉ h ∧
      cutName realm name = some ⟨c, h, some i, realm⟩) := by
  rcases splitn_three_cases '/' name with ⟨hName, hCut⟩ | ⟨c, h, hName, hc, hh, hCut⟩ |
    ⟨c, h, i, hName, hc, hh, hCut⟩
  · exact .inl ⟨hName, by rw [cutName, hCut]⟩
  · exact .inr (.inl ⟨c, h, hName, hc, hh, by rw [cutName, hCut]; rfl⟩)
  · exact .inr (.inr ⟨c, h, i, hName, hc, hh, by rw [cutName, hCut]; rfl⟩)

/-- The text a class, host, instance and realm are cut from. -/
def joinPieces (class_ host : Text) (instance_ realm : Option Text) : Text :=
  class_ ++ '/' :: (host ++ (slashed instance_ ++ attached realm))

theorem cut_joinPieces {c h : Text} {inst realm : Option Text} (hc : '/' ∉ c) (hh : '/' ∉ h)
    (hRealm : ∀ r ∈ realm, '@' ∉ r ∧ '/' ∉ r)
    (hNone : realm = none → '@' ∉ lastPiece '/' (h ++ slashed inst)) :
    ServicePieces.cut (joinPieces c h inst realm) = some ⟨c, h, inst, realm.map trim⟩ := by
  have hName : cutRealm (joinPieces c h inst realm) =
      (c ++ '/' :: (h ++ slashed inst), realm.map trim) := by
    cases realm with
    | none =>
      have hText : joinPieces c h inst none = c ++ '/' :: (h ++ slashed inst) := by
        simp [joinPieces, attached]
      rw [hText, cutRealm_of_not_mem_lastPiece (by rw [lastPiece_append]; exact hNone rfl)]
      rfl
    | some r =>
      have hText : joinPieces c h inst (some r) = (c ++ '/' :: (h ++ slashed inst)) ++ '@' :: r := by
        simp [joinPieces, attached]
      rw [hText, cutRealm_append (hRealm r rfl).1 (hRealm r rfl).2]
      rfl
  rw [ServicePieces.cut, hName, cutName, splitn_append '/' 1 c _ hc]
  cases inst with
  | none =>
    rw [slashed, List.append_nil, splitn_of_not_mem '/' 1 h hh]
    rfl
  | some i =>
    rw [slashed, splitn_append '/' 0 h i hh]
    rfl

/-- Every cut text is the writing of its pieces, and its pieces are what writing admits. -/
theorem cut_eq_some_iff (text : Text) (pieces : ServicePieces) :
    ServicePieces.cut text = some pieces ↔ ∃ realm,
      text = joinPieces pieces.class_ pieces.host pieces.instance_ realm ∧
      '/' ∉ pieces.class_ ∧ '/' ∉ pieces.host ∧ (∀ r ∈ realm, '@' ∉ r ∧ '/' ∉ r) ∧
      pieces.realm = realm.map trim ∧
      (realm = none → '@' ∉ lastPiece '/' (pieces.host ++ slashed pieces.instance_)) := by
  constructor
  · intro h
    rw [ServicePieces.cut] at h
    rcases cutRealm_cases text with ⟨hRealm, hAt⟩ | ⟨name, r, rfl, hAt, hSlash, hRealm⟩
    · rw [hRealm] at h
      refine ⟨none, ?_⟩
      rcases cutName_cases none text with ⟨_, hName⟩ | ⟨c, host, rfl, hc, hHost, hName⟩ |
        ⟨c, host, i, rfl, hc, hHost, hName⟩
      · rw [hName] at h
        cases h
      · cases hName.symm.trans h
        rw [lastPiece_append] at hAt
        exact ⟨by simp [joinPieces, slashed, attached], hc, hHost, by simp, rfl,
          fun _ => by simpa [slashed] using hAt⟩
      · cases hName.symm.trans h
        rw [lastPiece_append] at hAt
        exact ⟨by simp [joinPieces, slashed, attached], hc, hHost, by simp, rfl,
          fun _ => by simpa [slashed] using hAt⟩
    · rw [hRealm] at h
      refine ⟨some r, ?_⟩
      rcases cutName_cases (some (trim r)) name with ⟨_, hName⟩ | ⟨c, host, rfl, hc, hHost, hName⟩ |
        ⟨c, host, i, rfl, hc, hHost, hName⟩
      · rw [hName] at h
        cases h
      · cases hName.symm.trans h
        exact ⟨by simp [joinPieces, slashed, attached], hc, hHost, by simp [hAt, hSlash], rfl, by simp⟩
      · cases hName.symm.trans h
        exact ⟨by simp [joinPieces, slashed, attached], hc, hHost, by simp [hAt, hSlash], rfl, by simp⟩
  · rintro ⟨realm, rfl, hc, hh, hRealm, hEq, hNone⟩
    rw [cut_joinPieces hc hh hRealm hNone, ← hEq]

end XmipIdentify
