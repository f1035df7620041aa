import XmipIdentify.Codec
import XmipIdentify.Library.Split
import XmipIdentify.Library.Transducer

/-!
# The `Authorization` header

The scheme split, the Basic credential, and the parameter list. The list is
read by one pass over its characters with the comma the source appends; the
pass is a transducer whose state is the source's three variables.
-/

namespace XmipIdentify.Authorization

open Str ListCut
open ListTrim (Trimmed)

set_option autoImplicit false

def BEARER_SHORT_FORM : Nat := 8

def scheme (value : Text) : Text × Text :=
  match splitOnceBy isAsciiWhitespace (trim value) with
  | none => (trim value, [])
  | some (scheme, rest) => (scheme, trim rest)

def under (value wanted : Text) : Option Text :=
  if eqIgnoreAsciiCase (scheme value).1 wanted && !(scheme value).2.isEmpty then some (scheme value).2
  else none

theorem under_eq_some_iff (value wanted rest : Text) :
    under value wanted = some rest ↔
      toAsciiLowercase (scheme value).1 = toAsciiLowercase wanted ∧ (scheme value).2 = rest ∧
        rest ≠ [] := by
  rw [under]
  split
  · rename_i h
    simp only [Bool.and_eq_true, eqIgnoreAsciiCase, beq_iff_eq, Bool.not_eq_true',
      List.isEmpty_eq_false_iff] at h
    rw [Option.some.injEq]
    constructor
    · rintro rfl
      exact ⟨h.1, rfl, h.2⟩
    · exact fun hRest => hRest.2.1
  · rename_i h
    refine ⟨(nomatch ·), ?_⟩
    rintro ⟨hWanted, rfl, hRest⟩
    exact absurd (by simp [eqIgnoreAsciiCase, hWanted, hRest]) h

theorem scheme_snd_isInfix (value : Text) : (scheme value).2 <:+: value := by
  rw [scheme]
  split
  · exact ⟨[], value, rfl⟩
  · rename_i before rest hCut
    obtain ⟨c, _, hTrim, _⟩ := (splitOnceBy_eq_some_iff _ _ before rest).mp hCut
    have hRest : rest <:+: trim value := ⟨before ++ [c], [], by simp [hTrim]⟩
    exact (ListTrim.trim_isInfix _ rest).trans (hRest.trans (ListTrim.trim_isInfix _ value))

/-- The scheme ends at the first space after it, and what follows is trimmed once more. -/
theorem scheme_of_spaced {u name w text : Text} (hu : ∀ c ∈ u, isWhitespace c = true)
    (hName : name ≠ []) (hSpaceless : ∀ c ∈ name, isWhitespace c = false)
    (hw : w ≠ []) (hSpaces : ∀ c ∈ w, isAsciiWhitespace c = true) (hText : trim text ≠ []) :
    scheme (u ++ (name ++ (w ++ text))) = (name, trim text) := by
  obtain ⟨v, z, hCut, hv, hz⟩ := ListTrim.exists_trim isWhitespace text
  obtain ⟨space, w, rfl⟩ := List.exists_cons_of_ne_nil hw
  have hTrimmed : Trimmed isWhitespace (name ++ ((space :: w ++ v) ++ trim text)) :=
    (Trimmed.of_forall _ hSpaceless).append _ (trimmed_trim text) hName hText _
  have hTrim : trim (u ++ (name ++ (space :: w ++ text))) =
      name ++ ((space :: w ++ v) ++ trim text) := by
    calc trim (u ++ (name ++ (space :: w ++ text)))
      _ = trim (u ++ ((name ++ ((space :: w ++ v) ++ trim text)) ++ z)) := by
        conv_lhs => rw [hCut]
        simp only [List.append_assoc]
      _ = trim (name ++ ((space :: w ++ v) ++ trim text)) := trim_surround hu hz
      _ = name ++ ((space :: w ++ v) ++ trim text) := trim_of_trimmed hTrimmed
  have hFirst : splitOnceBy isAsciiWhitespace (name ++ ((space :: w ++ v) ++ trim text)) =
      some (name, (w ++ v) ++ trim text) := by
    rw [splitOnceBy_eq_some_iff]
    refine ⟨space, hSpaces space List.mem_cons_self, rfl, fun c hc => ?_⟩
    rw [Bool.eq_false_iff]
    intro hAscii
    exact Bool.false_ne_true
      ((hSpaceless c hc).symm.trans (isWhitespace_of_isAsciiWhitespace hAscii))
  have hBetween : ∀ c ∈ w ++ v, isWhitespace c = true := by
    intro c hc
    rcases List.mem_append.mp hc with hc | hc
    · exact isWhitespace_of_isAsciiWhitespace (hSpaces c (List.mem_cons_of_mem _ hc))
    · exact hv c hc
  rw [scheme, hTrim, hFirst]
  dsimp only
  rw [trim_append_of_whitespace hBetween, trim_of_trimmed (trimmed_trim text)]

theorem under_of_spaced {u name w text wanted : Text} (hu : ∀ c ∈ u, isWhitespace c = true)
    (hName : name ≠ []) (hSpaceless : ∀ c ∈ name, isWhitespace c = false)
    (hw : w ≠ []) (hSpaces : ∀ c ∈ w, isAsciiWhitespace c = true) (hText : trim text ≠ [])
    (hWanted : toAsciiLowercase name = toAsciiLowercase wanted) :
    under (u ++ (name ++ (w ++ text))) wanted = some (trim text) := by
  rw [under_eq_some_iff, scheme_of_spaced hu hName hSpaceless hw hSpaces hText]
  exact ⟨hWanted, rfl, hText⟩

def basic (codec : Codec) (credential : Text) : Except IdentifyError (Text × Text) :=
  match codec.decode (trim credential) with
  | .error _ => .error (.new "the Basic credential is not base64")
  | .ok decoded =>
    match fromUtf8 decoded with
    | none => .error (.new "the Basic credential is not UTF-8")
    | some text =>
      match splitOnce ':' text with
      | none => .error (.new "the Basic credential has no colon between user and password")
      | some (user, password) =>
        if user.isEmpty then .error (.new "the Basic credential names no user")
        else .ok (user, password)

def bearerShort (token : Text) : Text := token.take BEARER_SHORT_FORM ++ ['…']

/-- The variables of the loop in `parameters`. -/
structure Scan where
  current : Text
  quoted : Bool
  escaped : Bool
deriving DecidableEq

/-- The pair pushed at a comma outside quotes, where what was read has a `=`. -/
def pushed (current : Text) : List (Text × Text) :=
  match splitOnce '=' current with
  | none => []
  | some (name, value) => [(toAsciiLowercase (trim name), trim value)]

def Scan.step (scan : Scan) (character : Char) : Scan × List (Text × Text) :=
  if scan.escaped then
    ({ scan with current := scan.current ++ [character], escaped := false }, [])
  else if scan.quoted && character == '\\' then
    ({ scan with escaped := true }, [])
  else if character == '"' then
    ({ scan with quoted := !scan.quoted }, [])
  else if character == ',' && !scan.quoted then
    ({ scan with current := [] }, pushed scan.current)
  else
    ({ scan with current := scan.current ++ [character] }, [])

def scanner : Transducer Scan Char (Text × Text) := ⟨Scan.step⟩

def Scan.start : Scan := ⟨[], false, false⟩

def parameters (list : Text) : List (Text × Text) := scanner.output .start (list ++ [','])

def parameter (list name : Text) : Option Text :=
  ((parameters list).find? fun (candidate, _) => eqIgnoreAsciiCase candidate name).map Prod.snd

example : parameter "uri=\"/a,b\", realm=\"x\\\"y\"".toList "REALM".toList = some "x\"y".toList := by
  decide

end XmipIdentify.Authorization
