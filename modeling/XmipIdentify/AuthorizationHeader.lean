import XmipIdentify.AuthorizationList

/-!
# The header as it is written

A scheme, whitespace, and what it carries. The scheme split accepts exactly the
texts of that form, so one header answers for one scheme; a Digest header then
gives back each parameter that was written into it, and nothing to a reader who
asks for another scheme.
-/

namespace XmipIdentify.Authorization

open Str ListCut
open ListTrim (Trimmed)

set_option autoImplicit false

/-- A header that carries something: `name`, a space that ends it, and `rest`. -/
structure Carries (value name rest : Text) : Prop where
  written : ∃ u w v space, value = u ++ (name ++ (space :: w ++ (rest ++ v))) ∧
    isAsciiWhitespace space = true ∧ (∀ c ∈ u, isWhitespace c = true) ∧
    (∀ c ∈ w, isWhitespace c = true) ∧ ∀ c ∈ v, isWhitespace c = true
  name_ne : name ≠ []
  name_head : ∀ c ∈ name.head?, isWhitespace c = false
  name_spaceless : ∀ c ∈ name, isAsciiWhitespace c = false
  rest_ne : rest ≠ []
  rest_trimmed : Trimmed isWhitespace rest

theorem carries_of_scheme {value name rest : Text} (h : scheme value = (name, rest))
    (hRest : rest ≠ []) : Carries value name rest := by
  rw [scheme] at h
  split at h
  · obtain ⟨_, rfl⟩ := Prod.mk.inj h
    exact absurd rfl hRest
  · rename_i before after hCut
    obtain ⟨rfl, rfl⟩ := Prod.mk.inj h
    obtain ⟨space, hSpace, hTrim, hBefore⟩ := (splitOnceBy_eq_some_iff _ _ before after).mp hCut
    obtain ⟨u, v, hValue, hu, hv⟩ := ListTrim.exists_trim isWhitespace value
    obtain ⟨w, z, hAfter, hw, hz⟩ := ListTrim.exists_trim isWhitespace after
    have hTrimmed : Trimmed isWhitespace (before ++ space :: after) := hTrim ▸ trimmed_trim value
    have hName : before ≠ [] := by
      rintro rfl
      have hNot : isWhitespace space = false := hTrimmed.head space rfl
      exact Bool.false_ne_true (hNot.symm.trans (isWhitespace_of_isAsciiWhitespace hSpace))
    refine ⟨⟨u, w, z ++ v, space, ?_, hSpace, hu, hw, ?_⟩, hName, ?_, hBefore, hRest, trimmed_trim after⟩
    · calc value
        _ = u ++ (before ++ space :: after ++ v) := by rw [← hTrim]; exact hValue
        _ = u ++ (before ++ space :: (w ++ (trim after ++ z)) ++ v) := by rw [← hAfter]
        _ = u ++ (before ++ (space :: w ++ (trim after ++ (z ++ v)))) := by simp
    · intro c hc
      exact (List.mem_append.mp hc).elim (hz c) (hv c)
    · intro c hc
      apply hTrimmed.head c
      rwa [List.head?_append_of_ne_nil _ hName]

theorem Carries.scheme_eq {value name rest : Text} (h : Carries value name rest) :
    scheme value = (name, rest) := by
  obtain ⟨u, w, v, space, rfl, hSpace, hu, hw, hv⟩ := h.written
  have hTrimmed : Trimmed isWhitespace (name ++ (space :: w ++ rest)) := by
    constructor
    · intro c hc
      rw [List.head?_append_of_ne_nil _ h.name_ne] at hc
      exact h.name_head c hc
    · intro c hc
      rw [← List.append_assoc, List.getLast?_append_of_ne_nil _ h.rest_ne] at hc
      exact h.rest_trimmed.last c hc
  have hTrim : trim (u ++ (name ++ (space :: w ++ (rest ++ v)))) = name ++ (space :: w ++ rest) := by
    calc trim (u ++ (name ++ (space :: w ++ (rest ++ v))))
      _ = trim (u ++ ((name ++ (space :: w ++ rest)) ++ v)) := by simp only [List.append_assoc]
      _ = trim (name ++ (space :: w ++ rest)) := trim_surround hu hv
      _ = name ++ (space :: w ++ rest) := trim_of_trimmed hTrimmed
  have hCut : splitOnceBy isAsciiWhitespace (name ++ (space :: w ++ rest)) = some (name, w ++ rest) := by
    rw [splitOnceBy_eq_some_iff]
    exact ⟨space, hSpace, rfl, h.name_spaceless⟩
  rw [scheme, hTrim, hCut]
  dsimp only
  rw [trim_append_of_whitespace hw, trim_of_trimmed h.rest_trimmed]

theorem Carries.under_eq {value name rest wanted : Text} (h : Carries value name rest)
    (hWanted : toAsciiLowercase name = toAsciiLowercase wanted) : under value wanted = some rest := by
  rw [under_eq_some_iff, h.scheme_eq]
  exact ⟨hWanted, rfl, h.rest_ne⟩

/-- What `under` accepts, as a text; and one header carries one thing under one scheme. -/
theorem under_grammar (value : Text) :
    (∀ wanted rest, under value wanted = some rest ↔
      ∃ name, Carries value name rest ∧ toAsciiLowercase name = toAsciiLowercase wanted) ∧
    ∀ wanted wanted' rest rest', under value wanted = some rest → under value wanted' = some rest' →
      toAsciiLowercase wanted = toAsciiLowercase wanted' ∧ rest = rest' := by
  constructor
  · intro wanted rest
    constructor
    · intro h
      obtain ⟨hWanted, rfl, hRest⟩ := (under_eq_some_iff value wanted rest).mp h
      exact ⟨(scheme value).1, carries_of_scheme rfl hRest, hWanted⟩
    · rintro ⟨name, hCarries, hWanted⟩
      exact hCarries.under_eq hWanted
  · intro wanted wanted' rest rest' h h'
    obtain ⟨hWanted, hRest, _⟩ := (under_eq_some_iff value wanted rest).mp h
    obtain ⟨hWanted', hRest', _⟩ := (under_eq_some_iff value wanted' rest').mp h'
    exact ⟨hWanted.symm.trans hWanted', hRest.symm.trans hRest'⟩

theorem Token.spaceless {name : Text} (h : Token name) : ∀ c ∈ name, isAsciiWhitespace c = false := by
  intro c hc
  rw [Bool.eq_false_iff]
  intro hSpace
  exact Bool.false_ne_true ((h.plain c hc).1.symm.trans (isWhitespace_of_isAsciiWhitespace hSpace))

theorem trimmed_item {name : Text} (hName : Token name) (value : Text) :
    Trimmed isWhitespace (item (name, value)) := by
  have hEnd : Trimmed isWhitespace ['"'] := .of_forall _ (forall_of_all (by decide))
  have hPlain : Trimmed isWhitespace name := .of_forall _ fun c hc => (hName.plain c hc).1
  exact hPlain.append _ hEnd hName.ne_nil (List.cons_ne_nil _ _) ('=' :: '"' :: esc value)

theorem item_ne_nil (pair : Text × Text) : item pair ≠ [] := by simp [item]

theorem trimmed_encode {pairs : List (Text × Text)} (hNames : ∀ pair ∈ pairs, Token pair.1) :
    Trimmed isWhitespace (encode pairs) ∧ (encode pairs = [] → pairs = []) := by
  induction pairs with
  | nil => exact ⟨ListTrim.trimmed_nil _, fun _ => rfl⟩
  | cons pair pairs ih =>
    have hFirst := trimmed_item (hNames pair List.mem_cons_self) pair.2
    obtain ⟨hRest, hNil⟩ := ih fun p hp => hNames p (List.mem_cons_of_mem _ hp)
    cases pairs with
    | nil => simpa [encode, List.intercalate, item_ne_nil] using hFirst
    | cons next pairs =>
      have hEncode : encode (pair :: next :: pairs) = item pair ++ ([',', ' '] ++ encode (next :: pairs)) := by
        simp [encode, List.intercalate]
      rw [hEncode]
      refine ⟨hFirst.append _ hRest (item_ne_nil pair) (fun h => ?_) _, by simp [item_ne_nil]⟩
      cases hNil h

theorem parameter_encode {pairs : List (Text × Text)} (hNames : ∀ pair ∈ pairs, Token pair.1)
    (name : Text) : parameter (encode pairs) name =
      (pairs.find? fun (candidate, _) => eqIgnoreAsciiCase candidate name).map fun (_, value) => trim value := by
  have hFolded : ((fun (candidate, _) => eqIgnoreAsciiCase candidate name) ∘
      fun (name, value) => (toAsciiLowercase name, trim value)) =
      fun ((candidate, _) : Text × Text) => eqIgnoreAsciiCase candidate name := by
    funext pair
    simp [eqIgnoreAsciiCase]
  rw [parameter, parameters_encode pairs hNames, List.find?_map, Option.map_map, hFolded]
  rfl

theorem under_blank {u name v : Text} (hName : Token name) (hu : ∀ c ∈ u, isWhitespace c = true)
    (hv : ∀ c ∈ v, isWhitespace c = true) (wanted : Text) : under (u ++ (name ++ v)) wanted = none := by
  have hTrim : trim (u ++ (name ++ v)) = name := by
    rw [trim_surround hu hv]
    exact trim_of_trimmed (.of_forall _ fun c hc => (hName.plain c hc).1)
  have hCut : splitOnceBy isAsciiWhitespace name = none :=
    (splitOnceBy_eq_none_iff _ _).mpr hName.spaceless
  rw [Option.eq_none_iff_forall_ne_some]
  intro rest hRest
  rw [under_eq_some_iff, scheme, hTrim, hCut] at hRest
  exact hRest.2.2 hRest.2.1.symm

/-- A header written of a scheme and parameters, read for a scheme and a parameter. -/
theorem parameter_under_header {u name w v wanted parameterName : Text} {pairs : List (Text × Text)}
    (hName : Token name) (hNames : ∀ pair ∈ pairs, Token pair.1)
    (hu : ∀ c ∈ u, isWhitespace c = true) (hw : ∀ c ∈ w, isWhitespace c = true)
    (hv : ∀ c ∈ v, isWhitespace c = true) :
    (under (u ++ (name ++ (' ' :: w ++ (encode pairs ++ v)))) wanted).bind (parameter · parameterName) =
      if eqIgnoreAsciiCase name wanted then
        (pairs.find? fun (candidate, _) => eqIgnoreAsciiCase candidate parameterName).map
          fun (_, value) => trim value
      else none := by
  obtain ⟨hTrimmed, hNil⟩ := trimmed_encode hNames
  by_cases hEncode : encode pairs = []
  · have hBlank : ∀ c ∈ ' ' :: w ++ v, isWhitespace c = true := by
      intro c hc
      rcases List.mem_append.mp hc with hc | hc
      · exact (List.mem_cons.mp hc).elim (fun h => h ▸ rfl) (hw c)
      · exact hv c hc
    rw [hEncode, List.nil_append, under_blank hName hu hBlank, hNil hEncode]
    simp
  · have hCarries : Carries (u ++ (name ++ (' ' :: w ++ (encode pairs ++ v)))) name (encode pairs) := by
      refine ⟨⟨u, w, v, ' ', rfl, rfl, hu, hw, hv⟩, hName.ne_nil, ?_, hName.spaceless, hEncode, hTrimmed⟩
      intro c hc
      exact (hName.plain c (List.mem_of_head? hc)).1
    split
    · rename_i hWanted
      rw [eqIgnoreAsciiCase, beq_iff_eq] at hWanted
      rw [hCarries.under_eq hWanted]
      exact parameter_encode hNames parameterName
    · rename_i hWanted
      rw [Option.bind_eq_none_iff]
      intro rest hRest
      obtain ⟨hFolded, _⟩ := (under_eq_some_iff _ _ _).mp hRest
      rw [hCarries.scheme_eq] at hFolded
      exact absurd (beq_iff_eq.mpr hFolded) hWanted

theorem token_digest : Token "Digest".toList := ⟨by decide, forall_of_all (by decide)⟩

theorem parameter_under_header_realm :
    (under (" Digest  realm=\"a, \\\"b\"".toList) "DIGEST".toList).bind (parameter · "Realm".toList) =
      some "a, \"b".toList := by
  have hNames : ∀ pair ∈ [("realm".toList, "a, \"b".toList)], Token pair.1 := by
    intro pair hPair
    rw [List.mem_singleton.mp hPair]
    exact ⟨by decide, forall_of_all (by decide)⟩
  have hText : " Digest  realm=\"a, \\\"b\"".toList = [' '] ++ ("Digest".toList ++
      (' ' :: [' '] ++ (encode [("realm".toList, "a, \"b".toList)] ++ []))) := by decide
  rw [hText, @parameter_under_header [' '] _ [' '] [] _ _ _ token_digest hNames
    (forall_of_all (by decide)) (forall_of_all (by decide)) (forall_of_all (by decide))]
  decide

end XmipIdentify.Authorization
