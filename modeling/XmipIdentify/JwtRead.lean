import XmipIdentify.JwtAccepted
import XmipIdentify.JwtNumbers

/-!
# What a token answers is what its documents say

Each question to an accepted token is a question about one member of one of its
two documents: that member is there, under this name, at the top and of this
type, or there is no answer.
-/

namespace XmipIdentify

open Str

set_option autoImplicit false

namespace Json

/-- A value that is one string, or an array of strings and of nothing else. -/
inductive Strings : Json → List Text → Prop
  | one (text : Text) : Strings (.string text) [text]
  | array (texts : List Text) : Strings (.array (texts.map .string)) texts

theorem lastWins_array (items : List Json) :
    (Json.array items).lastWins = .array (items.map lastWins) := by
  rw [lastWins, read, readItems_eq_map]
  rfl

theorem asStr_lastWins_eq_some_iff (json : Json) (text : Text) :
    json.lastWins.asStr = some text ↔ json = .string text := by
  cases json with
  | string other => simp [lastWins, read, Value.asStr]
  | _ => simp [lastWins, read, Value.asStr]

theorem mapM_asStr_eq_some_iff (items : List Json) (texts : List Text) :
    (items.map lastWins).mapM Value.asStr = some texts ↔ items = texts.map .string := by
  induction items generalizing texts with
  | nil => simp [eq_comm]
  | cons item rest ih =>
    rw [List.map_cons, List.mapM_cons]
    constructor
    · intro h
      obtain ⟨text, hText, h⟩ := Option.bind_eq_some_iff.mp h
      obtain ⟨others, hOthers, h⟩ := Option.bind_eq_some_iff.mp h
      cases h
      rw [(asStr_lastWins_eq_some_iff item text).mp hText, (ih others).mp hOthers]
      rfl
    · intro h
      cases texts with
      | nil => cases h
      | cons text others =>
        obtain ⟨hItem, hRest⟩ := List.cons.inj h
        rw [(asStr_lastWins_eq_some_iff item text).mpr hItem, (ih others).mpr hRest]
        rfl

end Json

namespace Compact

/-- The token answers what the members of its header and of its claims set say. -/
structure Answers (compact : Compact) (header claims : List (Text × Json)) : Prop where
  algorithm : ∀ text, compact.algorithm = some text ↔ ("alg".toList, .string text) ∈ header
  keyId : ∀ text, compact.keyId = some text ↔ ("kid".toList, .string text) ∈ header
  claim : ∀ name text, compact.claim name = some text ↔ (name, .string text) ∈ claims
  numericClaim : ∀ name seconds, compact.numericClaim name = some seconds ↔
    ∃ number : Number, (name, .number number) ∈ claims ∧
      seconds.toInt = Number.clamp (Binary64.trunc number.value)
  stringsClaim : ∀ name texts, compact.stringsClaim name = texts ↔
    (∃ value : Json, (name, value) ∈ claims ∧ value.Strings texts) ∨
      texts = [] ∧ ∀ value : Json, (name, value) ∈ claims → ∀ others, ¬value.Strings others

theorem get_eq_some_iff {members : List (Text × Json)} (hNodup : (members.map Prod.fst).Nodup)
    (name : Text) (value : Value) :
    (SerdeJson.enter .empty members).get name = some value ↔
      ∃ json, (name, json) ∈ members ∧ json.lastWins = value := by
  rw [SerdeJson.get_enter hNodup, Option.map_eq_some_iff]
  exact exists_congr fun json => and_congr_left fun _ =>
    SortedEntries.lookup_eq_some_iff_mem hNodup name json

theorem text_eq_some_iff {members : List (Text × Json)} (hNodup : (members.map Prod.fst).Nodup)
    (name text : Text) :
    Members.text (SerdeJson.enter .empty members) name = some text ↔ (name, .string text) ∈ members := by
  rw [Members.text, Option.bind_eq_some_iff]
  constructor
  · rintro ⟨value, hValue, hText⟩
    obtain ⟨json, hMem, rfl⟩ := (get_eq_some_iff hNodup name value).mp hValue
    rwa [(Json.asStr_lastWins_eq_some_iff json text).mp hText] at hMem
  · intro hMem
    exact ⟨_, (get_eq_some_iff hNodup name _).mpr ⟨_, hMem, rfl⟩, rfl⟩

theorem stringsClaim_of_strings {compact : Compact} {claims : List (Text × Json)}
    (hNodup : (claims.map Prod.fst).Nodup) (hClaims : compact.claims = SerdeJson.enter .empty claims)
    {name : Text} {value : Json} (hMem : (name, value) ∈ claims) {texts : List Text}
    (hStrings : value.Strings texts) : compact.stringsClaim name = texts := by
  have hGet : compact.claims.get name = some value.lastWins := by
    rw [hClaims]
    exact (get_eq_some_iff hNodup name _).mpr ⟨value, hMem, rfl⟩
  cases hStrings with
  | one text =>
    rw [stringsClaim, hGet]
    rfl
  | array texts =>
    rw [Json.lastWins_array] at hGet
    rw [stringsClaim, hGet]
    dsimp only
    rw [(Json.mapM_asStr_eq_some_iff _ texts).mpr rfl]
    rfl

theorem stringsClaim_of_none {compact : Compact} {claims : List (Text × Json)}
    (hNodup : (claims.map Prod.fst).Nodup) (hClaims : compact.claims = SerdeJson.enter .empty claims)
    {name : Text} (hNone : ∀ value : Json, (name, value) ∈ claims → ∀ others, ¬value.Strings others) :
    compact.stringsClaim name = [] := by
  cases hGet : compact.claims.get name with
  | none => rw [stringsClaim, hGet]
  | some read =>
    obtain ⟨json, hMem, rfl⟩ := (get_eq_some_iff hNodup name read).mp (hClaims ▸ hGet)
    have hNot := hNone json hMem
    cases json with
    | string text => exact absurd (.one text) (hNot [text])
    | array items =>
      rw [Json.lastWins_array] at hGet
      rw [stringsClaim, hGet]
      dsimp only
      cases hItems : (items.map Json.lastWins).mapM Value.asStr with
      | none => rfl
      | some texts =>
        rw [(Json.mapM_asStr_eq_some_iff items texts).mp hItems] at hNot
        exact absurd (.array texts) (hNot texts)
    | _ =>
      rw [stringsClaim, hGet]
      rfl

theorem answers_enter {compact : Compact} {header claims : List (Text × Json)}
    (hHeader : (header.map Prod.fst).Nodup) (hClaims : (claims.map Prod.fst).Nodup)
    (hHeaderIs : compact.header = SerdeJson.enter .empty header)
    (hClaimsIs : compact.claims = SerdeJson.enter .empty claims) : compact.Answers header claims where
  algorithm text := by
    rw [algorithm, hHeaderIs]
    exact text_eq_some_iff hHeader _ text
  keyId text := by
    rw [keyId, hHeaderIs]
    exact text_eq_some_iff hHeader _ text
  claim name text := by
    rw [claim, hClaimsIs]
    exact text_eq_some_iff hClaims name text
  numericClaim name seconds := by
    rw [numericClaim_eq_some_iff, hClaimsIs]
    refine exists_congr fun number => and_congr_left fun _ => ?_
    rw [get_eq_some_iff hClaims]
    constructor
    · rintro ⟨json, hMem, hNumber⟩
      cases json with
      | number n =>
        cases hNumber
        exact hMem
      | _ => cases hNumber
    · intro hMem
      exact ⟨_, hMem, rfl⟩
  stringsClaim name texts := by
    constructor
    · rintro rfl
      by_cases hSome : ∃ value : Json, (name, value) ∈ claims ∧ ∃ others, value.Strings others
      · obtain ⟨value, hMem, others, hStrings⟩ := hSome
        rw [stringsClaim_of_strings hClaims hClaimsIs hMem hStrings]
        exact .inl ⟨value, hMem, hStrings⟩
      · have hNone : ∀ value : Json, (name, value) ∈ claims → ∀ others, ¬value.Strings others :=
          fun value hMem others hStrings => hSome ⟨value, hMem, others, hStrings⟩
        exact .inr ⟨stringsClaim_of_none hClaims hClaimsIs hNone, hNone⟩
    · rintro (⟨value, hMem, hStrings⟩ | ⟨rfl, hNone⟩)
      · exact stringsClaim_of_strings hClaims hClaimsIs hMem hStrings
      · exact stringsClaim_of_none hClaims hClaimsIs hNone

variable (codec : Codec) (serde : SerdeJson)

/-- An accepted token has one header and one claims set, and every question to it is answered by
the member of that name there. -/
theorem accepted_token_answers {token : Text} {compact : Compact}
    (h : parse codec serde token = .ok compact) :
    ∃ header claims, Documents codec serde token header claims ∧
      (∀ header' claims', Documents codec serde token header' claims' →
        header' = header ∧ claims' = claims) ∧
      compact.Answers header claims := by
  obtain ⟨header, claims, hDocuments, hHeader, hClaims, hHeaderIs, hClaimsIs⟩ :=
    documents_of_parse codec serde h
  refine ⟨header, claims, hDocuments, ?_, answers_enter hHeader hClaims hHeaderIs hClaimsIs⟩
  intro header' claims' hDocuments'
  exact hDocuments'.unique hDocuments

/-- A `kid` stands in the claims set, and an audience that is not all strings. -/
theorem accepted_token_answers_mixed :
    let header := toUtf8 "\x7b\"alg\":\"none\"\x7d".toList
    let claims := toUtf8 "\x7b\"kid\":\"k\",\"aud\":[\"a\",1]\x7d".toList
    let serde := SerdeJson.ofTable [(header, [("alg".toList, .string "none".toList)]),
      (claims, [("kid".toList, .string "k".toList),
        ("aud".toList, .array [.string "a".toList, .number (.posInt 1)])])]
    ∃ compact, parse Codec.rfc4648 serde (Codec.rfc4648.token header claims []) = .ok compact ∧
      ∃ headerMembers claimsMembers, compact.Answers headerMembers claimsMembers := by
  intro header claims serde
  have hHeader : serde.Reads header _ := SerdeJson.reads_ofTable rfl
  have hClaims : serde.Reads claims _ := SerdeJson.reads_ofTable rfl
  have hParse := Codec.rfc4648_urlLaws.parse_bare_token serde [] hHeader hClaims
    (by decide) (by decide)
  obtain ⟨headerMembers, claimsMembers, _, _, hAnswers⟩ :=
    accepted_token_answers Codec.rfc4648 serde hParse
  exact ⟨_, hParse, headerMembers, claimsMembers, hAnswers⟩

end Compact

end XmipIdentify
