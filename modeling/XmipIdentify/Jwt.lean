import XmipIdentify.Authorization
import XmipIdentify.Codec
import XmipIdentify.Json
import XmipIdentify.Library.Split

/-!
# The compact form of a JSON Web Token

`serde_json` is a parameter: for the bytes it is given it offers a visitor the
members of an object one by one, each with its value or the failure met there,
and ends well or badly. The loop that reads them is the source's own.
-/

namespace XmipIdentify

open Str ListCut

set_option autoImplicit false

/-- What a visitor can ask for, in order: the names, the value after each, and how the text
ends once no name is left. -/
structure MapAccess (Error : Type) where
  entries : List (Text × Except Error Json)
  finish : Except Error Unit

structure SerdeJson where
  Error : Type
  custom : String → Error
  display : Error → String
  fixPosition : Bytes → Error → Error
  access : Bytes → Except Error (MapAccess Error)
  /-- The characters `{:?}` writes as they are, quotes and the backslash aside. -/
  printable : Char → Bool

abbrev Members := OrderedMap Text Value

variable (codec : Codec) (serde : SerdeJson)

namespace SerdeJson

/-- The loop of `visit_map`, from the members entered so far. -/
def visitMap (finish : Except serde.Error Unit) (members : Members) :
    List (Text × Except serde.Error Json) → Except serde.Error Members
  | [] => finish.map fun _ => members
  | (name, value) :: rest =>
    if members.containsKey name then
      .error (serde.custom ("the member " ++ String.ofList (debug serde.printable name) ++ " appears twice"))
    else
      match value with
      | .error failure => .error failure
      | .ok value => visitMap finish (members.insert name value.lastWins) rest

def fromSlice (bytes : Bytes) : Except serde.Error Members :=
  match serde.access bytes with
  | .error failure => .error failure
  | .ok access =>
    (serde.visitMap access.finish .empty access.entries).mapError (serde.fixPosition bytes)

/-- The bytes are the text of an object with these members, in this order. -/
def Reads (bytes : Bytes) (members : List (Text × Json)) : Prop :=
  serde.access bytes = .ok ⟨members.map fun member => (member.1, .ok member.2), .ok ()⟩

theorem entries_inj {Error : Type} {members members' : List (Text × Json)}
    (h : (members.map fun member => (member.1, (.ok member.2 : Except Error Json))) =
      members'.map fun member => (member.1, .ok member.2)) : members = members' := by
  refine List.map_injective_iff.mpr ?_ h
  intro a b hab
  simp only [Prod.mk.injEq, Except.ok.injEq] at hab
  exact Prod.ext hab.1 hab.2

variable {serde} in
theorem Reads.unique {bytes : Bytes} {members members' : List (Text × Json)}
    (h : serde.Reads bytes members) (h' : serde.Reads bytes members') : members = members' :=
  entries_inj (congrArg MapAccess.entries (Except.ok.inj (h.symm.trans h')))

/-- What `visit_map` makes of members whose names do not repeat. -/
def enter (members : Members) (read : List (Text × Json)) : Members :=
  members.insertAll (read.map fun member => (member.1, member.2.lastWins))

/-- What it is for names to be new and told apart, one name on. -/
theorem fresh_cons_iff (members : Members) (name : Text) (value : Value) (names : List Text) :
    ((name :: names).Nodup ∧ ∀ other ∈ name :: names, members.get other = none) ↔
      members.get name = none ∧ names.Nodup ∧
        ∀ other ∈ names, (members.insert name value).get other = none := by
  constructor
  · rintro ⟨hNodup, hFresh⟩
    obtain ⟨hName, hNodup⟩ := List.nodup_cons.mp hNodup
    refine ⟨hFresh name List.mem_cons_self, hNodup, fun other hOther => ?_⟩
    rw [OrderedMap.get_insert, if_neg (ne_of_mem_of_not_mem hOther hName)]
    exact hFresh other (List.mem_cons_of_mem _ hOther)
  · rintro ⟨hHead, hNodup, hFresh⟩
    have hName : name ∉ names := by
      intro hMem
      have := hFresh name hMem
      rw [OrderedMap.get_insert, if_pos rfl] at this
      cases this
    refine ⟨List.nodup_cons.mpr ⟨hName, hNodup⟩, fun other hOther => ?_⟩
    rcases List.mem_cons.mp hOther with rfl | hOther
    · exact hHead
    · have := hFresh other hOther
      rwa [OrderedMap.get_insert, if_neg (ne_of_mem_of_not_mem hOther hName)] at this

theorem visitMap_eq_ok_iff (finish : Except serde.Error Unit) (members result : Members)
    (entries : List (Text × Except serde.Error Json)) :
    serde.visitMap finish members entries = .ok result ↔
      ∃ read : List (Text × Json), entries = (read.map fun member => (member.1, .ok member.2)) ∧
        finish = .ok () ∧ (read.map Prod.fst).Nodup ∧
        (∀ name ∈ read.map Prod.fst, members.get name = none) ∧ result = enter members read := by
  induction entries generalizing members with
  | nil =>
    rw [visitMap]
    constructor
    · intro h
      cases finish with
      | error failure => cases h
      | ok u =>
        cases h
        exact ⟨[], rfl, rfl, List.nodup_nil, by simp, rfl⟩
    · rintro ⟨read, hRead, rfl, _, _, rfl⟩
      obtain rfl := List.map_eq_nil_iff.mp hRead.symm
      rfl
  | cons entry rest ih =>
    obtain ⟨name, value⟩ := entry
    rw [visitMap.eq_def]
    dsimp only
    split
    · rename_i hContains
      refine ⟨(nomatch ·), ?_⟩
      rintro ⟨read, hRead, _, _, hFresh, _⟩
      cases read with
      | nil => cases hRead
      | cons member read =>
        cases hRead
        rw [OrderedMap.containsKey, hFresh member.1 List.mem_cons_self] at hContains
        cases hContains
    · rename_i hContains
      rw [OrderedMap.containsKey, Option.not_isSome_iff_eq_none] at hContains
      cases value with
      | error failure =>
        refine ⟨(nomatch ·), ?_⟩
        rintro ⟨read, hRead, _⟩
        cases read with
        | nil => cases hRead
        | cons member read => cases hRead
      | ok value =>
        rw [ih]
        constructor
        · rintro ⟨read, rfl, rfl, hNodup, hFresh, rfl⟩
          obtain ⟨hNodup, hFresh⟩ :=
            (fresh_cons_iff members name value.lastWins _).mpr ⟨hContains, hNodup, hFresh⟩
          exact ⟨(name, value) :: read, rfl, rfl, hNodup, hFresh, rfl⟩
        · rintro ⟨read, hRead, rfl, hNodup, hFresh, rfl⟩
          cases read with
          | nil => cases hRead
          | cons member read =>
            cases hRead
            obtain ⟨_, hNodup, hFresh⟩ :=
              (fresh_cons_iff members member.1 member.2.lastWins _).mp ⟨hNodup, hFresh⟩
            exact ⟨read, rfl, rfl, hNodup, hFresh, rfl⟩

theorem visitMap_members_eq_ok_iff (members : List (Text × Json)) (result : Members) :
    serde.visitMap (.ok ()) .empty (members.map fun member => (member.1, .ok member.2)) =
      .ok result ↔ (members.map Prod.fst).Nodup ∧ result = enter .empty members := by
  rw [visitMap_eq_ok_iff]
  constructor
  · rintro ⟨read, hRead, _, hNodup, _, hEnter⟩
    obtain rfl := entries_inj hRead
    exact ⟨hNodup, hEnter⟩
  · rintro ⟨hNodup, hEnter⟩
    exact ⟨members, rfl, rfl, hNodup, fun _ _ => rfl, hEnter⟩

theorem fromSlice_eq_ok_iff (bytes : Bytes) (result : Members) :
    serde.fromSlice bytes = .ok result ↔
      ∃ members, serde.Reads bytes members ∧ (members.map Prod.fst).Nodup ∧
        result = enter .empty members := by
  rw [fromSlice]
  cases hAccess : serde.access bytes with
  | error failure => simp [Reads, hAccess]
  | ok access =>
    obtain ⟨entries, finish⟩ := access
    have hVisit := serde.visitMap_eq_ok_iff finish .empty result entries
    simp only [Reads, hAccess, Except.ok.injEq, MapAccess.mk.injEq]
    constructor
    · intro h
      cases hResult : serde.visitMap finish .empty entries with
      | error failure =>
        rw [hResult] at h
        cases h
      | ok members =>
        rw [hResult] at h
        cases h
        obtain ⟨read, hEntries, hFinish, hNodup, _, hEnter⟩ := hVisit.mp hResult
        exact ⟨read, ⟨hEntries, hFinish⟩, hNodup, hEnter⟩
    · rintro ⟨read, ⟨hEntries, hFinish⟩, hNodup, hEnter⟩
      rw [hVisit.mpr ⟨read, hEntries, hFinish, hNodup, fun _ _ => rfl, hEnter⟩]
      rfl

theorem get_enter {members : List (Text × Json)} (hNodup : (members.map Prod.fst).Nodup)
    (name : Text) : (enter .empty members).get name = (members.lookup name).map Json.lastWins := by
  rw [enter, OrderedMap.get_insertAll, OrderedMap.get_empty, Option.or_none, Json.lastOf_map,
    SortedEntries.lastOf_eq_lookup hNodup]

end SerdeJson

namespace Jwt

def decode (text : Text) (what : String) : Except IdentifyError Bytes :=
  match codec.decodeUrl (trimEndMatches '=' text) with
  | .ok bytes => .ok bytes
  | .error _ => .error (.new s!"the JWT {what} is not base64url")

def decodeObject (text : Text) (what : String) : Except IdentifyError Members :=
  match decode codec text what with
  | .error failure => .error failure
  | .ok bytes =>
    match serde.fromSlice bytes with
    | .ok members => .ok members
    | .error failure =>
      .error (.new ("the JWT " ++ what ++ " is not a JSON object: " ++ serde.display failure))

theorem decode_eq_ok_iff (text : Text) (what : String) (bytes : Bytes) :
    decode codec text what = .ok bytes ↔ codec.decodeUrl (trimEndMatches '=' text) = .ok bytes := by
  rw [decode]
  cases codec.decodeUrl (trimEndMatches '=' text) with
  | error failure => simp
  | ok result => simp

theorem decodeObject_eq_ok_iff (text : Text) (what : String) (result : Members) :
    decodeObject codec serde text what = .ok result ↔
      ∃ bytes, decode codec text what = .ok bytes ∧ serde.fromSlice bytes = .ok result := by
  rw [decodeObject]
  cases decode codec text what with
  | error failure => simp
  | ok bytes =>
    cases hRead : serde.fromSlice bytes with
    | error failure => simp [hRead]
    | ok members => simp [hRead]

def isCompact (token : Text) : Bool :=
  (token.splitOn '.').length == 3 && !token.any isWhitespace && !token.isEmpty

def carried (raw : Text) (scheme : Option Text) : Option Text :=
  match scheme with
  | some scheme => (Authorization.under raw scheme).filter isCompact
  | none => some (trim raw) |>.filter isCompact

theorem isCompact_iff (token : Text) :
    isCompact token = true ↔
      (∃ header claims signature, token.splitOn '.' = [header, claims, signature]) ∧
        ∀ c ∈ token, isWhitespace c = false := by
  have hEmpty : (token.splitOn '.').length = 3 → token ≠ [] := by
    rintro hLength rfl
    cases hLength
  simp only [isCompact, Bool.and_eq_true, beq_iff_eq, Bool.not_eq_true', List.isEmpty_eq_false_iff,
    List.any_eq_false, Bool.not_eq_true, List.length_eq_three]
  exact ⟨fun h => h.1, fun h => ⟨h, hEmpty (List.length_eq_three.mpr h.1)⟩⟩

theorem carried_none_eq_some_iff (raw token : Text) :
    carried raw none = some token ↔ trim raw = token ∧ isCompact token = true := by
  rw [carried, Option.filter_eq_some_iff, Option.some.injEq]

theorem carried_some_eq_some_iff (raw scheme token : Text) :
    carried raw (some scheme) = some token ↔
      Authorization.under raw scheme = some token ∧ isCompact token = true := by
  rw [carried, Option.filter_eq_some_iff]

end Jwt

structure Compact where
  header : Members
  claims : Members
  signature : Bytes
  signingInput : Text

namespace Compact

open Jwt

def parse (token : Text) : Except IdentifyError Compact :=
  match (trim token).splitOn '.' with
  | [header, claims, signature] => do
    let headerMembers ← decodeObject codec serde header "header"
    let claimsMembers ← decodeObject codec serde claims "claims"
    let signatureBytes ← decode codec signature "signature"
    return {
      header := headerMembers
      claims := claimsMembers
      signature := signatureBytes
      signingInput := header ++ '.' :: claims }
  | _ => .error (.new "a JWT has exactly three parts around two dots")

theorem parse_eq_ok_iff (token : Text) (compact : Compact) :
    parse codec serde token = .ok compact ↔
      ∃ header claims signature,
        trim token = header ++ '.' :: (claims ++ '.' :: signature) ∧
        '.' ∉ header ∧ '.' ∉ claims ∧ '.' ∉ signature ∧
        decodeObject codec serde header "header" = .ok compact.header ∧
        decodeObject codec serde claims "claims" = .ok compact.claims ∧
        decode codec signature "signature" = .ok compact.signature ∧
        compact.signingInput = header ++ '.' :: claims := by
  constructor
  · intro h
    rw [parse] at h
    split at h
    · rename_i header claims signature hSplit
      obtain ⟨hToken, hHeader, hClaims, hSignature⟩ :=
        (splitOn_eq_three_iff '.' _ header claims signature).mp hSplit
      obtain ⟨headerMembers, h1, h⟩ := (bind_eq_ok_iff _ _ _).mp h
      obtain ⟨claimsMembers, h2, h⟩ := (bind_eq_ok_iff _ _ _).mp h
      obtain ⟨signatureBytes, h3, h⟩ := (bind_eq_ok_iff _ _ _).mp h
      cases h
      exact ⟨header, claims, signature, hToken, hHeader, hClaims, hSignature, h1, h2, h3, rfl⟩
    · cases h
  · rintro ⟨header, claims, signature, hToken, hHeader, hClaims, hSignature, h1, h2, h3, h4⟩
    have hSplit : (trim token).splitOn '.' = [header, claims, signature] :=
      (splitOn_eq_three_iff '.' _ header claims signature).mpr ⟨hToken, hHeader, hClaims, hSignature⟩
    simp only [parse, hSplit, h1, h2, h3]
    cases compact
    cases h4
    rfl

end Compact

end XmipIdentify
