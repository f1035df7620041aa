import XmipIdentify.Principal.ServiceName

/-!
# The texts that are service principal names

A text is divided in one way at most: the realm stands after the last `@` if no
`/` does, the class and the host before the first two `/`. Whatever the parts
of the division spell is the name, and no other text is one.
-/

namespace XmipIdentify

open Str ListCut

set_option autoImplicit false

/-- A port is spelled in digits whose value fits, with a plus before them or none. -/
theorem parseU16_eq_some_iff (text : Text) (n : UInt16) :
    parseU16 text = some n ↔ ∃ digits, (text = digits ∨ text = '+' :: digits) ∧ digits ≠ [] ∧
      (∀ c ∈ digits, isAsciiDigit c = true) ∧ Nat.ofDigitChars 10 digits 0 = n.toNat := by
  constructor
  · intro h
    refine ⟨stripPlus text, ?_, ?_⟩
    · rw [stripPlus.eq_def]
      split
      · exact .inr rfl
      · exact .inl rfl
    · rw [parseU16] at h
      split at h
      · cases h
      · rename_i hTest
        simp only [Bool.or_eq_true, Bool.not_eq_true', not_or, Bool.not_eq_false, List.all_eq_true,
          List.isEmpty_iff] at hTest
        dsimp only at h
        split at h
        · rename_i hBound
          cases h
          exact ⟨hTest.1, hTest.2, (UInt16.toNat_ofNat_of_lt' hBound).symm⟩
        · cases h
  · rintro ⟨digits, hText, hNe, hDigits, hValue⟩
    have hStrip : stripPlus text = digits := by
      rcases hText with rfl | rfl
      · exact stripPlus_of_not_mem fun h => absurd (hDigits _ h) (by decide)
      · rfl
    have hAll : digits.all isAsciiDigit = true := List.all_eq_true.mpr hDigits
    have hBound : n.toNat < 65536 := n.toNat_lt
    simp [parseU16, hStrip, hAll, hNe, hValue, hBound]

/-- What a host and its port are read from. -/
inductive HostSpelled : Text → Text → Option UInt16 → Prop where
  | bare {host : Text} (colon : ':' ∉ host) : HostSpelled host host none
  | ported {host digits written : Text} {port : UInt16}
      (sign : written = digits ∨ written = '+' :: digits) (ne_nil : digits ≠ [])
      (ascii : ∀ c ∈ digits, isAsciiDigit c = true)
      (value : Nat.ofDigitChars 10 digits 0 = port.toNat) :
      HostSpelled (host ++ ':' :: written) host (some port)

theorem cutPort_eq_some_iff (text host : Text) (port : Option UInt16) :
    cutPort text = some (host, port) ↔ HostSpelled text host port := by
  constructor
  · intro h
    rcases cutPort_cases h with ⟨rfl, rfl, hColon⟩ | ⟨written, n, rfl, _, hWritten, rfl⟩
    · exact .bare hColon
    · obtain ⟨digits, hSign, hNe, hDigits, hValue⟩ := (parseU16_eq_some_iff written n).mp hWritten
      exact .ported hSign hNe hDigits hValue
  · intro h
    cases h with
    | bare colon => rw [cutPort, (rsplitOnce_eq_none_iff ':' text).mpr colon]
    | @ported host digits written n sign ne_nil ascii value =>
      have hParse := (parseU16_eq_some_iff written n).mpr ⟨digits, sign, ne_nil, ascii, value⟩
      have hColon : ':' ∉ written := digits_of_parseU16 hParse (by decide) (by decide)
      rw [cutPort, rsplitOnce_append ':' host written hColon]
      dsimp only
      rw [hParse]
      rfl

theorem HostSpelled.unique {text host host' : Text} {port port' : Option UInt16}
    (h : HostSpelled text host port) (h' : HostSpelled text host' port') :
    host = host' ∧ port = port' := by
  rw [← cutPort_eq_some_iff] at h h'
  exact Prod.mk.inj (Option.some.inj (h.symm.trans h'))

/-- The fields a text is divided into, each as it stands there. -/
structure Division where
  class_ : Text
  host : Text
  instance_ : Option Text
  realm : Option Text

structure Division.Of (division : Division) (text : Text) : Prop where
  joined : trim text =
    joinPieces division.class_ division.host division.instance_ division.realm
  class_slash : '/' ∉ division.class_
  host_slash : '/' ∉ division.host
  realm_plain : ∀ realm ∈ division.realm, '@' ∉ realm ∧ '/' ∉ realm
  at_ : division.realm = none →
    '@' ∉ lastPiece '/' (division.host ++ slashed division.instance_)

/-- The name the fields spell: the class and the instance keep their case, the host loses its
trailing dots, and a blank instance or realm is none. -/
structure Division.Spells (division : Division) (name : ServicePrincipalName) : Prop where
  class_ : name.class_ = trim division.class_
  class_ne_nil : trim division.class_ ≠ []
  host : ∃ host, HostSpelled (trim division.host) host name.port ∧ host ≠ [] ∧
    name.host = toAsciiLowercase (trimEndMatches '.' host)
  instance_ : name.instance_ = (division.instance_.map trim).filter nonempty
  realm : name.realm = ((division.realm.map trim).filter nonempty).map toAsciiLowercase

def Division.pieces (division : Division) : ServicePieces :=
  ⟨division.class_, division.host, division.instance_, division.realm.map trim⟩

theorem Division.Of.cut_eq {division : Division} {text : Text} (h : division.Of text) :
    ServicePieces.cut (trim text) = some division.pieces := by
  rw [h.joined]
  exact cut_joinPieces h.class_slash h.host_slash h.realm_plain h.at_

theorem attached_injective : Function.Injective attached := by
  intro a b h
  cases a with
  | none =>
    cases b with
    | none => rfl
    | some r => cases h
  | some r =>
    cases b with
    | none => cases h
    | some r' => exact congrArg some (List.cons.inj h).2

/-- The pieces say the realm but for the space around it, and the text says that too. -/
theorem Division.Of.unique {a b : Division} {text : Text} (ha : a.Of text) (hb : b.Of text) :
    a = b := by
  have hPieces := Option.some.inj (ha.cut_eq.symm.trans hb.cut_eq)
  simp only [pieces, ServicePieces.mk.injEq] at hPieces
  obtain ⟨hClass, hHost, hInstance, _⟩ := hPieces
  have hJoined := ha.joined.symm.trans hb.joined
  rw [hClass, hHost, hInstance, joinPieces, joinPieces] at hJoined
  have hRealm := attached_injective (List.append_cancel_left (List.append_cancel_left
    (List.cons.inj (List.append_cancel_left hJoined)).2))
  cases a
  cases b
  dsimp only at *
  rw [hClass, hHost, hInstance, hRealm]

theorem Division.spells_iff (division : Division) (name : ServicePrincipalName) :
    division.Spells name ↔ division.pieces.assemble = some name.toServiceParts := by
  rw [assemble_eq_some_iff]
  constructor
  · rintro ⟨hClass, hClassNe, ⟨host, hSpelled, hHostNe, hHost⟩, hInstance, hRealm⟩
    refine ⟨host, name.port, (cutPort_eq_some_iff _ _ _).mpr hSpelled, hClassNe, hHostNe, ?_⟩
    exact ServiceParts.mk.injEq .. |>.mpr ⟨hClass, hHost, rfl, hInstance, hRealm⟩
  · rintro ⟨host, port, hPort, hClassNe, hHostNe, hParts⟩
    have hNamePort : name.port = port := congrArg ServiceParts.port hParts
    exact {
      class_ := congrArg ServiceParts.class_ hParts
      class_ne_nil := hClassNe
      host := ⟨host, hNamePort ▸ (cutPort_eq_some_iff _ _ _).mp hPort, hHostNe,
        congrArg ServiceParts.host hParts⟩
      instance_ := congrArg ServiceParts.instance_ hParts
      realm := congrArg ServiceParts.realm hParts }

theorem ServicePrincipalName.parse_eq_some_iff_spells (text : Text) (name : ServicePrincipalName) :
    parse text = some name ↔ ∃ division : Division, division.Of text ∧ division.Spells name := by
  rw [parse_eq_some_iff, ServiceParts.parse, Option.bind_eq_some_iff]
  constructor
  · rintro ⟨pieces, hCut, hAssemble⟩
    obtain ⟨realm, hJoined, hClass, hHost, hPlain, hRealm, hAt⟩ := (cut_eq_some_iff _ pieces).mp hCut
    let division : Division := ⟨pieces.class_, pieces.host, pieces.instance_, realm⟩
    have hPieces : division.pieces = pieces := by
      rw [Division.pieces, ← hRealm]
    refine ⟨division, ⟨hJoined, hClass, hHost, hPlain, hAt⟩, ?_⟩
    rw [division.spells_iff, hPieces]
    exact hAssemble
  · rintro ⟨division, hOf, hSpells⟩
    exact ⟨_, hOf.cut_eq, (division.spells_iff name).mp hSpells⟩

/-- A text is the name its division spells, is divided in one way only, and a division spells one
name. -/
theorem ServicePrincipalName.parse_iff_spelled (text : Text) :
    (∀ name, parse text = some name ↔ ∃ division : Division, division.Of text ∧
      division.Spells name) ∧
    (∀ a b : Division, a.Of text → b.Of text → a = b) ∧
    ∀ (division : Division) (name name' : ServicePrincipalName), division.Spells name →
      division.Spells name' → name = name' := by
  refine ⟨parse_eq_some_iff_spells text, fun a b => Division.Of.unique, ?_⟩
  intro division name name' hName hName'
  have hParts := Option.some.inj
    (((division.spells_iff name).mp hName).symm.trans ((division.spells_iff name').mp hName'))
  cases name
  cases name'
  cases hParts
  rfl

/-- The instance is blank, the last `@` opens a realm, and zeros before a port are nothing. -/
theorem ServicePrincipalName.parse_iff_spelled_sql :
    let text := " MSSQLSvc/a@DB01.example.:+001433/ @in ".toList
    ∃ name, ∃ division : Division, parse text = some name ∧ division.Of text ∧
      division.Spells name ∧ name.host = "a@db01.example".toList ∧ name.port = some 1433 ∧
      name.instance_ = none ∧ name.realm = some "in".toList := by
  intro text
  let name := (parse text).get (by decide)
  have hParse : parse text = some name := by decide
  obtain ⟨division, hOf, hSpells⟩ := ((parse_iff_spelled text).1 name).mp hParse
  exact ⟨name, division, hParse, hOf, hSpells, by decide, by decide, by decide, by decide⟩

end XmipIdentify
