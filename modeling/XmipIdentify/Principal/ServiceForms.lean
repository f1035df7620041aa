import XmipIdentify.Kerberos.Ticket
import XmipIdentify.Principal.ServiceCanonical

/-!
# The forms of a service principal name

`class/host[:port][/instance][@realm]` is read into its parts, by hand or off a
ticket. What is read is well formed but for the host: its emptiness is tested
before its dots are dropped.
-/

namespace XmipIdentify

open Str ListCut
open ListTrim (Trimmed)

set_option autoImplicit false

/-- What a name of a service on a host is. -/
structure ServiceParts.Named (parts : ServiceParts) : Prop where
  class_ne_nil : parts.class_ ≠ []
  class_slash : '/' ∉ parts.class_
  class_trimmed : trim parts.class_ = parts.class_
  host_ne_nil : parts.host ≠ []
  host_slash : '/' ∉ parts.host
  host_folded : ∀ c ∈ parts.host, isAsciiUppercase c = false
  host_end : parts.host.getLast? ≠ some '.'
  instance_ : ∀ i ∈ parts.instance_, i ≠ [] ∧ trim i = i
  realm : ∀ r ∈ parts.realm, r ≠ [] ∧ '/' ∉ r ∧ '@' ∉ r ∧ (∀ c ∈ r, isAsciiUppercase c = false) ∧
    trim r = r

/-- The host before the port holds more than dots. -/
def Division.NamesHost (division : Division) : Prop :=
  ∃ host port, HostSpelled (trim division.host) host port ∧ ∃ c ∈ host, c ≠ '.'

def NamesHost (text : Text) : Prop := ∃ division : Division, division.Of text ∧ division.NamesHost

theorem trimEndMatches_ne_nil_iff (d : Char) (text : Text) :
    trimEndMatches d text ≠ [] ↔ ∃ c ∈ text, c ≠ d := by
  rw [trimEndMatches, ne_eq, List.rdropWhile_eq_nil_iff]
  simp

namespace ServicePrincipalName

/-- Everything but a host is sure of every accepted name. -/
theorem named_iff_host_ne_nil (name : ServicePrincipalName) :
    name.toServiceParts.Named ↔ name.host ≠ [] := by
  have hWf := name.wellFormed
  refine ⟨fun h => h.host_ne_nil, fun hHost => ?_⟩
  constructor
  case class_ne_nil => exact hWf.class_ne_nil
  case class_slash => exact hWf.class_slash
  case class_trimmed => exact trim_of_trimmed hWf.class_trimmed
  case host_ne_nil => exact hHost
  case host_slash => exact hWf.host_slash
  case host_folded => exact hWf.host_folded
  case host_end =>
    intro hLast
    have hDotless := hWf.host_dotless
    rw [trimEndMatches, List.rdropWhile_eq_self_iff] at hDotless
    rw [List.getLast?_eq_some_getLast hHost, Option.some.injEq] at hLast
    exact hDotless hHost (decide_eq_true hLast)
  case instance_ =>
    exact fun i hi => ⟨hWf.instance_ne_nil i hi, trim_of_trimmed (hWf.instance_trimmed i hi)⟩
  case realm =>
    exact fun r hr => ⟨hWf.realm_ne_nil r hr, hWf.realm_slash r hr, hWf.realm_at r hr,
      hWf.realm_folded r hr, trim_of_trimmed (hWf.realm_trimmed r hr)⟩

/-- An accepted name is that of a service on a host exactly where the text's host is not all dots. -/
theorem named_iff_namesHost {text : Text} {name : ServicePrincipalName} (h : parse text = some name) :
    name.toServiceParts.Named ↔ NamesHost text := by
  obtain ⟨division, hOf, hSpells⟩ := (parse_eq_some_iff_spells text name).mp h
  obtain ⟨host, hSpelled, _, hName⟩ := hSpells.host
  have hNames : NamesHost text ↔ ∃ c ∈ host, c ≠ '.' := by
    constructor
    · rintro ⟨other, hOther, host', port', hSpelled', hDots⟩
      obtain rfl := hOf.unique hOther
      obtain ⟨rfl, _⟩ := hSpelled.unique hSpelled'
      exact hDots
    · exact fun hDots => ⟨division, hOf, host, name.port, hSpelled, hDots⟩
  rw [named_iff_host_ne_nil, hNames, ← trimEndMatches_ne_nil_iff, hName, ne_eq,
    toAsciiLowercase_eq_nil_iff]

theorem named_iff_namesHost_http :
    ∃ name, parse "HTTP/Xmip.Example.:8443@EXAMPLE.COM".toList = some name ∧
      name.toServiceParts.Named := by
  have h : (parse "HTTP/Xmip.Example.:8443@EXAMPLE.COM".toList).isSome = true := by decide
  obtain ⟨name, hName⟩ := Option.isSome_iff_exists.mp h
  have hSpelled : HostSpelled (trim "Xmip.Example.:8443".toList) "Xmip.Example.".toList (some 8443) :=
    (cutPort_eq_some_iff _ _ _).mp (by decide)
  have hHost : NamesHost "HTTP/Xmip.Example.:8443@EXAMPLE.COM".toList :=
    ⟨⟨"HTTP".toList, "Xmip.Example.:8443".toList, none, some "EXAMPLE.COM".toList⟩,
      ⟨by decide, by decide, by decide, by decide, by decide⟩, _, _, hSpelled, 'X', by decide,
      by decide⟩
  exact ⟨name, hName, (named_iff_namesHost hName).mpr hHost⟩

/-- A host of dots alone is tested before it is empty. -/
theorem parse_hostless :
    ¬ ∀ text name, parse text = some name → name.toServiceParts.Named := by
  intro h
  have hNamed := h "HTTP/.".toList ((parse "HTTP/.".toList).get (by decide)) (Option.some_get _).symm
  exact absurd hNamed.host_ne_nil (by decide)

end ServicePrincipalName

/-- The parts of a name as the forms write them. -/
structure Documented (class_ host : Text) (instance_ realm : Option Text) : Prop where
  class_ne_nil : class_ ≠ []
  class_plain : '/' ∉ class_ ∧ '@' ∉ class_
  class_trimmed : trim class_ = class_
  host_plain : '/' ∉ host ∧ ':' ∉ host ∧ '@' ∉ host
  host_spaceless : ∀ c ∈ host, isWhitespace c = false
  host_named : ∃ c ∈ host, c ≠ '.'
  instance_ : ∀ i ∈ instance_, i ≠ [] ∧ '@' ∉ i ∧ trim i = i
  realm : ∀ r ∈ realm, r ≠ [] ∧ '/' ∉ r ∧ '@' ∉ r ∧ trim r = r

open ServicePrincipalName (portText cutPort_append not_mem_portText)

/-- `class/host[:port][/instance][@realm]`. -/
def documented (class_ host : Text) (port : Option UInt16) (instance_ realm : Option Text) : Text :=
  class_ ++ '/' :: (host ++ portText port ++ (slashed instance_ ++ attached realm))

/-- The parts such a text is read into. -/
def documentedParts (class_ host : Text) (port : Option UInt16) (instance_ realm : Option Text) :
    ServiceParts where
  class_ := class_
  host := toAsciiLowercase (trimEndMatches '.' host)
  port := port
  instance_ := instance_
  realm := realm.map toAsciiLowercase

namespace Documented

variable {class_ host : Text} {instance_ realm : Option Text}
  (form : Documented class_ host instance_ realm) (port : Option UInt16)
include form

theorem host_ne_nil : host ≠ [] := by
  obtain ⟨c, hc, _⟩ := form.host_named
  exact List.ne_nil_of_mem hc

theorem hostPort_trimmed : Trimmed isWhitespace (host ++ portText port) := by
  apply Trimmed.of_forall
  intro c hc
  rcases List.mem_append.mp hc with hc | hc
  · exact form.host_spaceless c hc
  · cases port with
    | none => cases hc
    | some n =>
      rcases List.mem_cons.mp hc with rfl | hc
      · decide
      · exact not_isWhitespace_showU16 hc

/-- The text begins with its class and ends with its last part, and both are trimmed. -/
theorem trim_documented :
    trim (documented class_ host port instance_ realm) = documented class_ host port instance_ realm := by
  have hClass := (ListTrim.trim_eq_self_iff isWhitespace class_).mp form.class_trimmed
  have hHost := form.host_ne_nil
  apply trim_of_trimmed
  cases hRealm : realm with
  | some r =>
    obtain ⟨hNe, _, _, hTrim⟩ := form.realm r hRealm
    have h := hClass.append _ ((ListTrim.trim_eq_self_iff isWhitespace r).mp hTrim) form.class_ne_nil hNe
      ('/' :: (host ++ portText port ++ (slashed instance_ ++ ['@'])))
    simpa [documented, attached] using h
  | none =>
    cases hInstance : instance_ with
    | some i =>
      obtain ⟨hNe, _, hTrim⟩ := form.instance_ i hInstance
      have h := hClass.append _ ((ListTrim.trim_eq_self_iff isWhitespace i).mp hTrim) form.class_ne_nil
        hNe ('/' :: (host ++ portText port ++ ['/']))
      simpa [documented, attached, slashed] using h
    | none =>
      have h := hClass.append _ (form.hostPort_trimmed port) form.class_ne_nil
        (List.append_ne_nil_of_left_ne_nil hHost _) ['/']
      simpa [documented, attached, slashed] using h

theorem cut_documented :
    ServicePieces.cut (documented class_ host port instance_ realm) =
      some ⟨class_, host ++ portText port, instance_, realm⟩ := by
  have hPort (d : Char) (hd : d ∉ host) (hDigit : isAsciiDigit d = false) (hColon : d ≠ ':') :
      d ∉ host ++ portText port := by
    rw [List.mem_append, not_or]
    exact ⟨hd, not_mem_portText hDigit hColon port⟩
  have hAt : '@' ∉ host ++ portText port ++ slashed instance_ := by
    rw [List.mem_append, not_or]
    refine ⟨hPort '@' form.host_plain.2.2 (by decide) (by decide), ?_⟩
    cases hInstance : instance_ with
    | none => simp [slashed]
    | some i => simp [slashed, (form.instance_ i hInstance).2.1]
  have hRealm : realm.map trim = realm := by
    cases hr : realm with
    | none => rfl
    | some r => rw [Option.map_some, (form.realm r hr).2.2.2]
  have hCut : ServicePieces.cut (documented class_ host port instance_ realm) =
      some ⟨class_, host ++ portText port, instance_, realm.map trim⟩ :=
    cut_joinPieces form.class_plain.1 (hPort '/' form.host_plain.1 (by decide) (by decide))
      (fun r hr => ⟨(form.realm r hr).2.2.1, (form.realm r hr).2.1⟩)
      (fun _ hMem => hAt (mem_of_mem_lastPiece hMem))
  rw [hCut, hRealm]

theorem parse_documented {u w : Text} (hu : ∀ c ∈ u, isWhitespace c = true)
    (hw : ∀ c ∈ w, isWhitespace c = true) :
    ServiceParts.parse (u ++ (documented class_ host port instance_ realm ++ w)) =
      some (documentedParts class_ host port instance_ realm) := by
  rw [ServiceParts.parse, trim_surround hu hw, form.trim_documented port, form.cut_documented port,
    Option.bind_some, assemble_eq_some_iff]
  refine ⟨host, port, ?_, ?_, form.host_ne_nil, ?_⟩
  · rw [trim_of_trimmed (form.hostPort_trimmed port)]
    exact cutPort_append fun _ => form.host_plain.2.1
  · rw [form.class_trimmed]
    exact form.class_ne_nil
  · have hInstance : (instance_.map trim).filter nonempty = instance_ := by
      cases hi : instance_ with
      | none => rfl
      | some i =>
        obtain ⟨hNe, _, hTrim⟩ := form.instance_ i hi
        simp [hTrim, nonempty, hNe]
    have hRealm : realm.filter nonempty = realm := by
      cases hr : realm with
      | none => rfl
      | some r => simp [nonempty, (form.realm r hr).1]
    rw [hInstance, hRealm, form.class_trimmed]
    rfl

end Documented

/-- A documented form is read into its parts, with any whitespace around it; where it has a realm
it is what Kerberos writes of the components, so a ticket for them is read into the same parts. -/
theorem documented_form_is_read {class_ host : Text} {instance_ realm : Option Text}
    (form : Documented class_ host instance_ realm) (port : Option UInt16) :
    (∀ u w : Text, (∀ c ∈ u, isWhitespace c = true) → (∀ c ∈ w, isWhitespace c = true) →
      ∃ name,
        ServicePrincipalName.parse (u ++ (documented class_ host port instance_ realm ++ w)) = some name ∧
        name.toServiceParts = documentedParts class_ host port instance_ realm) ∧
    ∀ r, realm = some r →
      Kerberos.written (class_ :: (host ++ portText port) :: instance_.toList) r =
        documented class_ host port instance_ realm ∧
      ∀ ticket : Kerberos.Ticket,
        ticket.service = class_ :: (host ++ portText port) :: instance_.toList → ticket.realm = r →
        ∃ name, ServicePrincipalName.parse ticket.servicePrincipal = some name ∧
          name.toServiceParts = documentedParts class_ host port instance_ realm := by
  have hRead (u w : Text) (hu : ∀ c ∈ u, isWhitespace c = true) (hw : ∀ c ∈ w, isWhitespace c = true) :
      ∃ name,
        ServicePrincipalName.parse (u ++ (documented class_ host port instance_ realm ++ w)) = some name ∧
        name.toServiceParts = documentedParts class_ host port instance_ realm := by
    have hParse := form.parse_documented port hu hw
    exact ⟨⟨_, ServiceParts.wellFormed_of_parse hParse⟩,
      (ServicePrincipalName.parse_eq_some_iff _ _).mpr hParse, rfl⟩
  refine ⟨hRead, ?_⟩
  rintro r rfl
  have hWritten : Kerberos.written (class_ :: (host ++ portText port) :: instance_.toList) r =
      documented class_ host port instance_ (some r) := by
    cases instance_ with
    | none => simp [Kerberos.written, documented, slashed, attached, List.intercalate]
    | some i => simp [Kerberos.written, documented, slashed, attached, List.intercalate]
  refine ⟨hWritten, ?_⟩
  intro ticket hService hTicketRealm
  have hNone : ∀ c ∈ ([] : Text), isWhitespace c = true := by simp
  have h := hRead [] [] hNone hNone
  rw [List.nil_append, List.append_nil] at h
  rwa [Kerberos.Ticket.servicePrincipal, hService, hTicketRealm, hWritten]

theorem documented_form_is_read_sql :
    ∃ name, ServicePrincipalName.parse "MSSQLSvc/db01.example:1433/a/b@EXAMPLE.COM".toList = some name ∧
      name.toServiceParts = documentedParts "MSSQLSvc".toList "db01.example".toList (some 1433)
        (some "a/b".toList) (some "EXAMPLE.COM".toList) := by
  have form : Documented "MSSQLSvc".toList "db01.example".toList (some "a/b".toList)
      (some "EXAMPLE.COM".toList) := by
    constructor
    case class_ne_nil => decide
    case class_plain => decide
    case class_trimmed => decide
    case host_plain => decide
    case host_spaceless => exact forall_of_all (by decide)
    case host_named => exact ⟨'d', by decide, by decide⟩
    case instance_ =>
      rintro i ⟨⟩
      decide
    case realm =>
      rintro r ⟨⟩
      decide
  have hNone : ∀ c ∈ ([] : Text), isWhitespace c = true := by simp
  exact (documented_form_is_read form (some 1433)).1 [] [] hNone hNone

end XmipIdentify
