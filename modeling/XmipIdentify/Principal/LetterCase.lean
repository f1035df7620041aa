import XmipIdentify.Principal.Kinds

/-!
# Letter case

Every separator, every trimmed character and every test of the two readers is
blind to letter case. So a folded text is read as the text is, up to the parts
a name keeps as they were written.
-/

namespace XmipIdentify

open Str ListCut

set_option autoImplicit false

/-- What letter case leaves of a user name. -/
def UserPrincipalName.folded (name : UserPrincipalName) : Text × Text :=
  (toAsciiLowercase name.user, name.domain)

/-- What letter case leaves of a service name: the class and the instance are kept as written. -/
def ServiceParts.folded (parts : ServiceParts) : ServiceParts :=
  { parts with
    class_ := toAsciiLowercase parts.class_
    instance_ := parts.instance_.map toAsciiLowercase }

def ServicePieces.folded (pieces : ServicePieces) : ServicePieces where
  class_ := toAsciiLowercase pieces.class_
  host := toAsciiLowercase pieces.host
  instance_ := pieces.instance_.map toAsciiLowercase
  realm := pieces.realm.map toAsciiLowercase

theorem splitOnce_toAsciiLowercase {sep : Char} (hUpper : isAsciiUppercase sep = false)
    (hLower : isAsciiLowercase sep = false) (text : Text) :
    splitOnce sep (toAsciiLowercase text) =
      (splitOnce sep text).map fun (before, after) => (toAsciiLowercase before, toAsciiLowercase after) :=
  splitOnce_map (fun _ => charToAsciiLowercase_eq_iff hUpper hLower) text

theorem rsplitOnce_toAsciiLowercase {sep : Char} (hUpper : isAsciiUppercase sep = false)
    (hLower : isAsciiLowercase sep = false) (text : Text) :
    rsplitOnce sep (toAsciiLowercase text) =
      (rsplitOnce sep text).map fun (before, after) => (toAsciiLowercase before, toAsciiLowercase after) :=
  rsplitOnce_map (fun _ => charToAsciiLowercase_eq_iff hUpper hLower) text

theorem isEmpty_toAsciiLowercase (text : Text) : (toAsciiLowercase text).isEmpty = text.isEmpty :=
  List.isEmpty_map

theorem userAccepted_toAsciiLowercase_iff (user domain : Text) :
    UserAccepted (toAsciiLowercase user) (toAsciiLowercase domain) ↔ UserAccepted user domain := by
  have hPlain : (∀ c ∈ toAsciiLowercase domain, plain c = true) ↔ ∀ c ∈ domain, plain c = true := by
    simp [toAsciiLowercase]
  have hMem {d : Char} (hUpper : isAsciiUppercase d = false) (hLower : isAsciiLowercase d = false) :
      d ∉ toAsciiLowercase user ↔ d ∉ user := not_congr (mem_toAsciiLowercase_iff hUpper hLower user)
  constructor
  · intro h
    exact ⟨(not_congr (toAsciiLowercase_eq_nil_iff user)).mp h.user_ne_nil,
      (not_congr (toAsciiLowercase_eq_nil_iff domain)).mp h.domain_ne_nil, hPlain.mp h.domain_plain,
      (hMem (by decide) (by decide)).mp h.user_backslash, (hMem (by decide) (by decide)).mp h.user_slash⟩
  · intro h
    exact ⟨(not_congr (toAsciiLowercase_eq_nil_iff user)).mpr h.user_ne_nil,
      (not_congr (toAsciiLowercase_eq_nil_iff domain)).mpr h.domain_ne_nil, hPlain.mpr h.domain_plain,
      (hMem (by decide) (by decide)).mpr h.user_backslash, (hMem (by decide) (by decide)).mpr h.user_slash⟩

namespace UserPrincipalName

theorem map_folded_of_eq_some_iff (user domain : Text) (pair : Text × Text) :
    (of user domain).map folded = some pair ↔
      UserAccepted (trim user) (trimEndMatches '.' (trim domain)) ∧
        pair = (toAsciiLowercase (trim user), toAsciiLowercase (trimEndMatches '.' (trim domain))) := by
  rw [Option.map_eq_some_iff]
  constructor
  · rintro ⟨name, hOf, rfl⟩
    obtain ⟨hAccepted, hUser, hDomain⟩ := (of_eq_some_iff user domain name).mp hOf
    exact ⟨hAccepted, by rw [folded, hUser, hDomain]⟩
  · rintro ⟨hAccepted, rfl⟩
    exact ⟨⟨_, _, hAccepted.wellFormed⟩, (of_eq_some_iff user domain _).mpr ⟨hAccepted, rfl, rfl⟩, rfl⟩

theorem map_folded_of (user domain : Text) :
    (of (toAsciiLowercase user) (toAsciiLowercase domain)).map folded = (of user domain).map folded := by
  apply Option.ext
  intro pair
  rw [map_folded_of_eq_some_iff, map_folded_of_eq_some_iff, trim_toAsciiLowercase,
    trim_toAsciiLowercase, trimEndMatches_toAsciiLowercase (by decide) (by decide),
    userAccepted_toAsciiLowercase_iff, toAsciiLowercase_idem, toAsciiLowercase_idem]

theorem map_folded_parse (text : Text) :
    (parse (toAsciiLowercase text)).map folded = (parse text).map folded := by
  rw [parse, parse, trim_toAsciiLowercase, splitOnce_toAsciiLowercase (by decide) (by decide),
    rsplitOnce_toAsciiLowercase (by decide) (by decide)]
  cases splitOnce '\\' (trim text) with
  | some cut => exact map_folded_of cut.2 cut.1
  | none =>
    cases rsplitOnce '@' (trim text) with
    | none => rfl
    | some cut => exact map_folded_of cut.1 cut.2

/-- Texts that fold alike are both read or neither is, to one domain and one folded user. -/
theorem exists_parse_of_fold {text text' : Text} (h : toAsciiLowercase text = toAsciiLowercase text')
    {name : UserPrincipalName} (hParse : parse text = some name) :
    ∃ name', parse text' = some name' ∧ name'.folded = name.folded := by
  have hFolded := map_folded_parse text
  rw [h, map_folded_parse text', hParse] at hFolded
  exact Option.map_eq_some_iff.mp hFolded

end UserPrincipalName

theorem cutRealm_toAsciiLowercase (text : Text) :
    cutRealm (toAsciiLowercase text) =
      (toAsciiLowercase (cutRealm text).1, (cutRealm text).2.map toAsciiLowercase) := by
  rw [cutRealm, cutRealm, rsplitOnce_toAsciiLowercase (by decide) (by decide)]
  cases rsplitOnce '@' text with
  | none => rfl
  | some cut =>
    obtain ⟨name, realm⟩ := cut
    have hSlash : (toAsciiLowercase realm).contains '/' = realm.contains '/' := by
      rw [Bool.eq_iff_iff, List.contains_iff_mem, List.contains_iff_mem]
      exact mem_toAsciiLowercase_iff (by decide) (by decide) realm
    simp only [Option.map_some, hSlash, trim_toAsciiLowercase]
    split
    · rfl
    · rfl

theorem cutName_toAsciiLowercase (realm : Option Text) (name : Text) :
    cutName (realm.map toAsciiLowercase) (toAsciiLowercase name) =
      (cutName realm name).map ServicePieces.folded := by
  have hCut : splitn '/' 3 (toAsciiLowercase name) = (splitn '/' 3 name).map toAsciiLowercase :=
    splitn_map (fun _ => charToAsciiLowercase_eq_iff (by decide) (by decide)) 3 name
  rw [cutName, cutName, hCut]
  rcases splitn_three_cases '/' name with ⟨_, hName⟩ | ⟨c, h, _, _, _, hName⟩ | ⟨c, h, i, _, _, _, hName⟩
  · rw [hName]
    rfl
  · rw [hName]
    rfl
  · rw [hName]
    rfl

theorem cut_toAsciiLowercase (text : Text) :
    ServicePieces.cut (toAsciiLowercase text) = (ServicePieces.cut text).map ServicePieces.folded := by
  rw [ServicePieces.cut, cutRealm_toAsciiLowercase, cutName_toAsciiLowercase, ServicePieces.cut]

theorem cutPort_toAsciiLowercase (host : Text) :
    cutPort (toAsciiLowercase host) =
      (cutPort host).map fun (host, port) => (toAsciiLowercase host, port) := by
  rw [cutPort, cutPort, rsplitOnce_toAsciiLowercase (by decide) (by decide)]
  cases rsplitOnce ':' host with
  | none => rfl
  | some cut =>
    obtain ⟨before, digits⟩ := cut
    simp only [Option.map_some, parseU16_toAsciiLowercase, Option.map_map]
    rfl

theorem assemble_folded (pieces : ServicePieces) :
    pieces.folded.assemble = pieces.assemble.map ServiceParts.folded := by
  have hFilter (part : Option Text) :
      (part.map toAsciiLowercase).filter nonempty = (part.filter nonempty).map toAsciiLowercase := by
    cases part with
    | none => rfl
    | some text => simp [Option.filter, nonempty, isEmpty_toAsciiLowercase, apply_ite]
  rw [ServicePieces.assemble, ServicePieces.assemble]
  simp only [ServicePieces.folded, trim_toAsciiLowercase, cutPort_toAsciiLowercase]
  cases cutPort (trim pieces.host) with
  | none => rfl
  | some cut =>
    obtain ⟨host, port⟩ := cut
    simp only [Option.map_some, isEmpty_toAsciiLowercase]
    split
    · rfl
    · have hHost : toAsciiLowercase (trimEndMatches '.' (toAsciiLowercase host)) =
          toAsciiLowercase (trimEndMatches '.' host) := by
        rw [trimEndMatches_toAsciiLowercase (by decide) (by decide), toAsciiLowercase_idem]
      have hInstance : ((pieces.instance_.map toAsciiLowercase).map trim).filter nonempty =
          ((pieces.instance_.map trim).filter nonempty).map toAsciiLowercase := by
        rw [← hFilter, Option.map_map, Option.map_map]
        congr 2
        funext text
        exact trim_toAsciiLowercase text
      have hRealm : ((pieces.realm.map toAsciiLowercase).filter nonempty).map toAsciiLowercase =
          (pieces.realm.filter nonempty).map toAsciiLowercase := by
        rw [hFilter, Option.map_map]
        congr 1
        funext text
        exact toAsciiLowercase_idem text
      rw [hHost, hInstance, hRealm]
      rfl

theorem ServiceParts.parse_toAsciiLowercase (text : Text) :
    parse (toAsciiLowercase text) = (parse text).map folded := by
  rw [parse, parse, trim_toAsciiLowercase, cut_toAsciiLowercase, Option.map_bind]
  cases ServicePieces.cut (trim text) with
  | none => rfl
  | some pieces => exact assemble_folded pieces

theorem ServicePrincipalName.exists_parse_of_fold {text text' : Text}
    (h : toAsciiLowercase text = toAsciiLowercase text') {name : ServicePrincipalName}
    (hParse : parse text = some name) :
    ∃ name', parse text' = some name' ∧ name'.toServiceParts.folded = name.toServiceParts.folded := by
  have hFolded := ServiceParts.parse_toAsciiLowercase text
  rw [h, ServiceParts.parse_toAsciiLowercase text', (parse_eq_some_iff text name).mp hParse] at hFolded
  obtain ⟨parts, hParts, hEq⟩ := Option.map_eq_some_iff.mp hFolded
  exact ⟨⟨parts, ServiceParts.wellFormed_of_parse hParts⟩, (parse_eq_some_iff _ _).mpr hParts, hEq⟩

/-- Of two services in one realm or in none, `is` compares what remains. -/
theorem ServicePrincipalName.is_iff_of_realm_eq {name other : ServicePrincipalName}
    (h : name.realm = other.realm) :
    name.is other = true ↔ name.class_ = other.class_ ∧ name.host = other.host ∧
      name.port = other.port ∧ name.instance_ = other.instance_ := by
  rw [is, h]
  cases other.realm with
  | none => simp [and_assoc]
  | some realm => simp [and_assoc]

theorem PrincipalName.parse_eq_none_of_fold {text text' : Text}
    (h : toAsciiLowercase text = toAsciiLowercase text') (hNone : parse text = none) :
    parse text' = none := by
  obtain ⟨hUser, hService⟩ := (parse_eq_none_iff text).mp hNone
  rw [parse_eq_none_iff, Option.eq_none_iff_forall_ne_some, Option.eq_none_iff_forall_ne_some]
  constructor
  · intro name hName
    obtain ⟨other, hOther, _⟩ := UserPrincipalName.exists_parse_of_fold h.symm hName
    rw [hUser] at hOther
    cases hOther
  · intro name hName
    obtain ⟨other, hOther, _⟩ := ServicePrincipalName.exists_parse_of_fold h.symm hName
    rw [hService] at hOther
    cases hOther

/-- Two texts that differ in letter case alone name one kind or nothing; users share their domain
and are the same account, services share host, port and realm and are the same service exactly
where class and instance are written alike. -/
theorem case_never_decides {text text' : Text} (h : toAsciiLowercase text = toAsciiLowercase text') :
    (PrincipalName.parse text = none ↔ PrincipalName.parse text' = none) ∧
    (∀ user, PrincipalName.parse text = some (.user user) →
      ∃ user', PrincipalName.parse text' = some (.user user') ∧ user.domain = user'.domain ∧
        user.is user' = true ∧ user'.is user = true) ∧
    ∀ service, PrincipalName.parse text = some (.service service) →
      ∃ service', PrincipalName.parse text' = some (.service service') ∧
        service.host = service'.host ∧ service.port = service'.port ∧ service.realm = service'.realm ∧
        toAsciiLowercase service.class_ = toAsciiLowercase service'.class_ ∧
        service.instance_.map toAsciiLowercase = service'.instance_.map toAsciiLowercase ∧
        (service.is service' = true ↔
          service.class_ = service'.class_ ∧ service.instance_ = service'.instance_) := by
  refine ⟨⟨PrincipalName.parse_eq_none_of_fold h, PrincipalName.parse_eq_none_of_fold h.symm⟩, ?_, ?_⟩
  · intro user hParse
    obtain ⟨user', hUser', hFolded⟩ := UserPrincipalName.exists_parse_of_fold h
      ((PrincipalName.parse_eq_user_iff text user).mp hParse)
    obtain ⟨hName, hDomain⟩ := Prod.mk.inj hFolded
    refine ⟨user', (PrincipalName.parse_eq_user_iff text' user').mpr hUser', hDomain.symm, ?_, ?_⟩
    · simp [UserPrincipalName.is, eqIgnoreAsciiCase, hDomain, hName]
    · simp [UserPrincipalName.is, eqIgnoreAsciiCase, hDomain, hName]
  · intro service hParse
    obtain ⟨service', hService', hFolded⟩ := ServicePrincipalName.exists_parse_of_fold h
      ((PrincipalName.parse_eq_service_iff text service).mp hParse)
    obtain ⟨hClass, hHost, hPort, hInstance, hRealm⟩ := ServiceParts.mk.inj hFolded.symm
    refine ⟨service', (PrincipalName.parse_eq_service_iff text' service').mpr hService', hHost, hPort,
      hRealm, hClass, hInstance, ?_⟩
    rw [ServicePrincipalName.is_iff_of_realm_eq hRealm]
    exact ⟨fun h => ⟨h.1, h.2.2.2⟩, fun h => ⟨h.1, hHost, hPort, h.2⟩⟩

theorem case_never_decides_jane :
    ∃ user', PrincipalName.parse "JANE@party-x.example".toList = some (.user user') ∧
      user'.domain = "party-x.example".toList := by
  have h : toAsciiLowercase "Jane@Party-X.Example".toList =
      toAsciiLowercase "JANE@party-x.example".toList := by decide
  let user := (UserPrincipalName.parse "Jane@Party-X.Example".toList).get (by decide)
  have hParse : PrincipalName.parse "Jane@Party-X.Example".toList = some (.user user) := by decide
  obtain ⟨user', hUser', hDomain, _⟩ := (case_never_decides h).2.1 user hParse
  refine ⟨user', hUser', ?_⟩
  rw [← hDomain]
  decide

end XmipIdentify
