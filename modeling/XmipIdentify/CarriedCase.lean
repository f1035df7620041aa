import XmipIdentify.JwtClaims
import XmipIdentify.Kerberos.Ticket
import XmipIdentify.Principal.Sameness
import XmipIdentify.Saml

/-!
# Letter case in what is carried

A token, an assertion and a ticket each carry their principal as text. What two
of them carry may differ in letter case: both then name somebody or neither
does, and it is the same account or a service of the same host.
-/

namespace XmipIdentify

open Str

set_option autoImplicit false

/-- Two names that letter case alone tells apart, where they keep it. -/
inductive PrincipalName.Recased : PrincipalName → PrincipalName → Prop where
  | user {a b : UserPrincipalName} (same : a.is b = true) : Recased (.user a) (.user b)
  | service {a b : ServicePrincipalName} (host : a.host = b.host) (port : a.port = b.port)
      (realm : a.realm = b.realm) (class_ : toAsciiLowercase a.class_ = toAsciiLowercase b.class_)
      (instance_ : a.instance_.map toAsciiLowercase = b.instance_.map toAsciiLowercase) :
      Recased (.service a) (.service b)

/-- Two texts, or none at all, that are one but for letter case. -/
def SameLetters (a b : Option Text) : Prop := a.map toAsciiLowercase = b.map toAsciiLowercase

theorem rel_map {α β : Type} {R : α → α → Prop} {S : β → β → Prop} {f : α → β}
    (hf : ∀ a b, R a b → S (f a) (f b)) {a b : Option α} (h : Option.Rel R a b) :
    Option.Rel S (a.map f) (b.map f) := by
  cases h with
  | none => exact .none
  | some h => exact .some (hf _ _ h)

theorem rel_or {α : Type} {R : α → α → Prop} {a b c d : Option α} (h : Option.Rel R a b)
    (h' : Option.Rel R c d) : Option.Rel R (a.or c) (b.or d) := by
  cases h with
  | none => exact h'
  | some h => exact .some h

/-- A reader that folding does not disturb reads alike of what is alike. -/
theorem rel_bind {α : Type} {R : α → α → Prop} {read : Text → Option α}
    (hRead : ∀ text text', toAsciiLowercase text = toAsciiLowercase text' →
      Option.Rel R (read text) (read text'))
    {a b : Option Text} (h : SameLetters a b) : Option.Rel R (a.bind read) (b.bind read) := by
  cases a with
  | none =>
    obtain rfl := Option.map_eq_none_iff.mp h.symm
    exact .none
  | some text =>
    obtain ⟨text', rfl, hText⟩ := Option.map_eq_some_iff.mp h.symm
    exact hRead text text' hText.symm

theorem SameLetters.eq_none_iff {a b : Option Text} (h : SameLetters a b) : a = none ↔ b = none := by
  rw [← Option.map_eq_none_iff (f := toAsciiLowercase) (x := a), h, Option.map_eq_none_iff]

theorem UserPrincipalName.rel_parse (text text' : Text)
    (h : toAsciiLowercase text = toAsciiLowercase text') :
    Option.Rel (fun a b => a.is b = true) (parse text) (parse text') := by
  cases hText : parse text with
  | some name =>
    obtain ⟨name', hName', hFolded⟩ := exists_parse_of_fold h hText
    rw [hName']
    exact .some ((is_iff_folded name name').mpr hFolded.symm)
  | none =>
    cases hText' : parse text' with
    | none => exact .none
    | some name' =>
      obtain ⟨name, hName, _⟩ := exists_parse_of_fold h.symm hText'
      cases hText.symm.trans hName

theorem ServicePrincipalName.rel_parse (text text' : Text)
    (h : toAsciiLowercase text = toAsciiLowercase text') :
    Option.Rel (fun a b => PrincipalName.Recased (.service a) (.service b)) (parse text)
      (parse text') := by
  cases hText : parse text with
  | some name =>
    obtain ⟨name', hName', hFolded⟩ := exists_parse_of_fold h hText
    obtain ⟨hClass, hHost, hPort, hInstance, hRealm⟩ := ServiceParts.mk.inj hFolded.symm
    rw [hName']
    exact .some (.service hHost hPort hRealm hClass hInstance)
  | none =>
    cases hText' : parse text' with
    | none => exact .none
    | some name' =>
      obtain ⟨name, hName, _⟩ := exists_parse_of_fold h.symm hText'
      cases hText.symm.trans hName

theorem PrincipalName.rel_parse (text text' : Text)
    (h : toAsciiLowercase text = toAsciiLowercase text') :
    Option.Rel Recased (parse text) (parse text') := by
  have hSlash : '/' ∈ text ↔ '/' ∈ text' := by
    rw [← mem_toAsciiLowercase_iff (d := '/') (by decide) (by decide), h,
      mem_toAsciiLowercase_iff (by decide) (by decide)]
  by_cases hMem : '/' ∈ text
  · rw [parse_of_mem hMem, parse_of_mem (hSlash.mp hMem)]
    exact rel_map (R := fun a b => Recased (.service a) (.service b)) (fun _ _ h => h)
      (ServicePrincipalName.rel_parse text text' h)
  · rw [parse_of_not_mem hMem, parse_of_not_mem (mt hSlash.mpr hMem)]
    exact rel_map (fun _ _ h => .user h) (UserPrincipalName.rel_parse text text' h)

/-- Folding a service's text folds its parts. -/
theorem ServicePrincipalName.toAsciiLowercase_fmt (name : ServicePrincipalName) :
    toAsciiLowercase name.fmt = toAsciiLowercase name.class_ ++ '/' ::
      (toAsciiLowercase name.host ++ (toAsciiLowercase (portText name.port) ++
        (slashed (name.instance_.map toAsciiLowercase) ++
          attached (name.realm.map toAsciiLowercase)))) := by
  have hSlashed : toAsciiLowercase (slashed name.instance_) =
      slashed (name.instance_.map toAsciiLowercase) := by
    cases name.instance_ <;> rfl
  have hAttached : toAsciiLowercase (attached name.realm) =
      attached (name.realm.map toAsciiLowercase) := by
    cases name.realm <;> rfl
  rw [← hSlashed, ← hAttached, fmt]
  simp only [toAsciiLowercase, List.map_append, List.map_cons]
  rfl

/-- On the record they are put under one name, as texts that differ in letter case alone. -/
theorem PrincipalName.Recased.written {a b : PrincipalName} (h : a.Recased b) :
    a.evidence = b.evidence ∧ toAsciiLowercase a.fmt = toAsciiLowercase b.fmt := by
  cases h with
  | @user a b same =>
    exact ⟨rfl, (UserPrincipalName.toAsciiLowercase_fmt_eq_iff a b).mpr
      ((UserPrincipalName.is_iff_folded a b).mp same)⟩
  | @service a b host port realm class_ instance_ =>
    refine ⟨rfl, ?_⟩
    rw [fmt, fmt, a.toAsciiLowercase_fmt, b.toAsciiLowercase_fmt, host, port, realm, class_,
      instance_]

theorem Compact.rel_principal {a b : Compact} (hType : a.claim "idtyp".toList = b.claim "idtyp".toList)
    (hClaims : ∀ name ∈ ["upn", "preferred_username", "azp", "appid"],
      SameLetters (a.claim name.toList) (b.claim name.toList)) :
    Option.Rel PrincipalName.Recased a.principal b.principal := by
  simp only [List.forall_mem_cons] at hClaims
  obtain ⟨hUpn, hPreferred, hAzp, hAppid, _⟩ := hClaims
  have hKind : a.NamesUser ↔ b.NamesUser := by
    rw [NamesUser, NamesUser, hType, ne_eq, ne_eq, ne_eq, ne_eq, ne_eq, hUpn.eq_none_iff,
      hPreferred.eq_none_iff]
  by_cases hUser : a.NamesUser
  · rw [hUser.principal_eq, (hKind.mp hUser).principal_eq]
    exact rel_map (fun _ _ same => .user same)
      (rel_or (rel_bind UserPrincipalName.rel_parse hUpn)
        (rel_bind UserPrincipalName.rel_parse hPreferred))
  · rw [principal_eq_of_not_namesUser hUser, principal_eq_of_not_namesUser (mt hKind.mpr hUser)]
    exact rel_map (R := fun a b => PrincipalName.Recased (.service a) (.service b)) (fun _ _ h => h)
      (rel_or (rel_bind ServicePrincipalName.rel_parse hAzp)
        (rel_bind ServicePrincipalName.rel_parse hAppid))

theorem Saml.rel_userPrincipal {nameId nameId' : Text} {format format' upn upn' : Option Text}
    (hName : toAsciiLowercase nameId = toAsciiLowercase nameId')
    (hFormat : format.map trim = format'.map trim) (hUpn : SameLetters upn upn') :
    Option.Rel (fun a b => a.is b = true) (userPrincipal nameId format upn)
      (userPrincipal nameId' format' upn') := by
  have hTrimmed (text text' : Text) (h : toAsciiLowercase text = toAsciiLowercase text') :
      Option.Rel (fun a b => a.is b = true) (UserPrincipalName.parse (trim text))
        (UserPrincipalName.parse (trim text')) := by
    apply UserPrincipalName.rel_parse
    rw [← trim_toAsciiLowercase, h, trim_toAsciiLowercase]
  have hNaming : format.all (fun format => NAMING_FORMATS.contains (trim format)) =
      format'.all fun format => NAMING_FORMATS.contains (trim format) := by
    have hAll (f : Option Text) : f.all (fun format => NAMING_FORMATS.contains (trim format)) =
        (f.map trim).all NAMING_FORMATS.contains := by
      cases f <;> rfl
    rw [hAll, hFormat, ← hAll]
  rw [userPrincipal, userPrincipal, hNaming]
  refine rel_or ?_ (rel_bind hTrimmed hUpn)
  split
  · exact hTrimmed nameId nameId' hName
  · exact .none

theorem Kerberos.toAsciiLowercase_written (components : List Text) (realm : Text) :
    toAsciiLowercase (written components realm) =
      written (components.map toAsciiLowercase) (toAsciiLowercase realm) := by
  have hJoin : toAsciiLowercase (['/'].intercalate components) =
      ['/'].intercalate (components.map toAsciiLowercase) :=
    ListCut.map_intercalate charToAsciiLowercase '/' components
  rw [written, written, ← hJoin]
  exact List.map_append

/-- Letter case decides neither whether a token, an assertion or a ticket names somebody nor whom:
it is the same account, or a service of the same host, port and realm, and one record beside the
other differs in letter case alone. The type of the token is held fixed, and so is the format of
the `NameID`: both are compared as they stand. -/
theorem case_never_decides_carried :
    (∀ a b : Compact, a.claim "idtyp".toList = b.claim "idtyp".toList →
      (∀ name ∈ ["upn", "preferred_username", "azp", "appid"],
        SameLetters (a.claim name.toList) (b.claim name.toList)) →
      Option.Rel PrincipalName.Recased a.principal b.principal) ∧
    (∀ (nameId nameId' : Text) (format format' upn upn' : Option Text),
      toAsciiLowercase nameId = toAsciiLowercase nameId' → format.map trim = format'.map trim →
      SameLetters upn upn' →
      Option.Rel (fun a b => a.is b = true) (Saml.userPrincipal nameId format upn)
        (Saml.userPrincipal nameId' format' upn')) ∧
    (∀ a b : Kerberos.Ticket,
      a.service.map toAsciiLowercase = b.service.map toAsciiLowercase →
      toAsciiLowercase a.realm = toAsciiLowercase b.realm →
      Option.Rel PrincipalName.Recased (PrincipalName.parse a.servicePrincipal)
        (PrincipalName.parse b.servicePrincipal)) ∧
    ∀ a b : PrincipalName, a.Recased b →
      a.evidence = b.evidence ∧ toAsciiLowercase a.fmt = toAsciiLowercase b.fmt := by
  refine ⟨fun _ _ hType hClaims => Compact.rel_principal hType hClaims,
    fun _ _ _ _ _ _ hName hFormat hUpn => Saml.rel_userPrincipal hName hFormat hUpn, ?_,
    fun _ _ h => h.written⟩
  intro a b hService hRealm
  apply PrincipalName.rel_parse
  rw [Kerberos.Ticket.servicePrincipal, Kerberos.Ticket.servicePrincipal,
    Kerberos.toAsciiLowercase_written, Kerberos.toAsciiLowercase_written, hService, hRealm]

/-- One service by two tickets whose names differ in case. -/
theorem case_never_decides_carried_http :
    let ticket (service : List Text) (realm : Text) : Kerberos.Ticket :=
      { realm, service, encryptionType := 18, keyVersion := none, cipher := [] }
    Option.Rel PrincipalName.Recased
      (PrincipalName.parse (ticket ["HTTP".toList, "xmip.example".toList]
        "EXAMPLE.COM".toList).servicePrincipal)
      (PrincipalName.parse (ticket ["http".toList, "XMIP.example".toList]
        "Example.Com".toList).servicePrincipal) := by
  intro ticket
  exact case_never_decides_carried.2.2.1 _ _ (by decide) (by decide)

end XmipIdentify
