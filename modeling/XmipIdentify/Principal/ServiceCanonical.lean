import XmipIdentify.Principal.ServiceRead

/-!
# Reading a service name back from its canonical text

`Display` writes the five parts unescaped. Two things can then be misread: a
host left with trailing space once its dots are dropped, and, where no realm
is written, an `@` after the last `/`, which reads as one.
-/

namespace XmipIdentify

open Str ListCut
open ListTrim (Trimmed)

set_option autoImplicit false

namespace ServicePrincipalName

theorem fmt_eq (name : ServicePrincipalName) :
    name.fmt = joinPieces name.class_ (name.host ++ portText name.port) name.instance_ name.realm := by
  simp [fmt, joinPieces]

theorem not_mem_portText {d : Char} (hDigit : isAsciiDigit d = false) (hColon : d ≠ ':')
    (port : Option UInt16) : d ∉ portText port := by
  cases port with
  | none => simp [portText]
  | some n =>
    simp only [portText, List.mem_cons, not_or]
    refine ⟨hColon, fun hMem => ?_⟩
    rw [isAsciiDigit_of_mem_showU16 hMem] at hDigit
    cases hDigit

theorem host_port_slash (name : ServicePrincipalName) : '/' ∉ name.host ++ portText name.port := by
  rw [List.mem_append, not_or]
  exact ⟨name.wellFormed.host_slash, not_mem_portText (by decide) (by decide) _⟩

/-- What the outer trim makes of a written name: it can reach the host and port only. -/
theorem exists_trim_fmt (name : ServicePrincipalName) (hHost : name.host ≠ []) :
    ∃ hp, trim name.fmt = joinPieces name.class_ hp name.instance_ name.realm ∧
      trim hp = trim (name.host ++ portText name.port) ∧ hp <+: name.host ++ portText name.port ∧
      ('@' ∈ hp ↔ '@' ∈ name.host ++ portText name.port) := by
  have hWf := name.wellFormed
  have hHead : ∀ c ∈ (name.host ++ portText name.port).head?, isWhitespace c = false := by
    rw [List.head?_append_of_ne_nil _ hHost]
    exact hWf.host_head
  have hpNe : name.host ++ portText name.port ≠ [] := by simp [hHost]
  rw [fmt_eq]
  cases hRealm : name.realm with
  | some r =>
    refine ⟨_, trim_of_trimmed ?_, rfl, List.prefix_rfl, Iff.rfl⟩
    have h := hWf.class_trimmed.append _ (hWf.realm_trimmed r hRealm) hWf.class_ne_nil
      (hWf.realm_ne_nil r hRealm)
      ('/' :: (name.host ++ portText name.port ++ (slashed name.instance_ ++ ['@'])))
    simpa [joinPieces, attached] using h
  | none =>
    cases hInstance : name.instance_ with
    | some i =>
      refine ⟨_, trim_of_trimmed ?_, rfl, List.prefix_rfl, Iff.rfl⟩
      have h := hWf.class_trimmed.append _ (hWf.instance_trimmed i hInstance) hWf.class_ne_nil
        (hWf.instance_ne_nil i hInstance) ('/' :: (name.host ++ portText name.port ++ ['/']))
      simpa [joinPieces, attached, slashed] using h
    | none =>
      refine ⟨(name.host ++ portText name.port).rdropWhile isWhitespace, ?_,
        ListTrim.trim_rdropWhile _ _, List.rdropWhile_prefix _ _, ?_⟩
      · have hNe := ListTrim.rdropWhile_ne_nil_of_head _ hpNe hHead
        have hClass : ∀ c ∈ ((name.class_ ++ ['/']) ++ (name.host ++ portText name.port)).head?,
            isWhitespace c = false := by
          rw [List.append_assoc, List.head?_append_of_ne_nil _ hWf.class_ne_nil]
          exact hWf.class_trimmed.head
        have hText : joinPieces name.class_ (name.host ++ portText name.port) none none =
            (name.class_ ++ ['/']) ++ (name.host ++ portText name.port) := by
          simp [joinPieces, slashed, attached]
        rw [hText, trim_of_head hClass,
          ListTrim.rdropWhile_append_of_ne_nil _ hNe]
        simp [joinPieces, slashed, attached]
      · constructor
        · exact fun h => (List.rdropWhile_prefix _ _).subset h
        · intro h
          rw [← trim_of_head hHead]
          exact mem_trim_of_not h (by decide)

/-- The two ways a written name is misread, excluded. -/
structure Clear (name : ServicePrincipalName) : Prop where
  host : name.port = none → trim name.host = name.host
  at_ : name.realm = none →
    '@' ∉ lastPiece '/' (name.host ++ portText name.port ++ slashed name.instance_)

theorem cutPort_append {host : Text} {port : Option UInt16} (h : port = none → ':' ∉ host) :
    cutPort (host ++ portText port) = some (host, port) := by
  cases port with
  | none => rw [portText, List.append_nil, cutPort, (rsplitOnce_eq_none_iff ':' _).mpr (h rfl)]
  | some n =>
    have hColon : ':' ∉ showU16 n := fun hMem => absurd (isAsciiDigit_of_mem_showU16 hMem) (by decide)
    rw [portText, cutPort, rsplitOnce_append ':' _ _ hColon]
    simp

theorem cutPort_written (name : ServicePrincipalName) (hHost : name.host ≠ [])
    (h : name.port = none → trim name.host = name.host) :
    cutPort (trim (name.host ++ portText name.port)) = some (name.host, name.port) := by
  have hWf := name.wellFormed
  have hTrim : trim (name.host ++ portText name.port) = name.host ++ portText name.port := by
    cases hPort : name.port with
    | none => rw [portText, List.append_nil, h hPort]
    | some n =>
      apply trim_of_trimmed
      constructor
      · rw [List.head?_append_of_ne_nil _ hHost]
        exact hWf.host_head
      · intro c hc
        rw [portText, List.append_cons, List.getLast?_append_of_ne_nil _ (showU16_ne_nil n)] at hc
        exact not_isWhitespace_showU16 (List.mem_of_getLast? hc)
  rw [hTrim, cutPort_append hWf.host_colon]

theorem parse_fmt_of_clear (name : ServicePrincipalName) (hHost : name.host ≠ [])
    (h : name.Clear) : parse name.fmt = some name := by
  have hWf := name.wellFormed
  obtain ⟨hp, hText, hTrim, hPrefix, hAt⟩ := name.exists_trim_fmt hHost
  have hSlash : '/' ∉ hp := fun hMem => name.host_port_slash (hPrefix.subset hMem)
  have hRealm : ∀ r ∈ name.realm, '@' ∉ r ∧ '/' ∉ r :=
    fun r hr => ⟨hWf.realm_at r hr, hWf.realm_slash r hr⟩
  have hNone : name.realm = none → '@' ∉ lastPiece '/' (hp ++ slashed name.instance_) := by
    intro hNone
    exact fun hMem => h.at_ hNone ((mem_lastPiece_congr hSlash name.host_port_slash hAt _).mp hMem)
  rw [parse_eq_some_iff, ServiceParts.parse, hText,
    cut_joinPieces hWf.class_slash hSlash hRealm hNone, Option.bind_some, assemble_eq_some_iff]
  refine ⟨name.host, name.port, ?_, ?_, hHost, ?_⟩
  · rw [hTrim]
    exact cutPort_written name hHost h.host
  · rw [trim_of_trimmed hWf.class_trimmed]
    exact hWf.class_ne_nil
  · have hInstance : (name.instance_.map trim).filter nonempty = name.instance_ := by
      cases hi : name.instance_ with
      | none => rfl
      | some i =>
        have hNe := hWf.instance_ne_nil i hi
        simp [trim_of_trimmed (hWf.instance_trimmed i hi), nonempty, hNe]
    have hRealm' : ((name.realm.map trim).filter nonempty).map toAsciiLowercase = name.realm := by
      cases hr : name.realm with
      | none => rfl
      | some r =>
        have hNe := hWf.realm_ne_nil r hr
        simp [trim_of_trimmed (hWf.realm_trimmed r hr), nonempty, hNe,
          toAsciiLowercase_eq_self (hWf.realm_folded r hr)]
    rw [hInstance, hRealm', trim_of_trimmed hWf.class_trimmed, hWf.host_dotless,
      toAsciiLowercase_eq_self hWf.host_folded]

/-- How many `@` a name writes, against how many its pieces hold. -/
theorem count_at_le {pieces : ServicePieces} {parts : ServiceParts}
    (h : pieces.assemble = some parts) :
    parts.class_.count '@' + (parts.host.count '@' + (slashed parts.instance_).count '@') ≤
      pieces.class_.count '@' + (pieces.host.count '@' + (slashed pieces.instance_).count '@') := by
  obtain ⟨host, port, hPort, _, _, rfl⟩ := (assemble_eq_some_iff pieces parts).mp h
  have hTrim (text : Text) : (trim text).count '@' ≤ text.count '@' :=
    (ListTrim.trim_sublist isWhitespace text).count_le '@'
  have hHost : (toAsciiLowercase (trimEndMatches '.' host)).count '@' ≤ pieces.host.count '@' := by
    rw [count_toAsciiLowercase (by decide) (by decide)]
    have hDots : (trimEndMatches '.' host).count '@' ≤ host.count '@' :=
      (List.rdropWhile_prefix _ _).sublist.count_le '@'
    have hCut : host.count '@' ≤ (trim pieces.host).count '@' :=
      (starts_of_cutPort hPort).sublist.count_le '@'
    exact hDots.trans (hCut.trans (hTrim pieces.host))
  have hInstance : (slashed ((pieces.instance_.map trim).filter nonempty)).count '@' ≤
      (slashed pieces.instance_).count '@' := by
    cases pieces.instance_ with
    | none => exact Nat.le_refl _
    | some i =>
      by_cases hNe : nonempty (trim i) = true
      · simp [slashed, Option.filter, hNe, hTrim i]
      · simp [slashed, Option.filter, hNe]
  exact Nat.add_le_add (hTrim pieces.class_) (Nat.add_le_add hHost hInstance)

/-- A realm that is not written is not read: an `@` taken for one is an `@` the host and
instance that were read no longer hold. -/
theorem at_of_parse_fmt (name : ServicePrincipalName) (hHost : name.host ≠ [])
    (h : parse name.fmt = some name) (hNoRealm : name.realm = none) :
    '@' ∉ lastPiece '/' (name.host ++ portText name.port ++ slashed name.instance_) := by
  intro hMem
  obtain ⟨hp, hText, _, hPrefix, hAt⟩ := name.exists_trim_fmt hHost
  have hSlash : '/' ∉ hp := fun hMem => name.host_port_slash (hPrefix.subset hMem)
  have hMem' := (mem_lastPiece_congr hSlash name.host_port_slash hAt (slashed name.instance_)).mpr hMem
  rw [parse_eq_some_iff, ServiceParts.parse] at h
  obtain ⟨pieces, hCut, hAssemble⟩ := Option.bind_eq_some_iff.mp h
  obtain ⟨realm, hPieces, _, _, _, _, hNone⟩ := (cut_eq_some_iff _ pieces).mp hCut
  rw [hText, hNoRealm] at hPieces
  cases hRealm : realm with
  | none =>
    refine hNone hRealm ?_
    rw [hRealm] at hPieces
    have hLast := congrArg (lastPiece '/') hPieces
    simp only [joinPieces, attached, List.append_nil, lastPiece_append] at hLast
    rwa [← hLast]
  | some r =>
    have hCount := congrArg (List.count '@') hPieces
    have hLe := count_at_le hAssemble
    have hHp : hp.count '@' ≤ name.host.count '@' := by
      have hLe := hPrefix.sublist.count_le '@'
      rw [List.count_append, List.count_eq_zero.mpr
        (not_mem_portText (by decide) (by decide) name.port)] at hLe
      exact hLe
    rw [hRealm] at hCount
    simp only [joinPieces, attached, List.append_nil, List.count_append, List.count_cons,
      beq_self_eq_true, if_true] at hCount
    omega

theorem clear_of_parse_fmt (name : ServicePrincipalName) (hHost : name.host ≠ [])
    (h : parse name.fmt = some name) : name.Clear := by
  have hClear := name.at_of_parse_fmt hHost h
  refine ⟨?_, hClear⟩
  intro hPort
  have hWf := name.wellFormed
  obtain ⟨hp, hText, hTrim, hPrefix, hAt⟩ := name.exists_trim_fmt hHost
  have hSlash : '/' ∉ hp := fun hMem => name.host_port_slash (hPrefix.subset hMem)
  have hNone : name.realm = none → '@' ∉ lastPiece '/' (hp ++ slashed name.instance_) :=
    fun hNoRealm hMem => hClear hNoRealm ((mem_lastPiece_congr hSlash name.host_port_slash hAt _).mp hMem)
  rw [parse_eq_some_iff, ServiceParts.parse, hText, cut_joinPieces hWf.class_slash hSlash
    (fun r hr => ⟨hWf.realm_at r hr, hWf.realm_slash r hr⟩) hNone, Option.bind_some] at h
  obtain ⟨host, port, hCutPort, _, _, hParts⟩ := (assemble_eq_some_iff _ _).mp h
  have hName : name.host = toAsciiLowercase (trimEndMatches '.' host) := congrArg ServiceParts.host hParts
  -- The host read is no longer than the trimmed host, and the host is that host.
  have hLength : name.host.length ≤ (trim name.host).length := by
    have hRead : host.length ≤ (trim name.host).length := by
      rw [hTrim, hPort, portText, List.append_nil] at hCutPort
      exact (starts_of_cutPort hCutPort).length_le
    calc
      name.host.length = (trimEndMatches '.' host).length := by
        rw [hName, toAsciiLowercase, List.length_map]
      _ ≤ host.length := (List.rdropWhile_prefix _ _).length_le
      _ ≤ _ := hRead
  exact (ListTrim.trim_sublist isWhitespace name.host).eq_of_length_le hLength

theorem parse_fmt_iff_clear (name : ServicePrincipalName) (hHost : name.host ≠ []) :
    parse name.fmt = some name ↔ name.Clear :=
  ⟨name.clear_of_parse_fmt hHost, name.parse_fmt_of_clear hHost⟩

end ServicePrincipalName

/-- The condition on the fields a text is divided into: no trailing space once a portless host
loses its dots, and no `@` after the last `/` where the realm is missing or blank. -/
structure Division.ReadsBack (division : Division) : Prop where
  host : ':' ∉ division.host →
    trim (trimEndMatches '.' (trim division.host)) = trimEndMatches '.' (trim division.host)
  at_ : (∀ realm ∈ division.realm, trim realm = []) →
    '@' ∉ lastPiece '/' (division.host ++ slashed ((division.instance_.map trim).filter nonempty))

def ReadsBack (text : Text) : Prop := ∃ division : Division, division.Of text ∧ division.ReadsBack

theorem Division.Of.readsBack_iff {division : Division} {text : Text} (h : division.Of text) :
    XmipIdentify.ReadsBack text ↔ division.ReadsBack := by
  constructor
  · rintro ⟨other, hOther, hReads⟩
    rwa [h.unique hOther]
  · exact fun hReads => ⟨division, h, hReads⟩

/-- The port cut takes no `@` away: what it drops is a `:` and digits. -/
theorem at_mem_host_iff {written host : Text} {port : Option UInt16}
    (hPort : cutPort (trim written) = some (host, port)) :
    '@' ∈ toAsciiLowercase (trimEndMatches '.' host) ++ ServicePrincipalName.portText port ↔
      '@' ∈ written := by
  rw [List.mem_append,
    or_iff_left (ServicePrincipalName.not_mem_portText (by decide) (by decide) port),
    mem_toAsciiLowercase_iff (by decide) (by decide), mem_trimEndMatches_iff (by decide),
    ← mem_trim_iff (by decide) written]
  rcases cutPort_cases hPort with ⟨_, rfl, _⟩ | ⟨digits, n, hHost, _, hDigits, _⟩
  · exact Iff.rfl
  · have hAt := digits_of_parseU16 hDigits (by decide : isAsciiDigit '@' = false) (by decide)
    rw [hHost]
    simp [hAt]

namespace Division.Spells

variable {division : Division} {name : ServicePrincipalName}

theorem realm_eq_none_iff (h : division.Spells name) :
    name.realm = none ↔ ∀ realm ∈ division.realm, trim realm = [] := by
  rw [h.realm, Option.map_eq_none_iff, Option.filter_eq_none_iff]
  simp [nonempty]

theorem host_trimmed_iff (h : division.Spells name) :
    (name.port = none → trim name.host = name.host) ↔ (':' ∉ division.host →
      trim (trimEndMatches '.' (trim division.host)) = trimEndMatches '.' (trim division.host)) := by
  obtain ⟨host, hSpelled, _, hName⟩ := h.host
  rcases cutPort_cases ((cutPort_eq_some_iff _ _ _).mpr hSpelled) with
    ⟨hNone, rfl, hColon⟩ | ⟨digits, n, hHost, _, _, hSome⟩
  · have hNoColon : ':' ∉ division.host := fun hMem => hColon (mem_trim_of_not hMem (by decide))
    rw [hNone, hName, ListTrim.trim_eq_self_iff, trimmed_toAsciiLowercase_iff,
      ListTrim.trim_eq_self_iff]
    simp [hNoColon]
  · have hColon : ':' ∈ division.host := mem_of_mem_trim (by rw [hHost]; simp)
    rw [hSome]
    simp [hColon]

theorem at_mem_lastPiece_iff (h : division.Spells name) (hSlash : '/' ∉ division.host) :
    '@' ∈ lastPiece '/'
        (name.host ++ ServicePrincipalName.portText name.port ++ slashed name.instance_) ↔
      '@' ∈ lastPiece '/'
        (division.host ++ slashed ((division.instance_.map trim).filter nonempty)) := by
  obtain ⟨host, hSpelled, _, hName⟩ := h.host
  have hAt : '@' ∈ name.host ++ ServicePrincipalName.portText name.port ↔ '@' ∈ division.host := by
    rw [hName]
    exact at_mem_host_iff ((cutPort_eq_some_iff _ _ _).mpr hSpelled)
  rw [h.instance_]
  exact mem_lastPiece_congr name.host_port_slash hSlash hAt _

/-- A name is misread as its division is: either condition is said of both. -/
theorem clear_iff (h : division.Spells name) (hSlash : '/' ∉ division.host) :
    name.Clear ↔ division.ReadsBack := by
  have hAt : (name.realm = none → '@' ∉ lastPiece '/'
      (name.host ++ ServicePrincipalName.portText name.port ++ slashed name.instance_)) ↔
      ((∀ realm ∈ division.realm, trim realm = []) → '@' ∉ lastPiece '/'
        (division.host ++ slashed ((division.instance_.map trim).filter nonempty))) := by
    rw [h.realm_eq_none_iff, h.at_mem_lastPiece_iff hSlash]
  constructor
  · exact fun hClear => ⟨h.host_trimmed_iff.mp hClear.host, hAt.mp hClear.at_⟩
  · exact fun hReads => ⟨h.host_trimmed_iff.mpr hReads.host, hAt.mpr hReads.at_⟩

end Division.Spells

namespace ServicePrincipalName

theorem clear_iff_readsBack {text : Text} {name : ServicePrincipalName}
    (h : parse text = some name) : name.Clear ↔ ReadsBack text := by
  obtain ⟨division, hOf, hSpells⟩ := (parse_eq_some_iff_spells text name).mp h
  rw [hOf.readsBack_iff, hSpells.clear_iff hOf.host_slash]

/-- An accepted name with a host reads back from its canonical text exactly when its own text
meets the condition, and names of such texts are told apart by what they write. -/
theorem parse_fmt_iff_readsBack (text : Text) (name : ServicePrincipalName)
    (h : parse text = some name) (hHost : name.host ≠ []) :
    (parse name.fmt = some name ↔ ReadsBack text) ∧
    ∀ text' name', parse text' = some name' → name'.host ≠ [] → ReadsBack text →
      ReadsBack text' → name.fmt = name'.fmt → name = name' := by
  have hReads (t : Text) (n : ServicePrincipalName) (hParse : parse t = some n) (hNe : n.host ≠ []) :
      parse n.fmt = some n ↔ ReadsBack t :=
    (parse_fmt_iff_clear n hNe).trans (clear_iff_readsBack hParse)
  refine ⟨hReads text name h hHost, ?_⟩
  intro text' name' h' hHost' hText hText' hFmt
  have hName := (hReads text name h hHost).mpr hText
  have hName' := (hReads text' name' h' hHost').mpr hText'
  rw [hFmt] at hName
  exact Option.some.inj (hName.symm.trans hName')

theorem parse_fmt_iff_readsBack_http :
    ∃ name, parse "HTTP/Xmip.Example.:8443@EXAMPLE.COM".toList = some name ∧
      parse name.fmt = some name := by
  have h : (parse "HTTP/Xmip.Example.:8443@EXAMPLE.COM".toList).isSome = true := by decide
  obtain ⟨name, hName⟩ := Option.isSome_iff_exists.mp h
  have hHost : name.host ≠ [] := by
    have hParts := (parse_eq_some_iff _ _).mp hName
    intro hEmpty
    have : (ServiceParts.parse "HTTP/Xmip.Example.:8443@EXAMPLE.COM".toList).map ServiceParts.host =
        some [] := by rw [hParts, Option.map_some, hEmpty]
    exact absurd this (by decide)
  have hReads : ReadsBack "HTTP/Xmip.Example.:8443@EXAMPLE.COM".toList :=
    ⟨⟨"HTTP".toList, "Xmip.Example.:8443".toList, none, some "EXAMPLE.COM".toList⟩,
      ⟨by decide, by decide, by decide, by decide, by decide⟩, ⟨by decide, by decide⟩⟩
  exact ⟨name, hName, (parse_fmt_iff_readsBack _ name hName hHost).1.mpr hReads⟩

/-- A blank realm is dropped, and the `@` left in the host is then read as opening one. -/
theorem fmt_misread :
    ¬ ∀ text name, parse text = some name → name.host ≠ [] → parse name.fmt = some name := by
  intro h
  have hRead := h "HTTP/a@b@".toList ((parse "HTTP/a@b@".toList).get (by decide))
    (Option.some_get _).symm (by decide)
  exact absurd hRead (by decide)

/-- Dots dropped after the only trim: the host keeps its trailing space. -/
example : ¬ ReadsBack "HTTP/xmip .".toList := by
  have hOf : Division.Of ⟨"HTTP".toList, "xmip .".toList, none, none⟩ "HTTP/xmip .".toList :=
    ⟨by decide, by decide, by decide, by decide, by decide⟩
  rw [hOf.readsBack_iff]
  exact fun hReads => absurd (hReads.host (by decide)) (by decide)

end ServicePrincipalName

end XmipIdentify
