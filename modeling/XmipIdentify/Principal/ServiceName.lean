import XmipIdentify.Principal.ServicePieces

/-!
# Service principal names

The pieces are trimmed, tested and folded in the order the source does it. The
host carries no emptiness or trailing-space guarantee: the source tests it
before it drops the dots, and never again.
-/

namespace XmipIdentify

open Str ListCut
open ListTrim (Trimmed)

set_option autoImplicit false

/-- The fields of a service name, before anything is known of them. -/
structure ServiceParts where
  class_ : Text
  host : Text
  port : Option UInt16
  instance_ : Option Text
  realm : Option Text
deriving DecidableEq

def cutPort (host : Text) : Option (Text × Option UInt16) :=
  match rsplitOnce ':' host with
  | some (host, port) => (parseU16 port).map fun port => (host, some port)
  | none => some (host, none)

def nonempty (text : Text) : Bool := !text.isEmpty

/-- The tests and folds on the pieces, in the order the source makes them. -/
def ServicePieces.assemble (pieces : ServicePieces) : Option ServiceParts :=
  match cutPort (trim pieces.host) with
  | none => none
  | some (host, port) =>
    if (trim pieces.class_).isEmpty || host.isEmpty then none
    else some {
      class_ := trim pieces.class_
      host := toAsciiLowercase (trimEndMatches '.' host)
      port
      instance_ := (pieces.instance_.map trim).filter nonempty
      realm := (pieces.realm.filter nonempty).map toAsciiLowercase }

def ServiceParts.parse (text : Text) : Option ServiceParts :=
  (ServicePieces.cut (trim text)).bind ServicePieces.assemble

structure ServiceParts.WellFormed (parts : ServiceParts) : Prop where
  class_ne_nil : parts.class_ ≠ []
  class_trimmed : Trimmed isWhitespace parts.class_
  class_slash : '/' ∉ parts.class_
  host_slash : '/' ∉ parts.host
  host_head : ∀ c ∈ parts.host.head?, isWhitespace c = false
  host_folded : ∀ c ∈ parts.host, isAsciiUppercase c = false
  host_dotless : trimEndMatches '.' parts.host = parts.host
  host_colon : parts.port = none → ':' ∉ parts.host
  instance_ne_nil : ∀ i ∈ parts.instance_, i ≠ []
  instance_trimmed : ∀ i ∈ parts.instance_, Trimmed isWhitespace i
  realm_ne_nil : ∀ r ∈ parts.realm, r ≠ []
  realm_trimmed : ∀ r ∈ parts.realm, Trimmed isWhitespace r
  realm_slash : ∀ r ∈ parts.realm, '/' ∉ r
  realm_at : ∀ r ∈ parts.realm, '@' ∉ r
  realm_folded : ∀ r ∈ parts.realm, ∀ c ∈ r, isAsciiUppercase c = false

theorem cutPort_cases {host result : Text} {port : Option UInt16}
    (h : cutPort host = some (result, port)) :
    (port = none ∧ result = host ∧ ':' ∉ host) ∨
    ∃ digits n, host = result ++ ':' :: digits ∧ ':' ∉ digits ∧ parseU16 digits = some n ∧
      port = some n := by
  rw [cutPort] at h
  split at h
  · rename_i before digits hCut
    obtain ⟨hHost, hColon⟩ := (rsplitOnce_eq_some_iff ':' host before digits).mp hCut
    obtain ⟨n, hn, hPair⟩ := Option.map_eq_some_iff.mp h
    cases hPair
    exact .inr ⟨digits, n, hHost, hColon, hn, rfl⟩
  · rename_i hCut
    cases h
    exact .inl ⟨rfl, rfl, (rsplitOnce_eq_none_iff ':' host).mp hCut⟩

theorem starts_of_cutPort {host result : Text} {port : Option UInt16}
    (h : cutPort host = some (result, port)) : result <+: host := by
  rcases cutPort_cases h with ⟨_, rfl, _⟩ | ⟨digits, n, rfl, _⟩
  · exact List.prefix_rfl
  · exact List.prefix_append _ _

theorem assemble_eq_some_iff (pieces : ServicePieces) (parts : ServiceParts) :
    pieces.assemble = some parts ↔ ∃ host port, cutPort (trim pieces.host) = some (host, port) ∧
      trim pieces.class_ ≠ [] ∧ host ≠ [] ∧ parts = {
        class_ := trim pieces.class_
        host := toAsciiLowercase (trimEndMatches '.' host)
        port
        instance_ := (pieces.instance_.map trim).filter nonempty
        realm := (pieces.realm.filter nonempty).map toAsciiLowercase } := by
  rw [ServicePieces.assemble]
  cases hCut : cutPort (trim pieces.host) with
  | none => simp
  | some cut =>
    obtain ⟨host, port⟩ := cut
    by_cases hEmpty : trim pieces.class_ = [] ∨ host = []
    · have hTest : ((trim pieces.class_).isEmpty || host.isEmpty) = true := by
        simpa [List.isEmpty_iff] using hEmpty
      simp only [hTest, if_true]
      constructor
      · rintro ⟨⟩
      · rintro ⟨h, p, hPair, hClass, hHost, _⟩
        cases hPair
        exact absurd hEmpty (not_or.mpr ⟨hClass, hHost⟩)
    · have hTest : ((trim pieces.class_).isEmpty || host.isEmpty) = false := by
        simpa [List.isEmpty_iff] using hEmpty
      simp only [hTest, Bool.false_eq_true, if_false, Option.some.injEq]
      rw [not_or] at hEmpty
      constructor
      · rintro rfl
        exact ⟨host, port, rfl, hEmpty.1, hEmpty.2, rfl⟩
      · rintro ⟨h, p, hPair, _, _, rfl⟩
        cases hPair
        rfl

theorem ServiceParts.wellFormed_of_parse {text : Text} {parts : ServiceParts}
    (h : ServiceParts.parse text = some parts) : parts.WellFormed := by
  obtain ⟨pieces, hCut, hAssemble⟩ := Option.bind_eq_some_iff.mp h
  obtain ⟨realm, _, hClass, hHost, hRealm, hTrim, _⟩ := (cut_eq_some_iff _ pieces).mp hCut
  obtain ⟨host, port, hPort, hClassNe, hHostNe, rfl⟩ := (assemble_eq_some_iff pieces parts).mp hAssemble
  have hPrefix : trimEndMatches '.' host <+: trim pieces.host :=
    (List.rdropWhile_prefix _ _).trans (starts_of_cutPort hPort)
  have hRealm' : ∀ r ∈ (pieces.realm.filter nonempty).map toAsciiLowercase,
      ∃ raw, raw ∈ realm ∧ trim raw ≠ [] ∧ r = toAsciiLowercase (trim raw) := by
    intro r hr
    obtain ⟨trimmed, hTrimmed, rfl⟩ := Option.map_eq_some_iff.mp hr
    obtain ⟨hMem, hNe⟩ := Option.filter_eq_some_iff.mp hTrimmed
    rw [hTrim] at hMem
    obtain ⟨raw, hRaw, rfl⟩ := Option.map_eq_some_iff.mp hMem
    exact ⟨raw, hRaw, by simpa [nonempty, List.isEmpty_iff] using hNe, rfl⟩
  have hInstance : ∀ i ∈ (pieces.instance_.map trim).filter nonempty, ∃ raw, i = trim raw ∧ i ≠ [] := by
    intro i hi
    obtain ⟨hMem, hNe⟩ := Option.filter_eq_some_iff.mp hi
    obtain ⟨raw, _, rfl⟩ := Option.map_eq_some_iff.mp hMem
    exact ⟨raw, rfl, by simpa [nonempty, List.isEmpty_iff] using hNe⟩
  constructor
  case class_ne_nil => exact hClassNe
  case class_trimmed => exact trimmed_trim _
  case class_slash => exact fun hMem => hClass (mem_of_mem_trim hMem)
  case host_slash =>
    rw [mem_toAsciiLowercase_iff (by decide) (by decide)]
    exact fun hMem => hHost (mem_of_mem_trim (hPrefix.subset hMem))
  case host_head =>
    intro c hc
    rw [toAsciiLowercase, List.head?_map] at hc
    obtain ⟨b, hb, rfl⟩ := Option.map_eq_some_iff.mp hc
    rw [isWhitespace_charToAsciiLowercase]
    exact (trimmed_trim pieces.host).head b (ListTrim.head?_of_starts hPrefix b hb)
  case host_folded => exact fun _ hc => isAsciiUppercase_of_mem_toAsciiLowercase hc
  case host_dotless =>
    rw [trimEndMatches_toAsciiLowercase (by decide) (by decide), trimEndMatches_idem]
  case host_colon =>
    intro hNone
    rw [mem_toAsciiLowercase_iff (by decide) (by decide)]
    rcases cutPort_cases hPort with ⟨_, rfl, hColon⟩ | ⟨_, _, _, _, _, hSome⟩
    · exact fun hMem => hColon ((List.rdropWhile_prefix _ _).subset hMem)
    · cases hNone.symm.trans hSome
  case instance_ne_nil => exact fun i hi => (hInstance i hi).choose_spec.2
  case instance_trimmed =>
    intro i hi
    obtain ⟨raw, rfl, _⟩ := hInstance i hi
    exact trimmed_trim raw
  case realm_ne_nil =>
    intro r hr
    obtain ⟨raw, _, hNe, rfl⟩ := hRealm' r hr
    simpa using hNe
  case realm_trimmed =>
    intro r hr
    obtain ⟨raw, _, _, rfl⟩ := hRealm' r hr
    exact (trimmed_toAsciiLowercase_iff _).mpr (trimmed_trim raw)
  case realm_slash =>
    intro r hr
    obtain ⟨raw, hRaw, _, rfl⟩ := hRealm' r hr
    rw [mem_toAsciiLowercase_iff (by decide) (by decide)]
    exact fun hMem => (hRealm raw hRaw).2 (mem_of_mem_trim hMem)
  case realm_at =>
    intro r hr
    obtain ⟨raw, hRaw, _, rfl⟩ := hRealm' r hr
    rw [mem_toAsciiLowercase_iff (by decide) (by decide)]
    exact fun hMem => (hRealm raw hRaw).1 (mem_of_mem_trim hMem)
  case realm_folded =>
    intro r hr
    obtain ⟨raw, _, _, rfl⟩ := hRealm' r hr
    exact fun _ hc => isAsciiUppercase_of_mem_toAsciiLowercase hc

/-- A name carries its invariant: the fields are private to the source's module and only
`parse` fills them. -/
structure ServicePrincipalName extends ServiceParts where
  wellFormed : toServiceParts.WellFormed
deriving DecidableEq

namespace ServicePrincipalName

def parse (text : Text) : Option ServicePrincipalName :=
  (ServiceParts.parse text).pmap (fun parts h => ⟨parts, h⟩)
    (fun _ h => ServiceParts.wellFormed_of_parse h)

theorem parse_eq_some_iff (text : Text) (name : ServicePrincipalName) :
    parse text = some name ↔ ServiceParts.parse text = some name.toServiceParts := by
  rw [parse, Option.pmap_eq_some_iff]
  constructor
  · rintro ⟨parts, _, hParse, rfl⟩
    exact hParse
  · intro h
    exact ⟨name.toServiceParts, name.wellFormed, h, rfl⟩

def is (name other : ServicePrincipalName) : Bool :=
  let realm := match name.realm, other.realm with
    | some ours, some theirs => ours == theirs
    | _, _ => true
  realm && name.class_ == other.class_ && name.host == other.host && name.port == other.port &&
    name.instance_ == other.instance_

def portText : Option UInt16 → Text
  | none => []
  | some port => ':' :: showU16 port

/-- What `Display` writes. -/
def fmt (name : ServicePrincipalName) : Text :=
  name.class_ ++ '/' :: (name.host ++ (portText name.port ++ (slashed name.instance_ ++
    attached name.realm)))

end ServicePrincipalName

end XmipIdentify
