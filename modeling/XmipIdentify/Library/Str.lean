import Mathlib.Data.String.Basic
import XmipIdentify.Library.Trim

/-!
# Text as Rust reads it

A `str` is the list of its Unicode scalar values and a byte slice the list of
its bytes. The functions keep the standard library's names; each has the
lemmas its callers cite, so none is unfolded elsewhere.
-/

namespace Str

open ListTrim (Trimmed)

set_option autoImplicit false

abbrev Text := List Char

abbrev Bytes := List UInt8

/-- `char::is_whitespace`: the Unicode property `White_Space`. -/
def isWhitespace (c : Char) : Bool :=
  (9 ≤ c.toNat && c.toNat ≤ 13) || c.toNat == 0x20 || c.toNat == 0x85 || c.toNat == 0xA0 ||
    c.toNat == 0x1680 || (0x2000 ≤ c.toNat && c.toNat ≤ 0x200A) || c.toNat == 0x2028 ||
    c.toNat == 0x2029 || c.toNat == 0x202F || c.toNat == 0x205F || c.toNat == 0x3000

/-- `char::is_ascii_whitespace`: space, tab, line feed, form feed, carriage return. -/
def isAsciiWhitespace (c : Char) : Bool :=
  c.toNat == 0x20 || c.toNat == 9 || c.toNat == 10 || c.toNat == 12 || c.toNat == 13

def isAsciiUppercase (c : Char) : Bool := 'A' ≤ c && c ≤ 'Z'

def isAsciiLowercase (c : Char) : Bool := 'a' ≤ c && c ≤ 'z'

def isAsciiDigit (c : Char) : Bool := '0' ≤ c && c ≤ '9'

def isAsciiAlphanumeric (c : Char) : Bool :=
  isAsciiUppercase c || isAsciiLowercase c || isAsciiDigit c

def charToAsciiLowercase (c : Char) : Char :=
  if isAsciiUppercase c then Char.ofNat (c.toNat + 32) else c

def toAsciiLowercase (text : Text) : Text := text.map charToAsciiLowercase

/-- `str::eq_ignore_ascii_case`: the same text once both are folded. -/
def eqIgnoreAsciiCase (a b : Text) : Bool := toAsciiLowercase a == toAsciiLowercase b

abbrev trim (text : Text) : Text := ListTrim.trim isWhitespace text

def trimEndMatches (c : Char) (text : Text) : Text := text.rdropWhile (fun a => decide (a = c))

def stripPlus : Text → Text
  | '+' :: digits => digits
  | digits => digits

/-- `str::parse::<u16>`: an optional `+`, then digits whose value fits. -/
def parseU16 (text : Text) : Option UInt16 :=
  let digits := stripPlus text
  if digits.isEmpty || !digits.all isAsciiDigit then none
  else
    let value := Nat.ofDigitChars 10 digits 0
    if value < 65536 then some (UInt16.ofNat value) else none

/-- `str::parse::<u32>`, the same with the wider bound. -/
def parseU32 (text : Text) : Option UInt32 :=
  let digits := stripPlus text
  if digits.isEmpty || !digits.all isAsciiDigit then none
  else
    let value := Nat.ofDigitChars 10 digits 0
    if value < 4294967296 then some (UInt32.ofNat value) else none

/-- The parts before and after a byte offset that lies between two characters. -/
def splitAtByte : Nat → Text → Option (Text × Text)
  | 0, text => some ([], text)
  | _ + 1, [] => none
  | n + 1, c :: rest =>
    if c.utf8Size ≤ n + 1 then
      (splitAtByte (n + 1 - c.utf8Size) rest).map fun (before, after) => (c :: before, after)
    else none

/-- `str::get` of a range of bytes: nothing where an end is past the text or inside a character. -/
def getRange (text : Text) (start stop : Nat) : Option Text :=
  if stop < start then none
  else do
    let (_, rest) ← splitAtByte start text
    let (piece, _) ← splitAtByte (stop - start) rest
    return piece

/-- A number as `Display` writes it. -/
def showU16 (n : UInt16) : Text := Nat.toDigits 10 n.toNat

/-- `char::escape_debug` inside a string: `printable` is the standard library's table. -/
def escapeDebug (printable : Char → Bool) (c : Char) : Text :=
  if c.toNat == 0 then ['\\', '0']
  else if c == '\t' then ['\\', 't']
  else if c == '\r' then ['\\', 'r']
  else if c == '\n' then ['\\', 'n']
  else if c == '"' || c == '\\' then ['\\', c]
  else if printable c then [c]
  else '\\' :: 'u' :: '\x7b' :: (Nat.toDigits 16 c.toNat ++ ['\x7d'])

/-- A string as `Debug` writes it. -/
def debug (printable : Char → Bool) (text : Text) : Text :=
  '"' :: (text.flatMap (escapeDebug printable) ++ ['"'])

/-- `u8::is_ascii_digit`. -/
def byteIsAsciiDigit (b : UInt8) : Bool := 48 ≤ b && b ≤ 57

/-- `str::as_bytes`. -/
def toUtf8 (text : Text) : Bytes := text.flatMap String.utf8EncodeChar

/-- `str::from_utf8`. -/
def fromUtf8 (bytes : Bytes) : Option Text := bytes.toByteArray.utf8Decode?.map Array.toList

/-- A test that every member of a list passes, by evaluating it along the list. -/
theorem forall_of_all {α : Type} {l : List α} {P : α → Prop} [DecidablePred P]
    (h : l.all (fun a => decide (P a)) = true) : ∀ a ∈ l, P a := fun a ha =>
  of_decide_eq_true (List.all_eq_true.mp h a ha)

@[simp] theorem fromUtf8_toUtf8 (text : Text) : fromUtf8 (toUtf8 text) = some text := by
  change (List.utf8Encode text).utf8Decode?.map Array.toList = some text
  rw [List.utf8Decode?_utf8Encode]
  simp

theorem fromUtf8_eq_some_iff (bytes : Bytes) (text : Text) :
    fromUtf8 bytes = some text ↔ bytes = toUtf8 text := by
  constructor
  · intro h
    obtain ⟨chars, hChars, rfl⟩ := Option.map_eq_some_iff.mp h
    have hSome : bytes.toByteArray.utf8Decode?.isSome = true := by rw [hChars]; rfl
    have hEncode := ByteArray.utf8Encode_get_utf8Decode? (h := hSome)
    simp only [hChars, Option.get_some] at hEncode
    have hBytes := congrArg (fun array => array.data.toList) hEncode
    simpa [List.utf8Encode, toUtf8] using hBytes.symm
  · rintro rfl
    exact fromUtf8_toUtf8 text

theorem trimmed_trim (text : Text) : Trimmed isWhitespace (trim text) :=
  ListTrim.trimmed_trim isWhitespace text

theorem trim_of_trimmed {text : Text} (h : Trimmed isWhitespace text) : trim text = text :=
  ListTrim.trim_of_trimmed isWhitespace h

theorem trim_of_head {text : Text} (h : ∀ c ∈ text.head?, isWhitespace c = false) :
    trim text = text.rdropWhile isWhitespace :=
  ListTrim.trim_of_head isWhitespace h

theorem trim_surround {u text w : Text} (hu : ∀ c ∈ u, isWhitespace c = true)
    (hw : ∀ c ∈ w, isWhitespace c = true) : trim (u ++ (text ++ w)) = trim text :=
  ListTrim.trim_surround isWhitespace hu hw

theorem trim_append_of_whitespace {u : Text} (hu : ∀ c ∈ u, isWhitespace c = true) (text : Text) :
    trim (u ++ text) = trim text := by
  have h := @trim_surround u text [] hu (by simp)
  rwa [List.append_nil] at h

theorem mem_of_mem_trim {text : Text} {c : Char} (h : c ∈ trim text) : c ∈ text :=
  ListTrim.mem_of_mem_trim isWhitespace h

theorem mem_trim_of_not {text : Text} {c : Char} (h : c ∈ text) (hc : isWhitespace c = false) :
    c ∈ trim text :=
  ListTrim.mem_trim_of_not isWhitespace h hc

theorem ne_of_isWhitespace {c d : Char} (hc : isWhitespace c = true) (hd : isWhitespace d = false) :
    c ≠ d := by
  rintro rfl
  exact Bool.false_ne_true (hd.symm.trans hc)

theorem isWhitespace_of_isAsciiWhitespace {c : Char} (h : isAsciiWhitespace c = true) :
    isWhitespace c = true := by
  simp only [isAsciiWhitespace, isWhitespace, Bool.or_eq_true, Bool.and_eq_true, beq_iff_eq,
    decide_eq_true_eq] at h ⊢
  omega

theorem isAsciiUppercase_iff (c : Char) : isAsciiUppercase c = true ↔ 65 ≤ c.toNat ∧ c.toNat ≤ 90 := by
  simp only [isAsciiUppercase, Bool.and_eq_true, decide_eq_true_eq]
  exact Iff.rfl

theorem isAsciiLowercase_iff (c : Char) : isAsciiLowercase c = true ↔ 97 ≤ c.toNat ∧ c.toNat ≤ 122 := by
  simp only [isAsciiLowercase, Bool.and_eq_true, decide_eq_true_eq]
  exact Iff.rfl

theorem isAsciiDigit_iff (c : Char) : isAsciiDigit c = true ↔ 48 ≤ c.toNat ∧ c.toNat ≤ 57 := by
  simp only [isAsciiDigit, Bool.and_eq_true, decide_eq_true_eq]
  exact Iff.rfl

theorem toNat_charToAsciiLowercase (c : Char) :
    (charToAsciiLowercase c).toNat = if isAsciiUppercase c then c.toNat + 32 else c.toNat := by
  rw [charToAsciiLowercase]
  split
  · rename_i h
    have hBound := (isAsciiUppercase_iff c).mp h
    have hValid : (c.toNat + 32).isValidChar := .inl (by omega)
    rw [Char.ofNat, dif_pos hValid]
    rfl
  · rfl

/-- Folding moves letters only: a character that is no letter has only itself before it. -/
theorem charToAsciiLowercase_eq_iff {c d : Char} (hUpper : isAsciiUppercase d = false)
    (hLower : isAsciiLowercase d = false) : charToAsciiLowercase c = d ↔ c = d := by
  constructor
  · intro h
    have hNat := toNat_charToAsciiLowercase c
    rw [h] at hNat
    split at hNat
    · rename_i hc
      have hBound := (isAsciiUppercase_iff c).mp hc
      have hd := (isAsciiLowercase_iff d).mpr (by omega)
      rw [hLower] at hd
      cases hd
    · exact Char.toNat_inj.mp hNat.symm
  · rintro rfl
    rw [charToAsciiLowercase, hUpper]
    rfl

theorem isAsciiUppercase_charToAsciiLowercase (c : Char) :
    isAsciiUppercase (charToAsciiLowercase c) = false := by
  rw [Bool.eq_false_iff]
  intro h
  have hBound := (isAsciiUppercase_iff _).mp h
  rw [toNat_charToAsciiLowercase] at hBound
  split at hBound
  · rename_i hc
    have := (isAsciiUppercase_iff c).mp hc
    omega
  · rename_i hc
    exact hc ((isAsciiUppercase_iff c).mpr hBound)

@[simp] theorem charToAsciiLowercase_idem (c : Char) :
    charToAsciiLowercase (charToAsciiLowercase c) = charToAsciiLowercase c := by
  rw [charToAsciiLowercase, isAsciiUppercase_charToAsciiLowercase]
  rfl

@[simp] theorem isWhitespace_charToAsciiLowercase (c : Char) :
    isWhitespace (charToAsciiLowercase c) = isWhitespace c := by
  have hNat := toNat_charToAsciiLowercase c
  split at hNat
  · rename_i hc
    have hBound := (isAsciiUppercase_iff c).mp hc
    rw [Bool.eq_iff_iff]
    simp only [isWhitespace, hNat, Bool.or_eq_true, Bool.and_eq_true, beq_iff_eq, decide_eq_true_eq]
    omega
  · rw [Char.toNat_inj.mp hNat]

@[simp] theorem isAsciiAlphanumeric_charToAsciiLowercase (c : Char) :
    isAsciiAlphanumeric (charToAsciiLowercase c) = isAsciiAlphanumeric c := by
  have hNat := toNat_charToAsciiLowercase c
  split at hNat
  · rename_i hc
    have hBound := (isAsciiUppercase_iff c).mp hc
    rw [Bool.eq_iff_iff]
    simp only [isAsciiAlphanumeric, Bool.or_eq_true, isAsciiUppercase_iff, isAsciiLowercase_iff,
      isAsciiDigit_iff, hNat]
    omega
  · rw [Char.toNat_inj.mp hNat]

theorem not_isWhitespace_of_isAsciiAlphanumeric {c : Char} (h : isAsciiAlphanumeric c = true) :
    isWhitespace c = false := by
  simp only [isAsciiAlphanumeric, Bool.or_eq_true, isAsciiUppercase_iff, isAsciiLowercase_iff,
    isAsciiDigit_iff] at h
  rw [Bool.eq_false_iff]
  intro hw
  simp only [isWhitespace, Bool.or_eq_true, Bool.and_eq_true, beq_iff_eq, decide_eq_true_eq] at hw
  omega

@[simp] theorem toAsciiLowercase_idem (text : Text) :
    toAsciiLowercase (toAsciiLowercase text) = toAsciiLowercase text := by
  simp [toAsciiLowercase]

@[simp] theorem toAsciiLowercase_eq_nil_iff (text : Text) : toAsciiLowercase text = [] ↔ text = [] :=
  List.map_eq_nil_iff

theorem mem_toAsciiLowercase_iff {d : Char} (hUpper : isAsciiUppercase d = false)
    (hLower : isAsciiLowercase d = false) (text : Text) : d ∈ toAsciiLowercase text ↔ d ∈ text := by
  simp [toAsciiLowercase, charToAsciiLowercase_eq_iff hUpper hLower]

theorem count_toAsciiLowercase {d : Char} (hUpper : isAsciiUppercase d = false)
    (hLower : isAsciiLowercase d = false) (text : Text) :
    (toAsciiLowercase text).count d = text.count d := by
  rw [toAsciiLowercase, List.count_eq_countP, List.count_eq_countP, List.countP_map]
  apply List.countP_congr
  intro c _
  simp [charToAsciiLowercase_eq_iff hUpper hLower]

theorem isAsciiUppercase_of_mem_toAsciiLowercase {text : Text} {c : Char}
    (h : c ∈ toAsciiLowercase text) : isAsciiUppercase c = false := by
  obtain ⟨b, _, rfl⟩ := List.mem_map.mp h
  exact isAsciiUppercase_charToAsciiLowercase b

theorem toAsciiLowercase_eq_self {text : Text} (h : ∀ c ∈ text, isAsciiUppercase c = false) :
    toAsciiLowercase text = text := by
  have hMap : text.map charToAsciiLowercase = text.map id :=
    List.map_congr_left (fun c hc => by rw [charToAsciiLowercase, h c hc]; rfl)
  rw [toAsciiLowercase, hMap, List.map_id]

theorem trimEndMatches_of_not_mem {d : Char} {text : Text} (h : d ∉ text) :
    trimEndMatches d text = text := by
  rw [trimEndMatches, List.rdropWhile_eq_self_iff]
  intro hText hLast
  exact h (of_decide_eq_true hLast ▸ List.getLast_mem hText)

theorem trimEndMatches_append_replicate (d : Char) (text : Text) (n : Nat) :
    trimEndMatches d (text ++ List.replicate n d) = trimEndMatches d text :=
  ListTrim.rdropWhile_append_of_all _ fun _ hc => decide_eq_true (List.eq_of_mem_replicate hc)

@[simp] theorem trimEndMatches_idem (d : Char) (text : Text) :
    trimEndMatches d (trimEndMatches d text) = trimEndMatches d text :=
  List.rdropWhile_idempotent _ _

theorem mem_trimEndMatches_iff {c d : Char} (h : c ≠ d) (text : Text) :
    c ∈ trimEndMatches d text ↔ c ∈ text := by
  constructor
  · exact fun hMem => (List.rdropWhile_prefix _ _).subset hMem
  · intro hMem
    obtain ⟨w, hText, hw⟩ := ListTrim.exists_rdropWhile (fun a => decide (a = d)) text
    rw [hText, List.mem_append] at hMem
    rcases hMem with hMem | hMem
    · exact hMem
    · exact absurd (of_decide_eq_true (hw c hMem)) h

theorem mem_trim_iff {c : Char} (hc : isWhitespace c = false) (text : Text) :
    c ∈ trim text ↔ c ∈ text :=
  ⟨mem_of_mem_trim, fun h => mem_trim_of_not h hc⟩

/-- Folding commutes with dropping a character that is no letter from the end. -/
theorem trimEndMatches_toAsciiLowercase {d : Char} (hUpper : isAsciiUppercase d = false)
    (hLower : isAsciiLowercase d = false) (text : Text) :
    trimEndMatches d (toAsciiLowercase text) = toAsciiLowercase (trimEndMatches d text) := by
  apply ListTrim.rdropWhile_map
  simp [charToAsciiLowercase_eq_iff hUpper hLower]

theorem trim_toAsciiLowercase (text : Text) : trim (toAsciiLowercase text) = toAsciiLowercase (trim text) :=
  ListTrim.trim_map isWhitespace isWhitespace_charToAsciiLowercase text

theorem trimmed_toAsciiLowercase_iff (text : Text) :
    Trimmed isWhitespace (toAsciiLowercase text) ↔ Trimmed isWhitespace text := by
  rw [← ListTrim.trim_eq_self_iff, ← ListTrim.trim_eq_self_iff]
  change trim (toAsciiLowercase text) = toAsciiLowercase text ↔ trim text = text
  rw [trim_toAsciiLowercase]
  constructor
  · intro h
    have hLength : (trim text).length = text.length := by
      simpa [toAsciiLowercase] using congrArg List.length h
    exact (ListTrim.trim_sublist isWhitespace text).eq_of_length hLength
  · exact congrArg toAsciiLowercase

theorem not_isWhitespace_of_folded {text other : Text}
    (h : toAsciiLowercase text = toAsciiLowercase other)
    (hOther : ∀ c ∈ other, isWhitespace c = false) : ∀ c ∈ text, isWhitespace c = false := by
  intro c hc
  have hMem : charToAsciiLowercase c ∈ toAsciiLowercase other := by
    rw [← h]
    exact List.mem_map.mpr ⟨c, hc, rfl⟩
  obtain ⟨d, hd, hFold⟩ := List.mem_map.mp hMem
  rw [← isWhitespace_charToAsciiLowercase, ← hFold, isWhitespace_charToAsciiLowercase]
  exact hOther d hd

theorem isAsciiDigit_of_mem_showU16 {n : UInt16} {c : Char} (h : c ∈ showU16 n) :
    isAsciiDigit c = true := by
  have hDigit := Nat.isDigit_of_mem_toDigits (by decide) (by decide) h
  simp only [Char.isDigit, Bool.and_eq_true, decide_eq_true_eq] at hDigit
  exact (isAsciiDigit_iff c).mpr ⟨hDigit.1, hDigit.2⟩

theorem not_isWhitespace_showU16 {n : UInt16} {c : Char} (h : c ∈ showU16 n) :
    isWhitespace c = false := by
  apply not_isWhitespace_of_isAsciiAlphanumeric
  simp [isAsciiAlphanumeric, isAsciiDigit_of_mem_showU16 h]

theorem showU16_ne_nil (n : UInt16) : showU16 n ≠ [] := Nat.toDigits_ne_nil

theorem stripPlus_of_not_mem {text : Text} (h : '+' ∉ text) : stripPlus text = text := by
  rw [stripPlus.eq_def]
  split
  · exact absurd List.mem_cons_self h
  · rfl

theorem digits_of_parseU16 {text : Text} {n : UInt16} (h : parseU16 text = some n) {d : Char}
    (hDigit : isAsciiDigit d = false) (hPlus : d ≠ '+') : d ∉ text := by
  have hStrip : ∀ c ∈ stripPlus text, isAsciiDigit c = true := by
    rw [parseU16] at h
    split at h
    · cases h
    · rename_i hTest
      simp only [Bool.or_eq_true, Bool.not_eq_true', not_or, Bool.not_eq_false, List.all_eq_true] at hTest
      exact hTest.2
  have hNot : d ∉ stripPlus text := by
    intro hMem
    rw [hStrip d hMem] at hDigit
    cases hDigit
  rw [stripPlus.eq_def] at hNot
  split at hNot
  · simp only [List.mem_cons, not_or]
    exact ⟨hPlus, hNot⟩
  · exact hNot

/-- A number has no letters, so its reading knows no case. -/
theorem parseU16_toAsciiLowercase (text : Text) : parseU16 (toAsciiLowercase text) = parseU16 text := by
  by_cases h : ∀ c ∈ text, isAsciiUppercase c = false
  · rw [toAsciiLowercase_eq_self h]
  · obtain ⟨c, hc, hUpper⟩ : ∃ c ∈ text, isAsciiUppercase c = true := by simpa using h
    have hBound := (isAsciiUppercase_iff c).mp hUpper
    have hNone {other : Text} {d : Char} (hMem : d ∈ other) (hLess : 65 ≤ d.toNat) :
        parseU16 other = none := by
      have hDigit : isAsciiDigit d = false := by
        rw [Bool.eq_false_iff, ne_eq, isAsciiDigit_iff]
        omega
      have hPlus : d ≠ '+' := by
        rintro rfl
        exact absurd hLess (by decide)
      rw [Option.eq_none_iff_forall_ne_some]
      intro n hParse
      exact digits_of_parseU16 hParse hDigit hPlus hMem
    have hLower : 65 ≤ (charToAsciiLowercase c).toNat := by
      rw [toNat_charToAsciiLowercase, hUpper, if_pos rfl]
      omega
    have hMem : charToAsciiLowercase c ∈ toAsciiLowercase text := List.mem_map.mpr ⟨c, hc, rfl⟩
    rw [hNone hc hBound.1, hNone hMem hLower]

@[simp] theorem parseU16_showU16 (n : UInt16) : parseU16 (showU16 n) = some n := by
  have hDigits : ∀ c ∈ showU16 n, isAsciiDigit c = true := fun c => isAsciiDigit_of_mem_showU16
  have hAll : (showU16 n).all isAsciiDigit = true := List.all_eq_true.mpr hDigits
  have hPlus : stripPlus (showU16 n) = showU16 n :=
    stripPlus_of_not_mem (fun h => absurd (hDigits _ h) (by decide))
  have hValue : Nat.ofDigitChars 10 (showU16 n) 0 = n.toNat := Nat.ofDigitChars_ten_toDigits
  have hBound : n.toNat < 65536 := n.toNat_lt
  simp [parseU16, hPlus, hAll, showU16_ne_nil, hValue, hBound]

theorem parseU32_of_digits {digits : Text} (hDigits : ∀ c ∈ digits, isAsciiDigit c = true)
    (hNe : digits ≠ []) (hBound : Nat.ofDigitChars 10 digits 0 < 4294967296) :
    parseU32 digits = some (UInt32.ofNat (Nat.ofDigitChars 10 digits 0)) := by
  have hPlus : stripPlus digits = digits :=
    stripPlus_of_not_mem fun h => absurd (hDigits _ h) (by decide)
  have hAll : digits.all isAsciiDigit = true := List.all_eq_true.mpr hDigits
  simp [parseU32, hPlus, hAll, hNe, hBound]

end Str
