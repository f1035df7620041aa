import XmipIdentify.Authorization

/-!
# The parameter list, read compositionally

Against the source's flags stands a three-state account of quoting. A list
whose quotes are closed returns the scan to its start, so what follows a comma
is read as if it stood alone; a written list then reads back item by item, the
values only up to the trim that runs after unquoting.
-/

namespace XmipIdentify.Authorization

open Str ListCut

set_option autoImplicit false

/-- Where a reader of quoted text stands. -/
inductive QuoteState where
  | unquoted
  | quoted
  | escaped
deriving DecidableEq

def QuoteState.next : QuoteState → Char → QuoteState
  | .escaped, _ => .quoted
  | .quoted, c => if c = '\\' then .escaped else if c = '"' then .unquoted else .quoted
  | .unquoted, c => if c = '"' then .quoted else .unquoted

def Closed (text : Text) : Prop := text.foldl QuoteState.next .unquoted = .unquoted

instance (text : Text) : Decidable (Closed text) :=
  inferInstanceAs (Decidable (_ = QuoteState.unquoted))

/-- No comma stands outside quotes. -/
def Commaless : QuoteState → Text → Prop
  | _, [] => True
  | q, c :: rest => ¬(q = .unquoted ∧ c = ',') ∧ Commaless (q.next c) rest

/-- The flags of a scan, as a quote state has them. -/
structure Scan.At (q : QuoteState) (scan : Scan) : Prop where
  quoted : scan.quoted = decide (q ≠ .unquoted)
  escaped : scan.escaped = decide (q = .escaped)

theorem Scan.at_start : Scan.At .unquoted .start := ⟨rfl, rfl⟩

theorem Scan.At.step {q : QuoteState} {scan : Scan} (h : scan.At q) (c : Char) :
    (scan.step c).1.At (q.next c) := by
  obtain ⟨current, quoted, escaped⟩ := scan
  obtain ⟨rfl, rfl⟩ : quoted = decide (q ≠ .unquoted) ∧ escaped = decide (q = .escaped) :=
    ⟨h.quoted, h.escaped⟩
  cases q with
  | escaped => exact ⟨rfl, rfl⟩
  | quoted =>
    by_cases hSlash : c = '\\'
    · subst hSlash
      exact ⟨rfl, rfl⟩
    · by_cases hQuote : c = '"'
      · subst hQuote
        exact ⟨rfl, rfl⟩
      · constructor <;> simp [Scan.step, QuoteState.next, hSlash, hQuote]
  | unquoted =>
    by_cases hQuote : c = '"'
    · subst hQuote
      exact ⟨rfl, rfl⟩
    · by_cases hComma : c = ','
      · subst hComma
        exact ⟨rfl, rfl⟩
      · constructor <;> simp [Scan.step, QuoteState.next, hQuote, hComma]

theorem Scan.At.run {q : QuoteState} {scan : Scan} (h : scan.At q) (text : Text) :
    (scanner.state scan text).At (text.foldl QuoteState.next q) :=
  scanner.simulates QuoteState.next (fun scan q => scan.At q) (fun _ _ c h => h.step c) scan q h text

/-- At a comma outside quotes the scan pushes what it holds and starts again. -/
theorem Scan.At.comma {scan : Scan} (h : scan.At .unquoted) :
    scan.step ',' = (.start, pushed scan.current) := by
  obtain ⟨current, quoted, escaped⟩ := scan
  obtain ⟨rfl, rfl⟩ : quoted = false ∧ escaped = false := ⟨h.quoted, h.escaped⟩
  rfl

theorem Scan.At.silent {q : QuoteState} {scan : Scan} (h : scan.At q) {c : Char}
    (hc : ¬(q = .unquoted ∧ c = ',')) : (scan.step c).2 = [] := by
  obtain ⟨current, quoted, escaped⟩ := scan
  obtain ⟨rfl, rfl⟩ : quoted = decide (q ≠ .unquoted) ∧ escaped = decide (q = .escaped) :=
    ⟨h.quoted, h.escaped⟩
  rw [Scan.step]
  split
  · rfl
  · split
    · rfl
    · split
      · rfl
      · split
        · rename_i hComma
          refine absurd ?_ hc
          simpa [and_comm] using hComma
        · rfl

theorem state_closed_comma {text : Text} (h : Closed text) :
    scanner.state .start (text ++ [',']) = .start := by
  have hAt : (scanner.state .start text).At .unquoted := h ▸ Scan.at_start.run text
  rw [scanner.state_append]
  exact congrArg Prod.fst hAt.comma

theorem parameters_append {a : Text} (h : Closed a) (b : Text) :
    parameters (a ++ ',' :: b) = parameters a ++ parameters b := by
  have hText : a ++ ',' :: b ++ [','] = (a ++ [',']) ++ (b ++ [',']) := by simp
  rw [parameters, hText, scanner.output_append, state_closed_comma h]
  rfl

theorem commaless_append_comma {q : QuoteState} {text : Text} (h : Commaless q text)
    (hEnd : text.foldl QuoteState.next q ≠ .unquoted) : Commaless q (text ++ [',']) := by
  induction text generalizing q with
  | nil => exact ⟨fun hq => hEnd hq.1, trivial⟩
  | cons c rest ih => exact ⟨h.1, ih h.2 hEnd⟩

/-- An unclosed quote swallows the source's own final comma, so nothing is pushed. -/
theorem parameters_unclosed {text : Text} (h : Commaless .unquoted text) (hEnd : ¬Closed text) :
    parameters text = [] := by
  refine scanner.output_eq_nil (fun scan rest => ∃ q, scan.At q ∧ Commaless q rest) ?_ .start _
    ⟨.unquoted, Scan.at_start, commaless_append_comma h hEnd⟩
  rintro scan c rest ⟨q, hAt, hHere, hRest⟩
  exact ⟨hAt.silent hHere, q.next c, hAt.step c, hRest⟩

/-- A closed list does not disturb what follows it, and an unclosed item is dropped whole. -/
theorem parameters_compose (a : Text) (ha : Closed a) :
    (∀ b, parameters (a ++ ',' :: b) = parameters a ++ parameters b) ∧
    (∀ b name, parameter (a ++ ',' :: b) name = (parameter a name).or (parameter b name)) ∧
    ∀ c, Commaless .unquoted c → ¬Closed c → parameters (a ++ ',' :: c) = parameters a := by
  refine ⟨parameters_append ha, ?_, ?_⟩
  · intro b name
    rw [parameter, parameters_append ha, List.find?_append, Option.map_or]
    rfl
  · intro c hc hEnd
    rw [parameters_append ha, parameters_unclosed hc hEnd, List.append_nil]

theorem parameters_compose_quoted_comma :
    parameters ("uri=\"/a,b\"".toList ++ ',' :: "qop=auth".toList) =
      parameters "uri=\"/a,b\"".toList ++ parameters "qop=auth".toList :=
  (parameters_compose "uri=\"/a,b\"".toList (by decide)).1 "qop=auth".toList

/-- A backslash before each quote and each backslash. -/
def esc (value : Text) : Text :=
  value.flatMap fun c => if c = '"' ∨ c = '\\' then ['\\', c] else [c]

def item (pair : Text × Text) : Text := pair.1 ++ '=' :: '"' :: (esc pair.2 ++ ['"'])

def encode (pairs : List (Text × Text)) : Text := [',', ' '].intercalate (pairs.map item)

structure Token (name : Text) : Prop where
  ne_nil : name ≠ []
  plain : ∀ c ∈ name, isWhitespace c = false ∧ c ≠ '"' ∧ c ≠ ',' ∧ c ≠ '=' ∧ c ≠ '\\'

theorem run_plain (current text : Text) (hText : ∀ c ∈ text, c ≠ '"' ∧ c ≠ ',') :
    scanner.run ⟨current, false, false⟩ text = (⟨current ++ text, false, false⟩, []) := by
  induction text generalizing current with
  | nil => simp [Transducer.run]
  | cons c rest ih =>
    obtain ⟨hQuote, hComma⟩ := hText c List.mem_cons_self
    have hStep : scanner.step ⟨current, false, false⟩ c = (⟨current ++ [c], false, false⟩, []) := by
      simp [scanner, Scan.step, hQuote, hComma]
    rw [scanner.run_cons hStep, ih _ (fun d hd => hText d (List.mem_cons_of_mem _ hd))]
    simp

/-- Inside quotes the escapes are undone one by one, whatever the value holds. -/
theorem run_esc (current value : Text) :
    scanner.run ⟨current, true, false⟩ (esc value) = (⟨current ++ value, true, false⟩, []) := by
  induction value generalizing current with
  | nil => simp [esc, Transducer.run]
  | cons c rest ih =>
    by_cases hc : c = '"' ∨ c = '\\'
    · have hEsc : esc (c :: rest) = '\\' :: c :: esc rest := by simp [esc, hc]
      have hSlash : scanner.step ⟨current, true, false⟩ '\\' = (⟨current, true, true⟩, []) := rfl
      have hTaken : scanner.step ⟨current, true, true⟩ c = (⟨current ++ [c], true, false⟩, []) := rfl
      rw [hEsc, scanner.run_cons hSlash, scanner.run_cons hTaken, ih]
      simp
    · have hEsc : esc (c :: rest) = c :: esc rest := by simp [esc, hc]
      rw [not_or] at hc
      have hTaken : scanner.step ⟨current, true, false⟩ c = (⟨current ++ [c], true, false⟩, []) := by
        simp [scanner, Scan.step, hc.1, hc.2]
      rw [hEsc, scanner.run_cons hTaken, ih]
      simp

theorem run_item {w name : Text} (hw : ∀ c ∈ w, isWhitespace c = true) (hName : Token name)
    (value : Text) :
    scanner.run .start (w ++ item (name, value)) = (⟨w ++ name ++ '=' :: value, false, false⟩, []) := by
  have hPlain : ∀ c ∈ w ++ name ++ ['='], c ≠ '"' ∧ c ≠ ',' := by
    intro c hc
    rw [List.mem_append, List.mem_append, List.mem_singleton] at hc
    rcases hc with (hc | hc) | rfl
    · exact ⟨ne_of_isWhitespace (hw c hc) (by decide), ne_of_isWhitespace (hw c hc) (by decide)⟩
    · exact ⟨(hName.plain c hc).2.1, (hName.plain c hc).2.2.1⟩
    · decide
  have hText : w ++ item (name, value) = (w ++ name ++ ['=']) ++ '"' :: (esc value ++ ['"']) := by
    simp [item]
  have hOpen (current : Text) :
      scanner.step ⟨current, false, false⟩ '"' = (⟨current, true, false⟩, []) := rfl
  have hClose (current : Text) :
      scanner.step ⟨current, true, false⟩ '"' = (⟨current, false, false⟩, []) := rfl
  rw [hText, scanner.run_append]
  change ((scanner.run (scanner.run ⟨[], false, false⟩ _).1 _).1, (scanner.run ⟨[], false, false⟩ _).2 ++
    (scanner.run (scanner.run ⟨[], false, false⟩ _).1 _).2) = _
  rw [run_plain [] _ hPlain, scanner.run_cons (hOpen _), scanner.run_append, run_esc,
    scanner.run_cons (hClose _)]
  simp [Transducer.run]

theorem closed_item {w name : Text} (hw : ∀ c ∈ w, isWhitespace c = true) (hName : Token name)
    (value : Text) : Closed (w ++ item (name, value)) := by
  have hAt := Scan.at_start.run (w ++ item (name, value))
  rw [Transducer.state, run_item hw hName] at hAt
  have hQuoted : false = decide (List.foldl QuoteState.next .unquoted (w ++ item (name, value)) ≠
      .unquoted) := hAt.quoted
  simpa [Closed] using hQuoted

theorem parameters_item {w name : Text} (hw : ∀ c ∈ w, isWhitespace c = true) (hName : Token name)
    (value : Text) :
    parameters (w ++ item (name, value)) = [(toAsciiLowercase name, trim value)] := by
  have hEquals : '=' ∉ w ++ name := by
    rw [List.mem_append, not_or]
    exact ⟨fun h => ne_of_isWhitespace (hw _ h) (by decide) rfl, fun h => (hName.plain _ h).2.2.2.1 rfl⟩
  have hTrim : trim (w ++ name) = name := by
    have hTrimmed := ListTrim.Trimmed.of_forall isWhitespace (fun c hc => (hName.plain c hc).1)
    rw [trim_append_of_whitespace hw, trim_of_trimmed hTrimmed]
  have hPushed : pushed (w ++ name ++ '=' :: value) = [(toAsciiLowercase name, trim value)] := by
    rw [pushed, splitOnce_append '=' _ _ hEquals]
    simp only
    rw [hTrim]
  rw [parameters, scanner.output_append, Transducer.output, Transducer.state, run_item hw hName]
  exact congrArg (· ++ []) hPushed

/-- What is left after the last item holds no parameter. -/
theorem parameters_whitespace {w : Text} (hw : ∀ c ∈ w, isWhitespace c = true) :
    parameters w = [] := by
  have hPlain : ∀ c ∈ w, c ≠ '"' ∧ c ≠ ',' := fun c hc =>
    ⟨ne_of_isWhitespace (hw c hc) (by decide), ne_of_isWhitespace (hw c hc) (by decide)⟩
  have hEquals : '=' ∉ w := fun h => ne_of_isWhitespace (hw _ h) (by decide) rfl
  have hPushed : pushed w = [] := by rw [pushed, (splitOnce_eq_none_iff '=' w).mpr hEquals]
  rw [parameters, scanner.output_append, Transducer.output, Transducer.state, Scan.start,
    run_plain [] w hPlain]
  exact congrArg (· ++ []) hPushed

/-- What a written list reads back as: the names folded, the values trimmed. -/
theorem parameters_encode (pairs : List (Text × Text)) (hNames : ∀ pair ∈ pairs, Token pair.1) :
    parameters (encode pairs) = pairs.map fun (name, value) => (toAsciiLowercase name, trim value) := by
  have hLead : ∀ w : Text, (∀ c ∈ w, isWhitespace c = true) → parameters (w ++ encode pairs) =
      pairs.map fun (name, value) => (toAsciiLowercase name, trim value) := by
    induction pairs with
    | nil =>
      intro w hw
      rw [encode, List.map_nil, List.intercalate_nil, List.append_nil, parameters_whitespace hw,
        List.map_nil]
    | cons pair pairs ih =>
      obtain ⟨name, value⟩ := pair
      intro w hw
      have hName : Token name := hNames _ List.mem_cons_self
      cases pairs with
      | nil =>
        have hEncode : encode [(name, value)] = item (name, value) := by
          simp [encode, List.intercalate]
        rw [hEncode, parameters_item hw hName]
        rfl
      | cons next pairs =>
        have hEncode : w ++ encode ((name, value) :: next :: pairs) =
            (w ++ item (name, value)) ++ ',' :: ([' '] ++ encode (next :: pairs)) := by
          simp [encode, List.intercalate]
        have hRest := ih (fun p hp => hNames p (List.mem_cons_of_mem _ hp)) [' '] (forall_of_all (by decide))
        rw [hEncode, parameters_append (closed_item hw hName value), parameters_item hw hName, hRest]
        rfl
  exact hLead [] (by simp)

/-- A written list reads back as written exactly when no value has outer whitespace. -/
theorem parameters_encode_iff (pairs : List (Text × Text)) (hNames : ∀ pair ∈ pairs, Token pair.1) :
    (parameters (encode pairs) = pairs.map fun (name, value) => (toAsciiLowercase name, value)) ↔
      ∀ pair ∈ pairs, trim pair.2 = pair.2 := by
  rw [parameters_encode pairs hNames, List.map_inj_left]
  constructor
  · intro h pair hPair
    exact congrArg Prod.snd (h pair hPair)
  · intro h pair hPair
    exact congrArg (Prod.mk (toAsciiLowercase pair.1)) (h pair hPair)

theorem token_qop : Token "qop".toList := ⟨by decide, forall_of_all (by decide)⟩

theorem parameters_encode_iff_qop :
    parameters (encode [("qop".toList, "a, \"b\\".toList)]) = [("qop".toList, "a, \"b\\".toList)] :=
  (parameters_encode_iff [("qop".toList, "a, \"b\\".toList)] (by simpa using token_qop)).mpr (by decide)

theorem parameters_encode_loses_space :
    ¬ ∀ pairs : List (Text × Text), (∀ pair ∈ pairs, Token pair.1) →
      parameters (encode pairs) = pairs.map fun (name, value) => (toAsciiLowercase name, value) := by
  intro h
  exact absurd (h [("qop".toList, " a".toList)] (by simpa using token_qop)) (by decide)

end XmipIdentify.Authorization
