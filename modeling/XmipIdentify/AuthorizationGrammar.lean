import XmipIdentify.AuthorizationList
import XmipIdentify.Library.Cutter

/-!
# What a parameter list means

The list is the pieces between its commas outside quotes, and each piece is
read on its own: closed quotes, a `=`, a name and a value. The scan of the
source reads every text, written well or not, exactly so.
-/

namespace XmipIdentify.Authorization

open Str ListCut

set_option autoImplicit false

def quoting : Cutter QuoteState Char := ⟨',', .unquoted, QuoteState.next, (· == .unquoted)⟩

/-- Whether a character belongs to the text, or only quotes it. -/
def QuoteState.keeps : QuoteState → Char → Bool
  | .escaped, _ => true
  | .quoted, c => c != '\\' && c != '"'
  | .unquoted, c => c != '"'

def unquote : QuoteState → Text → Text
  | _, [] => []
  | q, c :: rest => (if q.keeps c then [c] else []) ++ unquote (q.next c) rest

def readPiece (piece : Text) : List (Text × Text) :=
  if Closed piece then pushed (unquote .unquoted piece) else []

/-- The piece is closed and gives this name, up to case, this value. -/
def Gives (piece name value : Text) : Prop :=
  Closed piece ∧ ∃ written text, unquote .unquoted piece = written ++ '=' :: text ∧
    '=' ∉ written ∧ toAsciiLowercase (trim written) = toAsciiLowercase name ∧ trim text = value

theorem cuts_iff (q : QuoteState) : quoting.cuts q = true ↔ q = .unquoted := beq_iff_eq

theorem closed_iff_cuts (piece : Text) :
    Closed piece ↔ quoting.cuts (quoting.run quoting.start piece) = true :=
  (cuts_iff _).symm

theorem scanner_follows : quoting.Follows scanner (fun scan q => scan.At q) .start where
  start := Scan.at_start
  step _ _ c hAt := hAt.step c
  silent _ q _ hAt hHere := hAt.silent (by rwa [cuts_iff q] at hHere)
  again _ q hAt hCut := by
    rw [cuts_iff] at hCut
    subst hCut
    exact congrArg Prod.fst hAt.comma

/-- What one character adds to the text being gathered. -/
theorem Scan.At.current {q : QuoteState} {scan : Scan} (h : scan.At q) {c : Char}
    (hHere : ¬(q = .unquoted ∧ c = ',')) :
    (scan.step c).1.current = scan.current ++ if q.keeps c then [c] else [] := by
  obtain ⟨current, quoted, escaped⟩ := scan
  obtain ⟨rfl, rfl⟩ : quoted = decide (q ≠ .unquoted) ∧ escaped = decide (q = .escaped) :=
    ⟨h.quoted, h.escaped⟩
  cases q with
  | escaped => rfl
  | quoted =>
    by_cases hSlash : c = '\\'
    · simp [Scan.step, QuoteState.keeps, hSlash]
    · by_cases hQuote : c = '"' <;> simp [Scan.step, QuoteState.keeps, hSlash, hQuote]
  | unquoted =>
    have hComma : c ≠ ',' := fun hComma => hHere ⟨rfl, hComma⟩
    by_cases hQuote : c = '"' <;> simp [Scan.step, QuoteState.keeps, hComma, hQuote]

theorem current_unbroken {q : QuoteState} {scan : Scan} (h : scan.At q) {piece : Text}
    (hPiece : quoting.Unbroken q piece) :
    (scanner.state scan piece).current = scan.current ++ unquote q piece := by
  induction piece generalizing q scan with
  | nil => exact (List.append_nil _).symm
  | cons c rest ih =>
    obtain ⟨hHere, hRest⟩ := hPiece
    rw [cuts_iff] at hHere
    have hStep : scanner.state scan (c :: rest) = scanner.state (scan.step c).1 rest := rfl
    rw [hStep, ih (h.step c) hRest, h.current hHere, unquote, List.append_assoc]

/-- One piece with the comma after it: read where its quotes close, lost where they do not. -/
theorem output_piece {piece : Text} (hPiece : quoting.Unbroken quoting.start piece) :
    scanner.output .start (piece ++ [',']) = readPiece piece := by
  rw [readPiece]
  split
  · rename_i hClosed
    have hAt : (scanner.state .start piece).At .unquoted := hClosed ▸ Scan.at_start.run piece
    have hHeld : (scanner.state .start piece).current = unquote .unquoted piece :=
      current_unbroken Scan.at_start hPiece
    have hPushed : scanner.output (scanner.state .start piece) [','] =
        pushed (unquote .unquoted piece) := by
      rw [← hHeld]
      exact (List.append_nil _).trans (congrArg Prod.snd hAt.comma)
    rw [scanner.output_append, scanner_follows.output_unbroken hPiece, hPushed, List.nil_append]
  · rename_i hOpen
    rw [closed_iff_cuts, Bool.not_eq_true] at hOpen
    exact scanner_follows.output_open hPiece hOpen

theorem parameters_pieces {list : Text} {pieces : List Text}
    (hPieces : quoting.Pieces list pieces) : parameters list = pieces.flatMap readPiece := by
  have hOutput : parameters list = pieces.flatMap fun piece => scanner.output .start (piece ++ [',']) :=
    scanner_follows.output_pieces hPieces
  rw [hOutput, List.flatMap_def, List.flatMap_def]
  refine congrArg List.flatten (List.map_congr_left fun piece hMem => ?_)
  apply output_piece
  exact hPieces.unbroken _ piece hMem

theorem find_readPiece (piece name value : Text) :
    ((readPiece piece).find? fun (candidate, _) => eqIgnoreAsciiCase candidate name).map Prod.snd =
      some value ↔ Gives piece name value := by
  by_cases hClosed : Closed piece
  · rw [readPiece, if_pos hClosed, pushed]
    split
    · rename_i hNone
      rw [splitOnce_eq_none_iff] at hNone
      constructor
      · intro h
        cases h
      rintro ⟨_, written, text, hText, _⟩
      exact absurd (hText ▸ List.mem_append_right written List.mem_cons_self) hNone
    · rename_i written text hCut
      have hFind : (([(toAsciiLowercase (trim written), trim text)].find? fun (candidate, _) =>
          eqIgnoreAsciiCase candidate name).map Prod.snd = some value) ↔
          toAsciiLowercase (trim written) = toAsciiLowercase name ∧ trim text = value := by
        by_cases hName : toAsciiLowercase (trim written) = toAsciiLowercase name <;>
          simp [eqIgnoreAsciiCase, hName]
      rw [hFind]
      constructor
      · rintro ⟨hName, hValue⟩
        obtain ⟨hText, hBefore⟩ := (splitOnce_eq_some_iff _ _ _ _).mp hCut
        exact ⟨hClosed, written, text, hText, hBefore, hName, hValue⟩
      · rintro ⟨_, written', text', hText, hBefore, hName, hValue⟩
        have hSame : some (written, text) = some (written', text') :=
          hCut.symm.trans ((splitOnce_eq_some_iff _ _ _ _).mpr ⟨hText, hBefore⟩)
        obtain ⟨rfl, rfl⟩ := Prod.mk.inj (Option.some.inj hSame)
        exact ⟨hName, hValue⟩
  · rw [readPiece, if_neg hClosed]
    constructor
    · intro h
      cases h
    · intro hGives
      exact absurd hGives.1 hClosed

theorem parameter_pieces {list : Text} {pieces : List Text} (hPieces : quoting.Pieces list pieces)
    (name value : Text) :
    parameter list name = some value ↔ ∃ earlier piece later, pieces = earlier ++ piece :: later ∧
      Gives piece name value ∧ ∀ other ∈ earlier, ∀ text, ¬Gives other name text := by
  rw [parameter, parameters_pieces hPieces, List.find?_flatMap, List.map_findSome?,
    List.findSome?_eq_some_iff]
  refine exists_congr fun earlier => exists_congr fun piece => exists_congr fun later => ?_
  refine and_congr_right fun _ => and_congr (find_readPiece piece name value) ?_
  refine forall₂_congr fun other _ => ?_
  rw [Option.eq_none_iff_forall_ne_some]
  exact forall_congr' fun text => not_congr (find_readPiece other name text)

/-- Every text is cut into pieces in one way, and its parameters are those of its closed pieces. -/
theorem parameters_refine_grammar (list : Text) :
    ∃ pieces, quoting.Pieces list pieces ∧ (∀ others, quoting.Pieces list others → others = pieces) ∧
      parameters list = pieces.flatMap readPiece ∧
      ∀ name value, parameter list name = some value ↔
        ∃ earlier piece later, pieces = earlier ++ piece :: later ∧ Gives piece name value ∧
          ∀ other ∈ earlier, ∀ text, ¬Gives other name text := by
  obtain ⟨pieces, hPieces⟩ := quoting.exists_pieces list
  refine ⟨pieces, hPieces, ?_, parameters_pieces hPieces, parameter_pieces hPieces⟩
  intro others hOthers
  exact Cutter.Pieces.unique quoting hOthers hPieces

end XmipIdentify.Authorization
