import XmipIdentify.Authorization
import XmipIdentify.Library.Glimpse
import XmipIdentify.Library.Hex

/-!
# What a claim shows of a secret

An API key without an id goes by the first bytes of its digest, a bearer token
by its first characters. Hexadecimal is another crate's.
-/

namespace XmipIdentify

open Str Glimpse

set_option autoImplicit false

namespace ApiKey

def DIGEST_PREFIX : Text := "sha256:".toList

def DIGEST_BYTES : Nat := 8

/-- `bytes.get(..stop)`. -/
def getTo (bytes : Bytes) (stop : Nat) : Option Bytes :=
  if stop ≤ bytes.length then some (bytes.take stop) else none

def digestName (encode : Bytes → Text) (hash : Bytes) : Text :=
  DIGEST_PREFIX ++ encode ((getTo hash DIGEST_BYTES).getD hash)

/-- A digest too short for the slice is shown whole. -/
theorem getTo_getD (bytes : Bytes) (stop : Nat) : (getTo bytes stop).getD bytes = bytes.take stop := by
  rw [getTo]
  split
  · rfl
  · rename_i h
    rw [Option.getD_none, List.take_of_length_le (by omega)]

end ApiKey

namespace Authorization

theorem shows_bearerShort : Shows BEARER_SHORT_FORM bearerShort :=
  shows_of_injective (List.append_left_injective ['…']) BEARER_SHORT_FORM

end Authorization

namespace ApiKey

variable {encode : Bytes → Text}

theorem shows_digestName (h : ∀ bytes, encode bytes = Hex.encode bytes) :
    Shows DIGEST_BYTES (digestName encode) := by
  have hInjective : Function.Injective fun bytes => DIGEST_PREFIX ++ encode bytes := by
    intro a b hSame
    have hDigits := List.append_cancel_left hSame
    rw [h, h] at hDigits
    exact Hex.encode_injective hDigits
  intro hash hash'
  rw [digestName, digestName, getTo_getD, getTo_getD]
  exact shows_of_injective hInjective DIGEST_BYTES hash hash'

end ApiKey

open ApiKey Authorization

/-- Two keys or two tokens are told apart by what they begin with and by nothing after it. A
longer one is never given away, a token shorter than the form always. -/
theorem secrets_show_a_glimpse {encode : Bytes → Text} (h : ∀ bytes, encode bytes = Hex.encode bytes) :
    (∀ hash hash', digestName encode hash = digestName encode hash' ↔
      hash.take DIGEST_BYTES = hash'.take DIGEST_BYTES) ∧
    (∀ hash, ∃ digits, digestName encode hash = DIGEST_PREFIX ++ digits ∧
      digits.length = 2 * min DIGEST_BYTES hash.length ∧
      Hex.decode digits = some (hash.take DIGEST_BYTES)) ∧
    (∀ hash, (∀ hash', hash'.length = hash.length →
      digestName encode hash' = digestName encode hash → hash' = hash) ↔
        hash.length ≤ DIGEST_BYTES) ∧
    (∀ token token', bearerShort token = bearerShort token' ↔
      token.take BEARER_SHORT_FORM = token'.take BEARER_SHORT_FORM) ∧
    (∀ token, (∀ token', bearerShort token' = bearerShort token → token' = token) ↔
      token.length < BEARER_SHORT_FORM) ∧
    ∀ token, (∀ token', token'.length = token.length →
      bearerShort token' = bearerShort token → token' = token) ↔
        token.length ≤ BEARER_SHORT_FORM := by
  have hName := shows_digestName h
  have : Nontrivial UInt8 := ⟨0, 1, by decide⟩
  have : Nontrivial Char := ⟨'0', '1', by decide⟩
  refine ⟨hName, ?_, hName.gives_away_length_iff, shows_bearerShort,
    shows_bearerShort.gives_away_iff, shows_bearerShort.gives_away_length_iff⟩
  intro hash
  refine ⟨Hex.encode (hash.take DIGEST_BYTES), ?_, ?_, Hex.decode_encode _⟩
  · rw [digestName, getTo_getD, h]
  · rw [Hex.length_encode, List.length_take]

/-- A digest of nine bytes is one of many of its name. -/
theorem secrets_show_a_glimpse_nine :
    ¬∀ hash', hash'.length = 9 →
      digestName Hex.encode hash' = digestName Hex.encode (List.replicate 9 0xab) →
        hash' = List.replicate 9 0xab := by
  intro hAway
  have hShort := ((@secrets_show_a_glimpse Hex.encode fun _ => rfl).2.2.1
    (List.replicate 9 0xab)).mp hAway
  exact absurd hShort (by decide)

example : digestName Hex.encode [0xba, 0x78, 0x16, 0xbf, 0x8f, 0x01, 0xcf, 0xea, 0x41] =
    "sha256:ba7816bf8f01cfea".toList := by decide

end XmipIdentify
