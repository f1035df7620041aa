import XmipIdentify.IdentifyError
import XmipIdentify.Library.Base64

/-!
# The codec crate

Base64 is another crate's. The model takes its functions as they are called,
and states what a result relies on as a property of them.
-/

namespace XmipIdentify

open Str

set_option autoImplicit false

structure Codec where
  decode : Text → Except CodecError Bytes
  encode : Bytes → Text
  decodeUrl : Text → Except CodecError Bytes
  encodeUrlUnpadded : Bytes → Text

def urlSymbol (c : Char) : Bool := isAsciiAlphanumeric c || (c == '-' || c == '_')

/-- What a reader of encoded text relies on. -/
structure Codec.UrlLaws (codec : Codec) : Prop where
  decode_encode : ∀ bytes, codec.decodeUrl (codec.encodeUrlUnpadded bytes) = .ok bytes
  symbols : ∀ bytes, ∀ c ∈ codec.encodeUrlUnpadded bytes, urlSymbol c = true

/-- No character outside the base64url alphabet is decoded, the padding sign included. -/
def Codec.RefusesForeign (codec : Codec) : Prop :=
  ∀ text bytes, codec.decodeUrl text = .ok bytes → ∀ c ∈ text, urlSymbol c = true

/-- What a reader of a padded credential relies on. -/
structure Codec.StandardLaws (codec : Codec) : Prop where
  decode_encode : ∀ bytes, codec.decode (codec.encode bytes) = .ok bytes
  encode_nil : codec.encode [] = []
  spaceless : ∀ bytes, ∀ c ∈ codec.encode bytes, isWhitespace c = false

theorem not_isWhitespace_of_urlSymbol {c : Char} (h : urlSymbol c = true) :
    isWhitespace c = false := by
  simp only [urlSymbol, Bool.or_eq_true, beq_iff_eq] at h
  rcases h with h | rfl | rfl
  · exact not_isWhitespace_of_isAsciiAlphanumeric h
  · decide
  · decide

namespace Codec

def decoded (bytes : Option Bytes) : Except CodecError Bytes :=
  match bytes with
  | some bytes => .ok bytes
  | none => .error ⟨"not base64"⟩

/-- Both alphabets of RFC 4648, the standard one written padded and read either way. -/
def rfc4648 : Codec where
  decode text := decoded (Base64.standard.decode (trimEndMatches '=' text))
  encode bytes :=
    Base64.standard.encode bytes ++ List.replicate ((3 - bytes.length % 3) % 3) '='
  decodeUrl text := decoded (Base64.urlSafe.decode text)
  encodeUrlUnpadded bytes := Base64.urlSafe.encode bytes

theorem decoded_eq_ok_iff (read : Option Bytes) (bytes : Bytes) :
    decoded read = .ok bytes ↔ read = some bytes := by
  cases read with
  | none => simp [decoded]
  | some other => simp [decoded]

theorem urlSymbol_of_mem {c : Char} (h : c ∈ Base64.urlSafe.symbols) : urlSymbol c = true :=
  forall_of_all (P := fun c => urlSymbol c = true) (by decide) c h

theorem rfc4648_urlLaws : rfc4648.UrlLaws where
  decode_encode bytes := by simp [rfc4648, decoded, Base64.Alphabet.decode_encode]
  symbols _ _ hc := urlSymbol_of_mem (Base64.urlSafe.mem_encode hc)

theorem StandardLaws.encode_ne_nil {codec : Codec} (laws : codec.StandardLaws) {bytes : Bytes}
    (h : bytes ≠ []) : codec.encode bytes ≠ [] := by
  intro hEmpty
  have hDecode := laws.decode_encode bytes
  rw [hEmpty, ← laws.encode_nil, laws.decode_encode] at hDecode
  exact h (Except.ok.inj hDecode).symm

theorem StandardLaws.trim_encode {codec : Codec} (laws : codec.StandardLaws) (bytes : Bytes) :
    trim (codec.encode bytes) = codec.encode bytes :=
  trim_of_trimmed (.of_forall _ (laws.spaceless bytes))

theorem rfc4648_standardLaws : rfc4648.StandardLaws where
  decode_encode bytes := by
    have hPad : '=' ∉ Base64.standard.encode bytes := fun hMem =>
      absurd (Base64.standard.mem_encode hMem) (by decide)
    rw [rfc4648, decoded_eq_ok_iff, trimEndMatches_append_replicate,
      trimEndMatches_of_not_mem hPad, Base64.Alphabet.decode_encode]
  encode_nil := rfl
  spaceless bytes c hc := by
    have hSymbols : ∀ c ∈ Base64.standard.symbols, isWhitespace c = false :=
      forall_of_all (by decide)
    rcases List.mem_append.mp hc with hc | hc
    · exact hSymbols c (Base64.standard.mem_encode hc)
    · rw [List.eq_of_mem_replicate hc]
      decide

theorem rfc4648_refusesForeign : rfc4648.RefusesForeign := by
  intro text bytes h c hc
  exact urlSymbol_of_mem (Base64.urlSafe.mem_of_decode ((decoded_eq_ok_iff _ bytes).mp h) c hc)

end Codec

end XmipIdentify
