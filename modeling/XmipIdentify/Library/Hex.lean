import Mathlib.Data.List.GetD

/-!
# Bytes in hexadecimal

Two lower-case digits a byte, the high half first.
-/

namespace Hex

set_option autoImplicit false

def digits : List Char := "0123456789abcdef".toList

def digit (n : Nat) : Char := digits.getD n '0'

def value (c : Char) : Option Nat := digits.idxOf? c

def encode : List UInt8 → List Char
  | [] => []
  | b :: rest => digit (b.toNat / 16) :: digit (b.toNat % 16) :: encode rest

def decode : List Char → Option (List UInt8)
  | [] => some []
  | [_] => none
  | high :: low :: rest => do
    let high ← value high
    let low ← value low
    let bytes ← decode rest
    return UInt8.ofNat (high * 16 + low) :: bytes

theorem value_digit : ∀ n < 16, value (digit n) = some n := by decide

theorem decode_encode (bytes : List UInt8) : decode (encode bytes) = some bytes := by
  induction bytes with
  | nil => rfl
  | cons b rest ih =>
    have hByte := b.toNat_lt
    have hHalves : b.toNat / 16 * 16 + b.toNat % 16 = b.toNat := by omega
    rw [encode, decode, value_digit _ (by omega), value_digit _ (by omega), ih]
    dsimp only [Option.bind_eq_bind, Option.bind_some]
    rw [hHalves, UInt8.ofNat_toNat]
    rfl

theorem encode_injective : Function.Injective encode := by
  intro a b h
  have hDecode := decode_encode a
  rw [h, decode_encode b] at hDecode
  exact (Option.some.inj hDecode).symm

theorem length_encode (bytes : List UInt8) : (encode bytes).length = 2 * bytes.length := by
  induction bytes with
  | nil => rfl
  | cons b rest ih =>
    rw [encode, List.length_cons, List.length_cons, ih, List.length_cons]
    omega

end Hex
