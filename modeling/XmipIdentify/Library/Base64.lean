import Mathlib.Data.List.GetD
import Mathlib.Data.List.Nodup

/-!
# Base64 over an alphabet

Three bytes are four symbols; one or two bytes at the end are two or three.
-/

namespace Base64

set_option autoImplicit false

structure Alphabet where
  symbols : List Char
  length_eq : symbols.length = 64
  nodup : symbols.Nodup

namespace Alphabet

variable (alphabet : Alphabet)

def symbol (n : Nat) : Char := alphabet.symbols.getD n '='

def value (c : Char) : Option Nat := alphabet.symbols.idxOf? c

theorem symbol_mem {n : Nat} (h : n < 64) : alphabet.symbol n ∈ alphabet.symbols := by
  have hLength : n < alphabet.symbols.length := by rw [alphabet.length_eq]; exact h
  rw [symbol, List.getD_eq_getElem _ _ hLength]
  exact List.getElem_mem hLength

theorem value_symbol {n : Nat} (h : n < 64) : alphabet.value (alphabet.symbol n) = some n := by
  have hLength : n < alphabet.symbols.length := by rw [alphabet.length_eq]; exact h
  rw [value, symbol, List.getD_eq_getElem _ _ hLength, List.idxOf?_eq_some_iff]
  refine ⟨hLength, rfl, ?_⟩
  intro j hj hEq
  have := alphabet.nodup.getElem_inj_iff.mp hEq
  omega

def encode : List UInt8 → List Char
  | a :: b :: c :: rest =>
    alphabet.symbol (a.toNat / 4) ::
    alphabet.symbol (a.toNat % 4 * 16 + b.toNat / 16) ::
    alphabet.symbol (b.toNat % 16 * 4 + c.toNat / 64) ::
    alphabet.symbol (c.toNat % 64) :: encode rest
  | [a, b] =>
    [alphabet.symbol (a.toNat / 4), alphabet.symbol (a.toNat % 4 * 16 + b.toNat / 16),
      alphabet.symbol (b.toNat % 16 * 4)]
  | [a] => [alphabet.symbol (a.toNat / 4), alphabet.symbol (a.toNat % 4 * 16)]
  | [] => []

def byte (n : Nat) : UInt8 := UInt8.ofNat n

def decode : List Char → Option (List UInt8)
  | w :: x :: y :: z :: rest => do
    let w ← alphabet.value w
    let x ← alphabet.value x
    let y ← alphabet.value y
    let z ← alphabet.value z
    let bytes ← decode rest
    return byte (w * 4 + x / 16) :: byte (x % 16 * 16 + y / 4) :: byte (y % 4 * 64 + z) :: bytes
  | [w, x, y] => do
    let w ← alphabet.value w
    let x ← alphabet.value x
    let y ← alphabet.value y
    return [byte (w * 4 + x / 16), byte (x % 16 * 16 + y / 4)]
  | [w, x] => do
    let w ← alphabet.value w
    let x ← alphabet.value x
    return [byte (w * 4 + x / 16)]
  | [_] => none
  | [] => some []

theorem byte_eq {n : Nat} {a : UInt8} (h : n = a.toNat) : byte n = a := by
  rw [byte, h, UInt8.ofNat_toNat]

theorem decode_encode (bytes : List UInt8) : alphabet.decode (alphabet.encode bytes) = some bytes := by
  induction bytes using encode.induct with
  | case1 a b c rest ih =>
    have ha := a.toNat_lt
    have hb := b.toNat_lt
    have hc := c.toNat_lt
    simp only [encode, decode, ih]
    rw [alphabet.value_symbol (by omega), alphabet.value_symbol (by omega),
      alphabet.value_symbol (by omega), alphabet.value_symbol (by omega)]
    simp only [Option.pure_def, Option.bind_eq_bind, Option.bind_some]
    rw [byte_eq (a := a) (by omega), byte_eq (a := b) (by omega), byte_eq (a := c) (by omega)]
  | case2 a b =>
    have ha := a.toNat_lt
    have hb := b.toNat_lt
    simp only [encode, decode]
    rw [alphabet.value_symbol (by omega), alphabet.value_symbol (by omega),
      alphabet.value_symbol (by omega)]
    simp only [Option.pure_def, Option.bind_eq_bind, Option.bind_some]
    rw [byte_eq (a := a) (by omega), byte_eq (a := b) (by omega)]
  | case3 a =>
    have ha := a.toNat_lt
    simp only [encode, decode]
    rw [alphabet.value_symbol (by omega), alphabet.value_symbol (by omega)]
    simp only [Option.pure_def, Option.bind_eq_bind, Option.bind_some]
    rw [byte_eq (a := a) (by omega)]
  | case4 => rfl

theorem mem_encode {bytes : List UInt8} {s : Char} (h : s ∈ alphabet.encode bytes) :
    s ∈ alphabet.symbols := by
  induction bytes using encode.induct with
  | case1 a b c rest ih =>
    have ha := a.toNat_lt
    have hb := b.toNat_lt
    have hc := c.toNat_lt
    simp only [encode, List.mem_cons] at h
    rcases h with rfl | rfl | rfl | rfl | h
    · exact alphabet.symbol_mem (by omega)
    · exact alphabet.symbol_mem (by omega)
    · exact alphabet.symbol_mem (by omega)
    · exact alphabet.symbol_mem (by omega)
    · exact ih h
  | case2 a b =>
    have ha := a.toNat_lt
    have hb := b.toNat_lt
    simp only [encode, List.mem_cons, List.not_mem_nil, or_false] at h
    rcases h with rfl | rfl | rfl
    · exact alphabet.symbol_mem (by omega)
    · exact alphabet.symbol_mem (by omega)
    · exact alphabet.symbol_mem (by omega)
  | case3 a =>
    have ha := a.toNat_lt
    simp only [encode, List.mem_cons, List.not_mem_nil, or_false] at h
    rcases h with rfl | rfl
    · exact alphabet.symbol_mem (by omega)
    · exact alphabet.symbol_mem (by omega)
  | case4 => cases h

theorem mem_of_value {s : Char} {n : Nat} (h : alphabet.value s = some n) :
    s ∈ alphabet.symbols := by
  obtain ⟨_, rfl, _⟩ := List.idxOf?_eq_some_iff.mp h
  exact List.getElem_mem _

/-- Text with a character outside the alphabet is not decoded. -/
theorem mem_of_decode {text : List Char} {bytes : List UInt8}
    (h : alphabet.decode text = some bytes) : ∀ s ∈ text, s ∈ alphabet.symbols := by
  induction text using decode.induct generalizing bytes with
  | case1 w x y z rest ih =>
    simp only [decode, Option.bind_eq_bind, Option.bind_eq_some_iff] at h
    obtain ⟨_, hw, _, hx, _, hy, _, hz, _, hRest, _⟩ := h
    simp only [List.forall_mem_cons]
    exact ⟨alphabet.mem_of_value hw, alphabet.mem_of_value hx, alphabet.mem_of_value hy,
      alphabet.mem_of_value hz, ih hRest⟩
  | case2 w x y =>
    simp only [decode, Option.bind_eq_bind, Option.bind_eq_some_iff] at h
    obtain ⟨_, hw, _, hx, _, hy, _⟩ := h
    simp only [List.forall_mem_cons]
    exact ⟨alphabet.mem_of_value hw, alphabet.mem_of_value hx, alphabet.mem_of_value hy, by simp⟩
  | case3 w x =>
    simp only [decode, Option.bind_eq_bind, Option.bind_eq_some_iff] at h
    obtain ⟨_, hw, _, hx, _⟩ := h
    simp only [List.forall_mem_cons]
    exact ⟨alphabet.mem_of_value hw, alphabet.mem_of_value hx, by simp⟩
  | case4 w => cases h
  | case5 => simp

end Alphabet

def standard : Alphabet where
  symbols := "ABCDEFGHIJKLMNOPQRSTUVWXYZabcdefghijklmnopqrstuvwxyz0123456789+/".toList
  length_eq := by decide +kernel
  nodup := by decide +kernel

def urlSafe : Alphabet where
  symbols := "ABCDEFGHIJKLMNOPQRSTUVWXYZabcdefghijklmnopqrstuvwxyz0123456789-_".toList
  length_eq := by decide +kernel
  nodup := by decide +kernel

end Base64
