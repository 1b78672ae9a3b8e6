import Gazette.Text.Quoted
import Gazette.Text.Utf8

set_option autoImplicit false

/-! # Hexadecimal

Each octet is written as two digits, high half first, in lower case. Reading takes digits of
either case and works on the octets of the text: an odd number of them is refused first,
otherwise the first octet that is no digit, with its place.
-/

namespace Gazette.Hex

/-- The two digits of an octet. -/
def digitPair (octet : UInt8) : List Char :=
  [Nat.digitChar (octet.toNat / 16), Nat.digitChar (octet.toNat % 16)]

/-- The digits of a byte string. -/
def encode (b : Bytes) : String := String.ofList (b.flatMap digitPair)

/-- Why a text is not hexadecimal. -/
inductive Fault where
  | oddLength
  /-- The octet `octet` at `offset` is no digit. -/
  | badDigit (octet : UInt8) (offset : Nat)
  deriving DecidableEq, Repr

/-- An octet that is no digit is shown as the character of the same number. -/
def Fault.message : Fault → String
  | .oddLength => "Odd number of digits"
  | .badDigit octet offset =>
    "Invalid character " ++ Text.quotedChar (Char.ofNat octet.toNat) ++ s!" at position {offset}"

/-- The value of a digit. -/
def digit? (octet : UInt8) : Option Nat :=
  let n := octet.toNat
  if 0x30 ≤ n ∧ n ≤ 0x39 then some (n - 0x30)
  else if 0x41 ≤ n ∧ n ≤ 0x46 then some (n - 0x41 + 10)
  else if 0x61 ≤ n ∧ n ≤ 0x66 then some (n - 0x61 + 10)
  else none

/-- Read pairs of digits; `offset` is the place of the first. -/
def decodePairs (offset : Nat) : Bytes → Except Fault Bytes
  | [] => .ok []
  | [_] => .error .oddLength
  | high :: low :: rest =>
    match digit? high, digit? low with
    | none, _ => .error (.badDigit high offset)
    | some _, none => .error (.badDigit low (offset + 1))
    | some h, some l => (UInt8.ofNat (16 * h + l) :: ·) <$> decodePairs (offset + 2) rest

/-- The byte string that the text `s` writes. -/
def decode (s : String) : Except Fault Bytes :=
  let octets := Utf8.encode s
  if octets.length % 2 = 1 then .error .oddLength else decodePairs 0 octets

end Gazette.Hex
