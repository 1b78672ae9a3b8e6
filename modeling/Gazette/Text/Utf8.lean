import Gazette.Bytes

set_option autoImplicit false

/-! # UTF-8

Text is written as bytes one character at a time, in one to four octets. Reading walks the
octets from the left and remembers either that it stands between two characters or what the
current character still needs, so it can name the first place where the bytes stop being text:

* an octet that cannot stand where it stands ends an *ill-formed* sequence, counted from the
  octet that opened the character;
* the end of the bytes inside a character leaves an *incomplete* sequence.
-/

namespace Gazette.Utf8

/-! ## Writing -/

/-- The octets of one character. -/
def encodeChar (c : Char) : Bytes :=
  let n := c.toNat
  if n < 0x80 then [UInt8.ofNat n]
  else if n < 0x800 then [UInt8.ofNat (0xc0 + n / 64), UInt8.ofNat (0x80 + n % 64)]
  else if n < 0x10000 then
    [UInt8.ofNat (0xe0 + n / 4096), UInt8.ofNat (0x80 + n / 64 % 64), UInt8.ofNat (0x80 + n % 64)]
  else
    [UInt8.ofNat (0xf0 + n / 262144), UInt8.ofNat (0x80 + n / 4096 % 64),
      UInt8.ofNat (0x80 + n / 64 % 64), UInt8.ofNat (0x80 + n % 64)]

/-- The octets of a text. -/
def encode (s : String) : Bytes := s.toList.flatMap encodeChar

/-! ## Reading -/

/-- Why bytes are not text. `start` is the number of octets before the faulty sequence, which
is the length of the text that could be read. -/
inductive Fault where
  /-- The `length` octets from `start` on begin no character. -/
  | illFormed (length start : Nat)
  /-- The bytes end inside the character that begins at `start`. -/
  | incomplete (start : Nat)
  deriving DecidableEq, Repr

/-- The text of the fault. -/
def Fault.message : Fault → String
  | .illFormed length start => s!"invalid utf-8 sequence of {length} bytes from index {start}"
  | .incomplete start => s!"incomplete utf-8 byte sequence from index {start}"

/-- What the rest of a character looks like once its first octet is known: `more` octets
follow, the first of them in `low ..= high`, and `bits` is what the first octet contributes. -/
structure Lead where
  more : Nat
  low : UInt8
  high : UInt8
  bits : Nat

/-- The characters that `octet` can open. The ranges of the second octet leave out the overlong
forms, the surrogates, and everything above the last code point. -/
def lead? (octet : UInt8) : Option Lead :=
  let n := octet.toNat
  if n < 0x80 then some ⟨0, 0x80, 0xbf, n⟩
  else if n < 0xc2 then none
  else if n < 0xe0 then some ⟨1, 0x80, 0xbf, n - 0xc0⟩
  else if n < 0xf0 then
    some ⟨2, if n = 0xe0 then 0xa0 else 0x80, if n = 0xed then 0x9f else 0xbf, n - 0xe0⟩
  else if n < 0xf5 then
    some ⟨3, if n = 0xf0 then 0x90 else 0x80, if n = 0xf4 then 0x8f else 0xbf, n - 0xf0⟩
  else none

/-- Where a reader stands: `inside` a character that began at `start`, of which `seen` octets
are read, or, if `pending` is none, between two characters. -/
structure Position where
  start : Nat
  seen : Nat := 0
  pending : Option Lead := none

/-- Read on from a position. -/
def decodeFrom : Position → Bytes → Except Fault (List Char)
  | ⟨_, _, none⟩, [] => .ok []
  | ⟨start, _, some _⟩, [] => .error (.incomplete start)
  | ⟨start, _, none⟩, octet :: rest =>
    match lead? octet with
    | none => .error (.illFormed 1 start)
    | some ⟨0, _, _, bits⟩ => (Char.ofNat bits :: ·) <$> decodeFrom ⟨start + 1, 0, none⟩ rest
    | some lead => decodeFrom ⟨start, 1, some lead⟩ rest
  | ⟨start, seen, some ⟨more, low, high, bits⟩⟩, octet :: rest =>
    if low ≤ octet ∧ octet ≤ high then
      let bits := bits * 64 + (octet.toNat - 0x80)
      if more ≤ 1 then
        (Char.ofNat bits :: ·) <$> decodeFrom ⟨start + seen + 1, 0, none⟩ rest
      else
        decodeFrom ⟨start, seen + 1, some ⟨more - 1, 0x80, 0xbf, bits⟩⟩ rest
    else .error (.illFormed seen start)

/-- The text whose octets these are. -/
def decode (b : Bytes) : Except Fault String := String.ofList <$> decodeFrom ⟨0, 0, none⟩ b

end Gazette.Utf8
