import Gazette.Text.Utf8

set_option autoImplicit false

/-! # Names

Buckets, indexes and counters are named by one to 32 lower-case letters and digits. The three
punctuation marks of the key layout, `:`, `_` and `.`, cannot occur in a name, which keeps the
keys of different names apart.
-/

namespace Gazette

/-- Why a text is no name. -/
inductive NameFault where
  | empty
  | tooLong
  | badCharacter
  deriving DecidableEq, Repr

/-- The text of the fault. -/
def NameFault.message : NameFault → String
  | .empty => "name must not be empty"
  | .tooLong => "name longer than 32 bytes"
  | .badCharacter => "only lowercase ascii letters and digits allowed"

namespace Name

/-- A lower-case letter or a digit. -/
def isNameByte (octet : UInt8) : Bool :=
  (0x61 ≤ octet && octet ≤ 0x7a) || (0x30 ≤ octet && octet ≤ 0x39)

/-- The first rule that the octets of a text break. -/
def fault? (b : Bytes) : Option NameFault :=
  if b.isEmpty then some .empty
  else if 32 < b.length then some .tooLong
  else if b.all isNameByte then none
  else some .badCharacter

end Name

/-- A text that obeys the rules for names. -/
structure Name where
  text : String
  valid : Name.fault? (Utf8.encode text) = none := by decide
  deriving DecidableEq, Repr

namespace Name

/-- The octets of a name, as they stand in keys. -/
def bytes (name : Name) : Bytes := Utf8.encode name.text

/-- Read a name. -/
def ofString (s : String) : Except NameFault Name :=
  match h : fault? (Utf8.encode s) with
  | none => .ok ⟨s, h⟩
  | some fault => .error fault

end Name

end Gazette
