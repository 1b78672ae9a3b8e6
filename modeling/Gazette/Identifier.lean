import Gazette.Text.Hex

set_option autoImplicit false

/-! # Identifiers

A record is named by a number written in eight octets, most significant first, so that the order
of the octets is the order of the numbers. A principal is named by an address of twenty octets.
Both have a hexadecimal text form and can be read from it or from raw bytes.
-/

namespace Gazette

/-- Why a text or a byte string is no identifier. -/
inductive IdentifierFault where
  | invalidHex (fault : Hex.Fault)
  | invalidLength (expected actual : Nat)
  deriving DecidableEq, Repr

/-- The text of the fault. -/
def IdentifierFault.message : IdentifierFault → String
  | .invalidHex fault => "invalid hex string: " ++ fault.message
  | .invalidLength expected actual => s!"invalid byte length: expected {expected}, got {actual}"

/-! ## Records -/

/-- The primary key of a record: the number that its counter issued for it. -/
structure RecordId where
  sequence : UInt64
  deriving DecidableEq, Repr, Inhabited

namespace RecordId

/-- The number of octets of a record's key. -/
def width : Nat := 8

/-- The octets of the number, most significant first. -/
def bytes (id : RecordId) : Bytes := Bytes.bigEndian width id.sequence.toNat

/-- Read exactly eight octets. -/
def ofBytes (b : Bytes) : Except IdentifierFault RecordId :=
  if b.length = width then .ok ⟨UInt64.ofNat (Bytes.toNatBE b)⟩
  else .error (.invalidLength width b.length)

/-- The hexadecimal text. -/
def toHex (id : RecordId) : String := Hex.encode id.bytes

/-- Read sixteen hexadecimal digits. -/
def ofHex (s : String) : Except IdentifierFault RecordId :=
  match Hex.decode s with
  | .ok b => ofBytes b
  | .error fault => .error (.invalidHex fault)

/-- The short form used in diagnostics. -/
def debug (id : RecordId) : String := s!"RecordId({id.sequence})"

instance : LT RecordId := ⟨fun a b => a.sequence < b.sequence⟩
instance : LE RecordId := ⟨fun a b => a.sequence ≤ b.sequence⟩
instance (a b : RecordId) : Decidable (a < b) :=
  inferInstanceAs (Decidable (a.sequence < b.sequence))
instance (a b : RecordId) : Decidable (a ≤ b) :=
  inferInstanceAs (Decidable (a.sequence ≤ b.sequence))

@[simp] theorem length_bytes (id : RecordId) : id.bytes.length = width := by simp [bytes]

end RecordId

/-! ## Principals -/

/-- The address of a principal. -/
structure Address where
  bytes : Bytes
  length_bytes : bytes.length = 20
  deriving DecidableEq, Repr

namespace Address

/-- The number of octets of an address. -/
def width : Nat := 20

/-- Read exactly twenty octets. -/
def ofBytes (b : Bytes) : Except IdentifierFault Address :=
  if h : b.length = width then .ok ⟨b, h⟩ else .error (.invalidLength width b.length)

/-- The address whose octets are all zero; it never owns anything. -/
def zero : Address := ⟨List.replicate 20 0, by simp⟩

/-- Whether all octets are zero. -/
def isZero (a : Address) : Bool := a.bytes.all (· = 0)

/-- The hexadecimal text. -/
def toHex (a : Address) : String := Hex.encode a.bytes

/-- Read forty hexadecimal digits. -/
def ofHex (s : String) : Except IdentifierFault Address :=
  match Hex.decode s with
  | .ok b => ofBytes b
  | .error fault => .error (.invalidHex fault)

/-- The short form used in diagnostics: the first four octets. -/
def debug (a : Address) : String := "Address(" ++ Hex.encode (a.bytes.take 4) ++ ")"

instance : LT Address := ⟨fun a b => a.bytes < b.bytes⟩
instance : LE Address := ⟨fun a b => a.bytes ≤ b.bytes⟩
instance (a b : Address) : Decidable (a < b) :=
  inferInstanceAs (Decidable (a.bytes < b.bytes))
instance (a b : Address) : Decidable (a ≤ b) :=
  inferInstanceAs (Decidable (a.bytes ≤ b.bytes))

instance : Inhabited Address := ⟨zero⟩

end Address

end Gazette
