import Gazette.Bytes

set_option autoImplicit false

/-! # Times

Whole seconds since the epoch, as a signed 64-bit number. A time before the epoch can be held
and compared but not put into a key: only the octets of non-negative numbers are in the order
of the numbers.
-/

namespace Gazette

/-- Seconds since the epoch. -/
structure UnixTime where
  seconds : Int64
  deriving DecidableEq, Repr, Inhabited

namespace UnixTime

instance : LT UnixTime := ⟨fun a b => a.seconds < b.seconds⟩
instance : LE UnixTime := ⟨fun a b => a.seconds ≤ b.seconds⟩
instance (a b : UnixTime) : Decidable (a < b) :=
  inferInstanceAs (Decidable (a.seconds < b.seconds))
instance (a b : UnixTime) : Decidable (a ≤ b) :=
  inferInstanceAs (Decidable (a.seconds ≤ b.seconds))

/-- The number of seconds in decimal. -/
def text (t : UnixTime) : String := toString t.seconds.toInt

/-- The short form used in diagnostics. -/
def debug (t : UnixTime) : String := "UnixTime(" ++ t.text ++ ")"

/-- The epoch itself, which stands for a time that is not given. -/
def isZero (t : UnixTime) : Bool := t.seconds = 0

/-- Before the epoch. -/
def isNegative (t : UnixTime) : Bool := t.seconds < 0

/-- The nearest number to `n` that a signed 64-bit word holds. -/
def saturate (n : Int) : Int64 :=
  Int64.ofInt (max Int64.minValue.toInt (min Int64.maxValue.toInt n))

/-- The time `delta` seconds later, or the first or last time there is if that is out of
range. -/
def addSeconds (t : UnixTime) (delta : Int64) : UnixTime :=
  ⟨saturate (t.seconds.toInt + delta.toInt)⟩

/-- What is wrong with a time before the epoch. -/
def negativeReason (t : UnixTime) : String := "negative unix time " ++ t.text

/-- The eight octets of the time, most significant first, for use in a key; none before the
epoch. -/
def keyBytes? (t : UnixTime) : Option Bytes :=
  if t.isNegative then none else some (Bytes.bigEndian 8 t.seconds.toInt.toNat)

end UnixTime

end Gazette
