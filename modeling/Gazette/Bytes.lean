set_option autoImplicit false

/-! # Byte strings

Keys, values and payloads are lists of octets. The order of `List UInt8` is the order of the
store: octets are compared as unsigned numbers from the left, and a proper initial part of a
string comes before the string.

The file defines the fixed-width number forms in both byte orders, the end of the range of
strings with a common start (`afterPrefix`), and the least string above a given one
(`successor`).
-/

namespace Gazette

/-- A byte string. -/
abbrev Bytes := List UInt8

namespace Bytes

/-! ## Numbers of fixed width -/

/-- The low `width` octets of `n`, least significant first. -/
def littleEndian : (width : Nat) → (n : Nat) → Bytes
  | 0, _ => []
  | width + 1, n => UInt8.ofNat (n % 256) :: littleEndian width (n / 256)

/-- The low `width` octets of `n`, most significant first. -/
def bigEndian (width n : Nat) : Bytes := (littleEndian width n).reverse

/-- How many numbers `width` octets can hold. -/
def capacity : (width : Nat) → Nat
  | 0 => 1
  | width + 1 => 256 * capacity width

/-- The number whose octets are `b`, least significant first. -/
def toNatLE : Bytes → Nat
  | [] => 0
  | octet :: rest => octet.toNat + 256 * toNatLE rest

/-- The number whose octets are `b`, most significant first. -/
def toNatBE (b : Bytes) : Nat := toNatLE b.reverse

@[simp] theorem length_littleEndian (width n : Nat) : (littleEndian width n).length = width := by
  induction width generalizing n with
  | zero => rfl
  | succ width ih => simp [littleEndian, ih]

@[simp] theorem length_bigEndian (width n : Nat) : (bigEndian width n).length = width := by
  simp [bigEndian]

/-- Reading back the octets of a number gives the number, cut to the width. -/
theorem toNatLE_littleEndian (width n : Nat) :
    toNatLE (littleEndian width n) = n % capacity width := by
  induction width generalizing n with
  | zero => simp [littleEndian, toNatLE, capacity, Nat.mod_one]
  | succ width ih =>
    have low : (UInt8.ofNat (n % 256)).toNat = n % 256 := by
      simp [UInt8.toNat_ofNat']
    rw [littleEndian, toNatLE, ih, low, capacity, Nat.mod_mul]

theorem toNatBE_bigEndian (width n : Nat) :
    toNatBE (bigEndian width n) = n % capacity width := by
  simp [toNatBE, bigEndian, toNatLE_littleEndian]

/-- A byte string is the number form of the number it stands for. -/
theorem littleEndian_toNatLE (b : Bytes) : littleEndian b.length (toNatLE b) = b := by
  induction b with
  | nil => rfl
  | cons octet rest ih =>
    have small : octet.toNat < 256 := octet.toNat_lt
    have low : (octet.toNat + 256 * toNatLE rest) % 256 = octet.toNat := by omega
    have high : (octet.toNat + 256 * toNatLE rest) / 256 = toNatLE rest := by omega
    simp [littleEndian, toNatLE, low, high, ih]

/-! ## Neighbours in the order -/

/-- The least byte string that is greater than every one starting with `p`, if there is one:
the last octet of `p` that can grow grows by one, and what follows it is dropped. -/
def afterPrefix : Bytes → Option Bytes
  | [] => none
  | octet :: rest =>
    match afterPrefix rest with
    | some bound => some (octet :: bound)
    | none => if octet = 0xff then none else some [octet + 1]

/-- The least byte string greater than `b`. -/
def successor (b : Bytes) : Bytes := b ++ [0]

theorem lt_successor (b : Bytes) : b < successor b := by
  unfold successor
  induction b with
  | nil => decide
  | cons octet rest ih => simpa [List.cons_lt_cons_iff] using ih

end Bytes

end Gazette
