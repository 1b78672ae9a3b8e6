import Gazette.Identifier
import Gazette.UnixTime

set_option autoImplicit false

/-! # Binary layout

Stored records, task payloads and messages are written field by field with nothing in between:

* a number in its fixed width, least significant octet first;
* an identifier as its octets;
* a text or a byte string as its length, a 64-bit number, followed by its octets;
* an optional value as the octet `0`, or as `1` followed by the value;
* a choice as its 32-bit number, followed by its fields.

Reading goes from left to right, stops at the first fault, and leaves alone what follows the
value.
-/

namespace Gazette

namespace Wire

/-- Why bytes do not begin with a value. -/
inductive Fault where
  /-- The bytes end inside a piece of fixed width or inside a byte string. -/
  | endOfInput
  /-- A text is said to be longer than the bytes that are left. -/
  | textTooLong
  /-- The octets of a text are not text. -/
  | notText (fault : Utf8.Fault)
  /-- An optional value starts with neither `0` nor `1`. -/
  | badTag (tag : UInt8)
  /-- A choice is numbered `found` where there are only `count`. -/
  | badChoice (found : UInt32) (count : Nat)
  deriving DecidableEq, Repr

/-- The text of the fault. -/
def Fault.message : Fault → String
  | .endOfInput => "io error: unexpected end of file"
  | .textTooLong => "io error: "
  | .notText fault => "string is not valid utf8: " ++ fault.message
  | .badTag tag => s!"tag for enum is not valid, found {tag}"
  | .badChoice found count =>
    s!"invalid value: integer `{found}`, expected variant index 0 <= i < {count}"

end Wire

/-- A way to write values of `α` as bytes and to read one from the front of a byte string. -/
structure Codec (α : Type) where
  encode : α → Bytes
  decode : Bytes → Except Wire.Fault (α × Bytes)

namespace Codec

variable {α β : Type}

/-- Read one value and ignore what follows it. -/
def read (codec : Codec α) (b : Bytes) : Except Wire.Fault α := Prod.fst <$> codec.decode b

/-! ## Pieces -/

/-- Exactly `width` octets. -/
def octets (width : Nat) : Codec { b : Bytes // b.length = width } where
  encode b := b.val
  decode b :=
    if h : width ≤ b.length then .ok (⟨b.take width, by simp [h]⟩, b.drop width)
    else .error .endOfInput

/-- Write and read `β` in the layout of `α`. -/
def map (codec : Codec α) (f : α → β) (g : β → α) : Codec β where
  encode v := codec.encode (g v)
  decode b := (fun (v, rest) => (f v, rest)) <$> codec.decode b

/-- One value after another. -/
def pair (first : Codec α) (second : Codec β) : Codec (α × β) where
  encode v := first.encode v.1 ++ second.encode v.2
  decode b := do
    let (v, rest) ← first.decode b
    let (w, rest) ← second.decode rest
    .ok ((v, w), rest)

/-- An optional value. -/
def optional (codec : Codec α) : Codec (Option α) where
  encode
    | none => [0]
    | some v => 1 :: codec.encode v
  decode
    | [] => .error .endOfInput
    | tag :: rest =>
      if tag = 0 then .ok (none, rest)
      else if tag = 1 then (fun (v, rest) => (some v, rest)) <$> codec.decode rest
      else .error (.badTag tag)

/-! ## Numbers -/

/-- A number of `width` octets, least significant first. -/
def natural (width : Nat) : Codec Nat :=
  (octets width).map (fun b => Bytes.toNatLE b.val)
    (fun n => ⟨Bytes.littleEndian width n, Bytes.length_littleEndian width n⟩)

/-- A number of one octet. -/
def word8 : Codec UInt8 := (natural 1).map UInt8.ofNat UInt8.toNat

/-- A number of four octets. -/
def word32 : Codec UInt32 := (natural 4).map UInt32.ofNat UInt32.toNat

/-- A number of eight octets. -/
def word64 : Codec UInt64 := (natural 8).map UInt64.ofNat UInt64.toNat

/-- A signed number is written as the word with the same bits. -/
def int64 : Codec Int64 := word64.map UInt64.toInt64 Int64.toUInt64

/-! ## Byte strings and text -/

/-- A byte string after its length; `short` is the fault of a length that exceeds what is
left. -/
def counted (short : Wire.Fault) : Codec Bytes where
  encode b := word64.encode (UInt64.ofNat b.length) ++ b
  decode b := do
    let (length, rest) ← word64.decode b
    if length.toNat ≤ rest.length then .ok (rest.take length.toNat, rest.drop length.toNat)
    else .error short

/-- An opaque byte string. -/
def blob : Codec Bytes := counted .endOfInput

/-- A text. -/
def text : Codec String where
  encode s := (counted .textTooLong).encode (Utf8.encode s)
  decode b := do
    let (octets, rest) ← (counted .textTooLong).decode b
    match Utf8.decode octets with
    | .ok s => .ok (s, rest)
    | .error fault => .error (.notText fault)

/-! ## Domain values -/

/-- An identifier of a record is written like its key, most significant octet first. -/
def recordId : Codec RecordId :=
  (octets RecordId.width).map (fun b => ⟨UInt64.ofNat (Bytes.toNatBE b.val)⟩)
    (fun id => ⟨id.bytes, id.length_bytes⟩)

/-- An address is its twenty octets. -/
def address : Codec Address :=
  (octets Address.width).map (fun b => ⟨b.val, b.property⟩) (fun a => ⟨a.bytes, a.length_bytes⟩)

/-- A time is its number of seconds. -/
def time : Codec UnixTime := int64.map UnixTime.mk UnixTime.seconds

end Codec

end Gazette
