import Gazette.Identifier
import Gazette.Proofs.Bytes
import Gazette.Proofs.Text.Hex

set_option autoImplicit false

/-! # Identifiers read back

The octets of a record's number read back, and they are in the order of the numbers
(`RecordId.bytes_lt_iff`). The octets of numbers and of addresses are all byte strings of their
width (`ReadsWidth`). That is all that their hexadecimal form depends on (`ReadsWidth.hexForm`):
which texts are read, which fault is named for the others, and that what is read is what is
written but for the case of the digits (`HexForm`).
-/

namespace Gazette

/-! ## Octets -/

/-- The byte strings of one width are read as the values whose octets they are, and all others are
refused. -/
structure ReadsWidth {α : Type} (octets : α → Bytes) (ofOctets : Bytes → Except IdentifierFault α)
    (width : Nat) : Prop where
  reads_back : ∀ x, ofOctets (octets x) = .ok x
  exists_octets : ∀ b, b.length = width → ∃ x, octets x = b
  refuses : ∀ b, b.length ≠ width → ofOctets b = .error (.invalidLength width b.length)

namespace RecordId

theorem ofBytes_bytes (id : RecordId) : ofBytes id.bytes = .ok id := by
  have fits : id.sequence.toNat < Bytes.capacity 8 := id.sequence.toNat_lt
  rw [ofBytes, if_pos id.length_bytes, bytes, Bytes.toNatBE_bigEndian, width,
    Nat.mod_eq_of_lt fits, UInt64.ofNat_toNat]

theorem bytes_injective {i j : RecordId} (h : i.bytes = j.bytes) : i = j := by
  have same : Except.ok i = (Except.ok j : Except IdentifierFault RecordId) := by
    rw [← ofBytes_bytes, h, ofBytes_bytes]
  exact Except.ok.inj same

theorem bytes_inj {i j : RecordId} : i.bytes = j.bytes ↔ i = j :=
  ⟨bytes_injective, congrArg bytes⟩

theorem bytes_lt_iff {i j : RecordId} : i.bytes < j.bytes ↔ i < j :=
  (Bytes.bigEndian_lt_iff i.sequence.toNat_lt j.sequence.toNat_lt).trans
    UInt64.lt_iff_toNat_lt.symm

/-! What follows the octets of a number counts only if the numbers are the same. -/

section

variable {i j : RecordId} {s t : Bytes}

theorem bytes_append_inj : i.bytes ++ s = j.bytes ++ t ↔ i = j ∧ s = t := by
  have width : i.bytes.length = j.bytes.length := by simp
  constructor
  · intro same
    obtain ⟨ids, rests⟩ := List.append_inj same width
    exact ⟨bytes_injective ids, rests⟩
  · rintro ⟨rfl, rfl⟩
    rfl

theorem bytes_append_lt_iff : i.bytes ++ s < j.bytes ++ t ↔ i < j ∨ (i = j ∧ s < t) := by
  have width : i.bytes.length = j.bytes.length := by simp
  rw [Bytes.append_lt_append_iff_of_length_eq width, bytes_lt_iff, bytes_inj]

theorem bytes_prefix_append_iff : i.bytes <+: j.bytes ++ t ↔ j = i := by
  constructor
  · rintro ⟨s, same⟩
    exact (bytes_append_inj.1 same).1.symm
  · rintro rfl
    exact List.prefix_append _ _

end

/-- Eight octets are those of the number that they stand for. -/
theorem bytes_ofNat_toNatBE {b : Bytes} (h : b.length = width) :
    bytes ⟨UInt64.ofNat (Bytes.toNatBE b)⟩ = b := by
  have fits : Bytes.toNatBE b < UInt64.size := by
    have bound := Bytes.toNatBE_lt_capacity b
    rwa [h] at bound
  rw [bytes, UInt64.toNat_ofNat_of_lt' fits, ← h, Bytes.bigEndian_toNatBE]

/-- A string that is long enough starts with the octets of a number. -/
theorem exists_bytes_prefix {b : Bytes} (h : width ≤ b.length) :
    ∃ id : RecordId, id.bytes <+: b := by
  have length : (b.take width).length = width := by rw [List.length_take, Nat.min_eq_left h]
  refine ⟨⟨UInt64.ofNat (Bytes.toNatBE (b.take width))⟩, ?_⟩
  rw [bytes_ofNat_toNatBE length]
  exact List.take_prefix width b

theorem readsWidth : ReadsWidth bytes ofBytes width where
  reads_back := ofBytes_bytes
  exists_octets _ length := ⟨_, bytes_ofNat_toNatBE length⟩
  refuses _ length := if_neg length

end RecordId

theorem Address.readsWidth : ReadsWidth Address.bytes Address.ofBytes Address.width where
  reads_back a := dif_pos a.length_bytes
  exists_octets b length := ⟨⟨b, length⟩, rfl⟩
  refuses _ length := dif_neg length

/-! ## Hexadecimal text -/

/-- Values have texts of two digits for each of `width` octets. Digits of either case are read,
and written in lower case. If a text is refused it is said to be no hexadecimal number, with the
first reason there is, or else to have the wrong length. -/
structure HexForm {α : Type} (toHex : α → String) (ofHex : String → Except IdentifierFault α)
    (width : Nat) : Prop where
  ok_iff : ∀ s, (∃ x, ofHex s = .ok x) ↔ s.length = 2 * width ∧ ∀ c ∈ s.toList, Hex.IsDigit c
  invalidHex_iff : ∀ s, (∃ fault, ofHex s = .error (.invalidHex fault)) ↔
    Hex.Faulty (Utf8.encode s)
  fault_iff : ∀ s fault, ofHex s = .error (.invalidHex fault) ↔
    Hex.Refuses (Utf8.encode s) fault
  invalidLength_iff : ∀ s expected actual, ofHex s = .error (.invalidLength expected actual) ↔
    ¬ (s.length = 2 * width ∧ ∀ c ∈ s.toList, Hex.IsDigit c) ∧ ¬ Hex.Faulty (Utf8.encode s)
      ∧ expected = width ∧ actual = (Utf8.encode s).length / 2
  ofHex_toHex : ∀ x, ofHex (toHex x) = .ok x
  toHex_of_ofHex : ∀ s x, ofHex s = .ok x → toHex x = s.toLower

section

variable {α : Type} {octets : α → Bytes} {ofOctets : Bytes → Except IdentifierFault α}
  {width : Nat}

/-- Read the octets that a text writes, as it is done for both kinds of identifiers. -/
def readHex (ofOctets : Bytes → Except IdentifierFault α) (s : String) :
    Except IdentifierFault α :=
  match Hex.decode s with
  | .ok b => ofOctets b
  | .error fault => .error (.invalidHex fault)

/-- What can become of a text. -/
inductive HexOutcome (octets : α → Bytes) (width : Nat) (s : String) :
    Except IdentifierFault α → Prop
  | refused {fault : Hex.Fault} : Hex.Refuses (Utf8.encode s) fault →
      HexOutcome octets width s (.error (.invalidHex fault))
  | read {x : α} : ¬ Hex.Faulty (Utf8.encode s) → s.length = 2 * width →
      Hex.encode (octets x) = s.toLower → HexOutcome octets width s (.ok x)
  | misfit : ¬ Hex.Faulty (Utf8.encode s) → s.length ≠ 2 * width →
      HexOutcome octets width s (.error (.invalidLength width (s.length / 2)))

namespace ReadsWidth

variable (h : ReadsWidth octets ofOctets width)

include h

theorem hexOutcome (s : String) : HexOutcome octets width s (readHex ofOctets s) := by
  unfold readHex
  rcases Hex.decode_cases s with ⟨fault, refused, failed⟩ | ⟨sound, b, decoded, written⟩
  · rw [failed]
    exact .refused refused
  · have lengths : s.length = 2 * b.length := by
      rw [← Hex.length_encode, written]
      exact String.length_map.symm
    rw [decoded]
    by_cases fits : b.length = width
    · obtain ⟨x, rfl⟩ := h.exists_octets b fits
      show HexOutcome octets width s (ofOctets (octets x))
      rw [h.reads_back]
      exact .read sound (by omega) written
    · have half : b.length = s.length / 2 := by omega
      show HexOutcome octets width s (ofOctets b)
      rw [h.refuses b fits, half]
      exact .misfit sound (by omega)

theorem readHex_eq_invalidHex_iff {s : String} {fault : Hex.Fault} :
    readHex ofOctets s = .error (.invalidHex fault) ↔ Hex.Refuses (Utf8.encode s) fault := by
  constructor
  · intro failed
    have outcome := h.hexOutcome s
    rw [failed] at outcome
    cases outcome with
    | refused refused => exact refused
  · intro refused
    rw [readHex, Hex.decode_of_refuses refused]

theorem hexForm : HexForm (fun x => Hex.encode (octets x)) (readHex ofOctets) width where
  ok_iff s := by
    have outcome := h.hexOutcome s
    constructor
    · rintro ⟨x, hx⟩
      rw [hx] at outcome
      cases outcome with
      | read sound length _ => exact ⟨length, (Hex.not_faulty_iff.1 sound).2⟩
    · rintro ⟨length, digits⟩
      generalize readHex ofOctets s = result at outcome
      cases outcome with
      | refused refused =>
        have sound := Hex.not_faulty_iff.2 ⟨by omega, digits⟩
        exact absurd (Hex.exists_refuses_iff.1 ⟨_, refused⟩) sound
      | read => exact ⟨_, rfl⟩
      | misfit _ other => exact absurd length other
  invalidHex_iff _ := (exists_congr fun _ => h.readHex_eq_invalidHex_iff).trans
    Hex.exists_refuses_iff
  fault_iff _ _ := h.readHex_eq_invalidHex_iff
  invalidLength_iff s expected actual := by
    have outcome := h.hexOutcome s
    constructor
    · intro failed
      rw [failed] at outcome
      cases outcome with
      | misfit sound other =>
        have octets_length := Hex.length_octets (Hex.not_faulty_iff.1 sound).2
        exact ⟨fun text => other text.1, sound, rfl, by rw [octets_length]⟩
    · rintro ⟨other, sound, rfl, rfl⟩
      obtain ⟨-, digits⟩ := Hex.not_faulty_iff.1 sound
      rw [Hex.length_octets digits]
      generalize readHex ofOctets s = result at outcome
      cases outcome with
      | refused refused => exact absurd (Hex.exists_refuses_iff.1 ⟨_, refused⟩) sound
      | read _ length _ => exact absurd ⟨length, digits⟩ other
      | misfit => rfl
  ofHex_toHex x := by
    show readHex ofOctets (Hex.encode (octets x)) = _
    rw [readHex, Hex.decode_encode]
    exact h.reads_back x
  toHex_of_ofHex s x hx := by
    have outcome := h.hexOutcome s
    rw [hx] at outcome
    cases outcome with
    | read _ _ written => exact written

end ReadsWidth

end

/-- Record IDs and addresses have exact text forms of eight and of twenty octets. The texts of
record IDs, also if their octets are compared, are in the order of the numbers. -/
theorem hexForms_exact :
    HexForm RecordId.toHex RecordId.ofHex 8 ∧ HexForm Address.toHex Address.ofHex 20
      ∧ ∀ i j : RecordId,
        (i.toHex < j.toHex ↔ i.sequence < j.sequence)
        ∧ (Utf8.encode i.toHex < Utf8.encode j.toHex ↔ i.sequence < j.sequence)
        ∧ (i.toHex = j.toHex ↔ i.sequence = j.sequence) := by
  refine ⟨RecordId.readsWidth.hexForm, Address.readsWidth.hexForm, fun i j => ⟨?_, ?_, ?_, ?_⟩⟩
  · exact Hex.encode_lt_iff.trans RecordId.bytes_lt_iff
  · exact Hex.octets_encode_lt_iff.trans RecordId.bytes_lt_iff
  · intro same
    rw [RecordId.bytes_injective (Hex.encode_injective same)]
  · intro same
    rw [show i = j from congrArg RecordId.mk same]

/-- An odd number of octets is said to be wrong before an octet that is no digit. -/
example : RecordId.ofHex "zzz" = .error (.invalidHex .oddLength)
    ∧ RecordId.ofHex "1é2" = .error (.invalidHex (.badDigit 0xc3 1)) := by decide

end Gazette
