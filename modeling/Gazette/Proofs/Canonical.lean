import Gazette.Proofs.Bytes
import Gazette.Proofs.Text.Decoding
import Gazette.Proofs.Wire

set_option autoImplicit false

/-! # Bytes that are read were written

The reader of a codec is as strict as its writer: what it takes for a value is what is written
for this value, so there are no other bytes for it (`Codec.Canonical`). Together with reading
back (`Codec.ReadsBack`) this makes a codec *lossless*, and pairs, options and renamed layouts of
lossless codecs are lossless.

A length is written as a 64-bit number. So a value reads back as long as the bytes for it are
fewer than there are such numbers, which is true of every byte string that a machine can hold.
What losslessness comes to for such strings is `Codec.Lossless.exact`.
-/

namespace Gazette.Codec

variable {α β : Type}

/-- What is read is what is written for the value that is found, followed by what is left. -/
def Canonical (codec : Codec α) : Prop :=
  ∀ b v rest, codec.decode b = .ok (v, rest) → b = codec.encode v ++ rest

/-- Values read back, and nothing is read that was not written. -/
structure Lossless (codec : Codec α) : Prop where
  reads_back : ∀ v, (codec.encode v).length < UInt64.size → codec.ReadsBack v
  canonical : codec.Canonical

/-! ## Pieces -/

theorem canonical_octets (width : Nat) : (octets width).Canonical := by
  intro b v rest h
  simp only [octets] at h
  split at h
  · cases h
    exact (List.take_append_drop width b).symm
  · cases h

theorem Canonical.map {codec : Codec α} (h : codec.Canonical) {f : α → β} {g : β → α}
    (hgf : ∀ b v rest, codec.decode b = .ok (v, rest) →
      codec.encode (g (f v)) = codec.encode v) : (codec.map f g).Canonical := by
  intro b w rest hdecode
  obtain ⟨⟨v, left⟩, hv, same⟩ := map_eq_ok.1 hdecode
  cases same
  have written := h b v rest hv
  rwa [← hgf b v rest hv] at written

theorem Canonical.pair {first : Codec α} {second : Codec β} (h : first.Canonical)
    (h' : second.Canonical) : (first.pair second).Canonical := by
  intro b v rest hdecode
  obtain ⟨⟨x, middle⟩, hx, hdecode⟩ := bind_eq_ok.1 hdecode
  obtain ⟨⟨y, left⟩, hy, same⟩ := bind_eq_ok.1 hdecode
  cases same
  show b = (first.encode x ++ second.encode y) ++ rest
  rw [List.append_assoc, ← h' _ _ _ hy]
  exact h _ _ _ hx

theorem Canonical.optional {codec : Codec α} (h : codec.Canonical) : codec.optional.Canonical := by
  intro b v rest hdecode
  cases b with
  | nil => cases hdecode
  | cons tag b =>
    simp only [Codec.optional] at hdecode
    split at hdecode
    · rename_i zero
      cases hdecode
      rw [zero]
      rfl
    · split at hdecode
      · rename_i one
        obtain ⟨⟨w, left⟩, hw, same⟩ := map_eq_ok.1 hdecode
        cases same
        rw [one, h _ _ _ hw]
        rfl
      · cases hdecode

/-! ## Numbers -/

theorem canonical_natural (width : Nat) : (natural width).Canonical := by
  refine (canonical_octets width).map fun b v rest _ => ?_
  obtain ⟨octets, rfl⟩ := v
  exact Bytes.littleEndian_toNatLE octets

/-- A number that is read fits its width. -/
theorem lt_of_natural {width n : Nat} {b rest : Bytes}
    (h : (natural width).decode b = .ok (n, rest)) : n < Bytes.capacity width := by
  obtain ⟨⟨⟨octets, rfl⟩, left⟩, -, same⟩ := map_eq_ok.1 h
  cases same
  exact Bytes.toNatLE_lt_capacity octets

theorem canonical_word32 : word32.Canonical := by
  refine (canonical_natural 4).map fun b n rest h => ?_
  rw [UInt32.toNat_ofNat_of_lt' (lt_of_natural h)]

theorem canonical_word64 : word64.Canonical := by
  refine (canonical_natural 8).map fun b n rest h => ?_
  rw [UInt64.toNat_ofNat_of_lt' (lt_of_natural h)]

theorem canonical_int64 : int64.Canonical := by
  refine canonical_word64.map fun b n rest _ => ?_
  rw [UInt64.toUInt64_toInt64]

/-! ## Byte strings and text -/

theorem canonical_counted (short : Wire.Fault) : (counted short).Canonical := by
  intro b v rest h
  obtain ⟨⟨length, body⟩, hlength, h⟩ := bind_eq_ok.1 h
  simp only at h
  split at h
  · rename_i fits
    cases h
    have width : UInt64.ofNat (body.take length.toNat).length = length := by
      rw [List.length_take, Nat.min_eq_left fits, UInt64.ofNat_toNat]
    show b = (word64.encode (UInt64.ofNat _) ++ _) ++ _
    rw [width, List.append_assoc, List.take_append_drop]
    exact canonical_word64 _ _ _ hlength
  · cases h

theorem canonical_text : text.Canonical := by
  intro b s rest h
  obtain ⟨⟨octets, left⟩, hoctets, h⟩ := bind_eq_ok.1 h
  simp only at h
  split at h
  · rename_i t decoded
    cases h
    have written := canonical_counted .textTooLong _ _ _ hoctets
    rwa [Utf8.encode_of_decode decoded] at written
  · cases h

/-! ## Lossless codecs -/

theorem Lossless.map {codec : Codec α} (h : codec.Lossless) {f : α → β} {g : β → α}
    (hfg : ∀ w, f (g w) = w) (hgf : ∀ v, g (f v) = v) : (codec.map f g).Lossless where
  reads_back w hw := (h.reads_back (g w) hw).map (hfg w)
  canonical := h.canonical.map fun _ v _ _ => by rw [hgf]

theorem Lossless.pair {first : Codec α} {second : Codec β} (h : first.Lossless)
    (h' : second.Lossless) : (first.pair second).Lossless where
  reads_back v hv := by
    have lengths : (first.encode v.1 ++ second.encode v.2).length < UInt64.size := hv
    rw [List.length_append] at lengths
    exact (h.reads_back v.1 (by omega)).pair (h'.reads_back v.2 (by omega))
  canonical := h.canonical.pair h'.canonical

theorem Lossless.optional {codec : Codec α} (h : codec.Lossless) : codec.optional.Lossless where
  reads_back v hv := by
    refine readsBack_optional fun w hw => h.reads_back w ?_
    subst hw
    have lengths : (codec.encode w).length + 1 < UInt64.size := hv
    omega
  canonical := h.canonical.optional

theorem lossless_word64 : word64.Lossless :=
  ⟨fun n _ => readsBack_word64 n, canonical_word64⟩

theorem lossless_blob : blob.Lossless where
  reads_back b hb := by
    have lengths : (word64.encode (UInt64.ofNat b.length) ++ b).length < UInt64.size := hb
    rw [List.length_append] at lengths
    exact readsBack_counted _ (by omega)
  canonical := canonical_counted _

theorem lossless_text : text.Lossless where
  reads_back s hs := by
    have lengths : (word64.encode (UInt64.ofNat (Utf8.encode s).length)
        ++ Utf8.encode s).length < UInt64.size := hs
    rw [List.length_append] at lengths
    exact readsBack_text (by omega)
  canonical := canonical_text

theorem lossless_recordId : recordId.Lossless where
  reads_back id _ := readsBack_recordId id
  canonical := (canonical_octets RecordId.width).map fun _ v _ _ =>
    RecordId.bytes_ofNat_toNatBE v.2

theorem lossless_address : address.Lossless where
  reads_back a _ := readsBack_address a
  canonical := (canonical_octets Address.width).map fun _ _ _ _ => rfl

theorem lossless_time : time.Lossless where
  reads_back t _ := readsBack_time t
  canonical := canonical_int64.map fun _ _ _ _ => rfl

/-! ## What it comes to -/

/-- A byte string is read as a value if and only if it begins with what is written for the
value. What is taken for the value is what is written for it, no two values are written alike, and
none is written as the beginning of another. -/
structure ExactBelow (codec : Codec α) (size : Nat) : Prop where
  read_iff : ∀ v b, b.length < size → (codec.read b = .ok v ↔ codec.encode v <+: b)
  decode_append : ∀ v extra, (codec.encode v ++ extra).length < size →
    codec.decode (codec.encode v ++ extra) = .ok (v, extra)
  encode_decode : ∀ b v rest, codec.decode b = .ok (v, rest) → codec.encode v ++ rest = b
  injective : ∀ v w, (codec.encode v).length < size → codec.encode v = codec.encode w → v = w
  prefix_free : ∀ v w, (codec.encode w).length < size → codec.encode v <+: codec.encode w → v = w

theorem Lossless.exact {codec : Codec α} (h : codec.Lossless) : codec.ExactBelow UInt64.size := by
  have decode_append : ∀ v extra, (codec.encode v ++ extra).length < UInt64.size →
      codec.decode (codec.encode v ++ extra) = .ok (v, extra) := fun v extra hlength => by
    rw [List.length_append] at hlength
    exact h.reads_back v (by omega) extra
  have prefix_free : ∀ v w, (codec.encode w).length < UInt64.size →
      codec.encode v <+: codec.encode w → v = w := by
    rintro v w hlength ⟨extra, whole⟩
    have read_first := decode_append v extra (whole ▸ hlength)
    have read_second := h.reads_back w hlength []
    rw [whole] at read_first
    rw [List.append_nil, read_first] at read_second
    exact congrArg Prod.fst (Except.ok.inj read_second)
  refine ⟨fun v b hlength => ⟨fun hread => ?_, ?_⟩, decode_append,
    fun b v rest hdecode => (h.canonical b v rest hdecode).symm,
    fun v w hlength same => prefix_free v w (same ▸ hlength) (same ▸ List.prefix_refl _),
    prefix_free⟩
  · obtain ⟨⟨w, rest⟩, hdecode, rfl⟩ := map_eq_ok.1 hread
    exact ⟨rest, (h.canonical b w rest hdecode).symm⟩
  · rintro ⟨extra, rfl⟩
    exact map_eq_ok.2 ⟨(v, extra), decode_append v extra hlength, rfl⟩

end Gazette.Codec
