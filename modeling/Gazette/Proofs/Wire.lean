import Gazette.Proofs.Outcome
import Gazette.Proofs.Bucket.Layout
import Gazette.Proofs.Validation
import Gazette.Wire

set_option autoImplicit false

/-! # Values that are written read back

`Codec.ReadsBack` says of one value that it is read from any byte string that begins with what
is written for it. It goes piece by piece, as the layouts are put together. The one condition
anywhere is that the length of a byte string must fit its 64-bit number.
-/

namespace Gazette.Codec

variable {α β : Type}

/-- The value is read from every byte string that begins with what is written for it. -/
def ReadsBack (codec : Codec α) (v : α) : Prop :=
  ∀ rest, codec.decode (codec.encode v ++ rest) = .ok (v, rest)

theorem ReadsBack.read_encode {codec : Codec α} {v : α} (h : codec.ReadsBack v) :
    codec.read (codec.encode v) = .ok v := by
  have hdecode := h []
  rw [List.append_nil] at hdecode
  rw [read, hdecode]
  rfl

/-! ## Pieces -/

theorem readsBack_octets (width : Nat) (v : { b : Bytes // b.length = width }) :
    (octets width).ReadsBack v := by
  intro rest
  obtain ⟨b, rfl⟩ := v
  have hfits : b.length ≤ (b ++ rest).length := by rw [List.length_append]; omega
  refine (dif_pos hfits).trans (congrArg Except.ok ?_)
  exact Prod.ext (Subtype.ext List.take_left) List.drop_left

theorem ReadsBack.map {codec : Codec α} {f : α → β} {g : β → α} {w : β}
    (h : codec.ReadsBack (g w)) (hw : f (g w) = w) : (codec.map f g).ReadsBack w := by
  intro rest
  refine map_eq_ok.2 ⟨(g w, rest), h rest, ?_⟩
  exact Prod.ext hw rfl

theorem ReadsBack.pair {first : Codec α} {second : Codec β} {v : α} {w : β}
    (hv : first.ReadsBack v) (hw : second.ReadsBack w) :
    (first.pair second).ReadsBack (v, w) := by
  intro rest
  show (first.pair second).decode ((first.encode v ++ second.encode w) ++ rest) = _
  rw [List.append_assoc]
  refine bind_eq_ok.2 ⟨(v, second.encode w ++ rest), hv _, ?_⟩
  exact bind_eq_ok.2 ⟨(w, rest), hw rest, rfl⟩

theorem readsBack_optional {codec : Codec α} {v : Option α}
    (h : ∀ w, v = some w → codec.ReadsBack w) : codec.optional.ReadsBack v := by
  intro rest
  cases v with
  | none => rfl
  | some w =>
    exact map_eq_ok.2 ⟨(w, rest), h w rfl rest, rfl⟩

/-! ## Numbers -/

theorem readsBack_natural (width : Nat) {n : Nat} (h : n < Bytes.capacity width) :
    (natural width).ReadsBack n :=
  (readsBack_octets width _).map
    ((Bytes.toNatLE_littleEndian width n).trans (Nat.mod_eq_of_lt h))

theorem readsBack_word8 (n : UInt8) : word8.ReadsBack n :=
  (readsBack_natural 1 n.toNat_lt).map UInt8.ofNat_toNat

theorem readsBack_word32 (n : UInt32) : word32.ReadsBack n :=
  (readsBack_natural 4 n.toNat_lt).map UInt32.ofNat_toNat

theorem readsBack_word64 (n : UInt64) : word64.ReadsBack n :=
  (readsBack_natural 8 n.toNat_lt).map UInt64.ofNat_toNat

theorem readsBack_int64 (n : Int64) : int64.ReadsBack n :=
  (readsBack_word64 n.toUInt64).map n.toInt64_toUInt64

/-! ## Byte strings and text -/

theorem readsBack_counted (short : Wire.Fault) {b : Bytes} (h : b.length < UInt64.size) :
    (counted short).ReadsBack b := by
  intro rest
  have hlength : (UInt64.ofNat b.length).toNat = b.length := UInt64.toNat_ofNat_of_lt' h
  show (counted short).decode ((word64.encode (UInt64.ofNat b.length) ++ b) ++ rest) = _
  rw [List.append_assoc]
  refine bind_eq_ok.2 ⟨_, readsBack_word64 _ (b ++ rest), ?_⟩
  have hfits : b.length ≤ (b ++ rest).length := by rw [List.length_append]; omega
  simp only [hlength, if_pos hfits, List.take_left, List.drop_left]

theorem readsBack_text {s : String} (h : (Utf8.encode s).length < UInt64.size) :
    text.ReadsBack s := by
  intro rest
  refine bind_eq_ok.2 ⟨(Utf8.encode s, rest), readsBack_counted _ h rest, ?_⟩
  simp only [Utf8.decode_encode]

/-- A text that was found short enough reads back. -/
theorem readsBack_of_check {least most : Nat} {allowed : Char → Bool} {s : String}
    (h : Check.text least most allowed s = .ok ()) (hmost : 4 * most < UInt64.size) :
    text.ReadsBack s := by
  refine readsBack_text ?_
  have hlength := (Check.length_of_text h).2
  have hoctets := Utf8.length_encode_le s
  omega

/-! ## Domain values -/

theorem readsBack_recordId (id : RecordId) : recordId.ReadsBack id := by
  refine (readsBack_octets RecordId.width _).map ?_
  exact Except.ok.inj ((if_pos id.length_bytes).symm.trans (RecordId.ofBytes_bytes id))

theorem readsBack_optionalId (id : Option RecordId) : (optional recordId).ReadsBack id :=
  readsBack_optional fun w _ => readsBack_recordId w

theorem readsBack_address (a : Address) : address.ReadsBack a :=
  (readsBack_octets Address.width _).map rfl

theorem readsBack_time (t : UnixTime) : time.ReadsBack t :=
  (readsBack_int64 t.seconds).map rfl

end Gazette.Codec
