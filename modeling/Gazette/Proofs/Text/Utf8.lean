import Gazette.Text.Utf8

set_option autoImplicit false

/-! # Text that is written reads back

The reader of `Text/Utf8.lean` is followed through the octets of one character
(`decodeFrom_encodeChar`): the octet that opens it, the octets inside it, and the one that ends
it. A text is a list of characters, so every text reads back (`decode_encode`), and no two texts
have the same octets (`encode_injective`).
-/

namespace Gazette.Utf8

/-! ## Single octets -/

theorem toNat_octet {n : Nat} (h : n < 256) : (UInt8.ofNat n).toNat = n := by
  rw [UInt8.toNat_ofNat']
  omega

/-- The octet that opens a character of two. -/
theorem lead?_two {k : Nat} (least : 2 ≤ k) (most : k < 32) :
    lead? (UInt8.ofNat (0xc0 + k)) = some ⟨1, 0x80, 0xbf, k⟩ := by
  simp only [lead?, toNat_octet (show 0xc0 + k < 256 by omega)]
  rw [if_neg (by omega), if_neg (by omega), if_pos (by omega), Nat.add_sub_cancel_left]

/-- The octet that opens a character of three. -/
theorem lead?_three {k : Nat} (most : k < 16) :
    lead? (UInt8.ofNat (0xe0 + k)) =
      some ⟨2, if k = 0 then 0xa0 else 0x80, if k = 13 then 0x9f else 0xbf, k⟩ := by
  have overlong : 0xe0 + k = 0xe0 ↔ k = 0 := by omega
  have surrogates : 0xe0 + k = 0xed ↔ k = 13 := by omega
  simp only [lead?, toNat_octet (show 0xe0 + k < 256 by omega), overlong, surrogates]
  rw [if_neg (by omega), if_neg (by omega), if_neg (by omega), if_pos (by omega),
    Nat.add_sub_cancel_left]

/-- The octet that opens a character of four. -/
theorem lead?_four {k : Nat} (most : k < 5) :
    lead? (UInt8.ofNat (0xf0 + k)) =
      some ⟨3, if k = 0 then 0x90 else 0x80, if k = 4 then 0x8f else 0xbf, k⟩ := by
  have overlong : 0xf0 + k = 0xf0 ↔ k = 0 := by omega
  have greatest : 0xf0 + k = 0xf4 ↔ k = 4 := by omega
  simp only [lead?, toNat_octet (show 0xf0 + k < 256 by omega), overlong, greatest]
  rw [if_neg (by omega), if_neg (by omega), if_neg (by omega), if_neg (by omega),
    if_pos (by omega), Nat.add_sub_cancel_left]

/-! ## Steps of the reader -/

/-- Reading the octet that opens a character of several. -/
theorem decodeFrom_lead {start more bits : Nat} {octet low high : UInt8} {rest : Bytes}
    (opens : lead? octet = some ⟨more + 1, low, high, bits⟩) :
    decodeFrom ⟨start, 0, none⟩ (octet :: rest) =
      decodeFrom ⟨start, 1, some ⟨more + 1, low, high, bits⟩⟩ rest := by
  rw [decodeFrom]
  simp only [opens]

/-- Reading an octet inside a character, with more to come. -/
theorem decodeFrom_inside {start seen more bits x : Nat} {low high : UInt8} {rest : Bytes}
    (hx : x < 64) (hlow : low.toNat ≤ 0x80 + x) (hhigh : 0x80 + x ≤ high.toNat) :
    decodeFrom ⟨start, seen, some ⟨more + 2, low, high, bits⟩⟩ (UInt8.ofNat (0x80 + x) :: rest) =
      decodeFrom ⟨start, seen + 1, some ⟨more + 1, 0x80, 0xbf, bits * 64 + x⟩⟩ rest := by
  have octet := toNat_octet (show 0x80 + x < 256 by omega)
  have inside : low ≤ UInt8.ofNat (0x80 + x) ∧ UInt8.ofNat (0x80 + x) ≤ high := by
    rw [UInt8.le_iff_toNat_le, UInt8.le_iff_toNat_le, octet]
    exact ⟨hlow, hhigh⟩
  rw [decodeFrom, if_pos inside, octet, Nat.add_sub_cancel_left]
  exact if_neg (by omega)

/-- Reading the octet that ends a character. -/
theorem decodeFrom_last {start seen bits x : Nat} {low high : UInt8} {rest : Bytes}
    (hx : x < 64) (hlow : low.toNat ≤ 0x80 + x) (hhigh : 0x80 + x ≤ high.toNat) :
    decodeFrom ⟨start, seen, some ⟨1, low, high, bits⟩⟩ (UInt8.ofNat (0x80 + x) :: rest) =
      (Char.ofNat (bits * 64 + x) :: ·) <$> decodeFrom ⟨start + seen + 1, 0, none⟩ rest := by
  have octet := toNat_octet (show 0x80 + x < 256 by omega)
  have inside : low ≤ UInt8.ofNat (0x80 + x) ∧ UInt8.ofNat (0x80 + x) ≤ high := by
    rw [UInt8.le_iff_toNat_le, UInt8.le_iff_toNat_le, octet]
    exact ⟨hlow, hhigh⟩
  rw [decodeFrom, if_pos inside, octet, Nat.add_sub_cancel_left]
  exact if_pos (Nat.le_refl 1)

/-- Reading one character. The bounds on the second octet hold because the character has the
shortest form that fits it and is no surrogate. -/
theorem decodeFrom_encodeChar (c : Char) (start : Nat) (rest : Bytes) :
    decodeFrom ⟨start, 0, none⟩ (encodeChar c ++ rest) =
      (c :: ·) <$> decodeFrom ⟨start + (encodeChar c).length, 0, none⟩ rest := by
  have valid : c.toNat < 0xd800 ∨ (0xdfff < c.toNat ∧ c.toNat < 0x110000) := c.valid
  have self : Char.ofNat c.toNat = c := Char.ofNat_toNat c
  unfold encodeChar
  dsimp only
  -- from here on the character counts only by its number, in six-bit groups
  generalize c.toNat = n at *
  split
  · rename_i one
    simp [decodeFrom, lead?, toNat_octet (show n < 256 by omega), one, self]
  · split
    · rename_i two
      have bits : n / 64 * 64 + n % 64 = n := by omega
      rw [List.cons_append, decodeFrom_lead (lead?_two (by omega) (by omega)), List.cons_append,
        decodeFrom_last (by omega) (by simp) (by simp; omega), bits, self]
      rfl
    · split
      · rename_i three
        have bits : (n / 4096 * 64 + n / 64 % 64) * 64 + n % 64 = n := by omega
        rw [List.cons_append, decodeFrom_lead (lead?_three (by omega)), List.cons_append,
          decodeFrom_inside (by omega) (by split <;> simp; omega) (by split <;> simp <;> omega),
          List.cons_append, decodeFrom_last (by omega) (by simp) (by simp; omega), bits, self]
        rfl
      · rename_i four
        have bits : ((n / 262144 * 64 + n / 4096 % 64) * 64 + n / 64 % 64) * 64 + n % 64 = n := by
          omega
        rw [List.cons_append, decodeFrom_lead (lead?_four (by omega)), List.cons_append,
          decodeFrom_inside (by omega) (by split <;> simp; omega) (by split <;> simp <;> omega),
          List.cons_append, decodeFrom_inside (by omega) (by simp) (by simp; omega),
          List.cons_append, decodeFrom_last (by omega) (by simp) (by simp; omega), bits, self]
        rfl

/-! ## Texts -/

theorem decodeFrom_flatMap (cs : List Char) (start : Nat) :
    decodeFrom ⟨start, 0, none⟩ (cs.flatMap encodeChar) = .ok cs := by
  induction cs generalizing start with
  | nil => simp [decodeFrom]
  | cons c cs ih =>
    rw [List.flatMap_cons, decodeFrom_encodeChar, ih]
    rfl

/-- Text that is written reads back. -/
theorem decode_encode (s : String) : decode (encode s) = .ok s := by
  rw [decode, encode, decodeFrom_flatMap]
  show Except.ok (String.ofList s.toList) = Except.ok s
  rw [String.ofList_toList]

/-- No two texts have the same octets. -/
theorem encode_injective {s t : String} (h : encode s = encode t) : s = t := by
  have same : Except.ok s = (Except.ok t : Except Fault String) := by
    rw [← decode_encode, h, decode_encode]
  exact Except.ok.inj same

theorem length_encodeChar_le (c : Char) : (encodeChar c).length ≤ 4 := by
  unfold encodeChar
  dsimp only
  split
  · simp
  · split
    · simp
    · split <;> simp

/-- A text has at most four octets for each of its characters. -/
theorem length_encode_le (s : String) : (encode s).length ≤ 4 * s.length := by
  have each : ∀ cs : List Char, (cs.flatMap encodeChar).length ≤ 4 * cs.length := by
    intro cs
    induction cs with
    | nil => simp
    | cons c cs ih =>
      have := length_encodeChar_le c
      rw [List.flatMap_cons, List.length_append, List.length_cons]
      omega
  exact each s.toList

end Gazette.Utf8
