import Gazette.Proofs.Outcome
import Gazette.Proofs.Text.Utf8

set_option autoImplicit false

/-! # Only what was written is read as text

The reader of `Text/Utf8.lean` takes no octets for a character but those that are written for it:
an octet that opens a character tells how many follow (`lead?_cases`), each of these is checked,
and what they come to is a character whose shortest form has just that many
(`decodeFrom_cons_eq_ok`). So a byte string that is read as a text is what is written for it
(`encode_of_decode`).
-/

namespace Gazette.Utf8

/-! ## Characters of one to four octets -/

theorem toNat_ofNat {n : Nat} (h : n.isValidChar) : (Char.ofNat n).toNat = n := by
  rw [Char.ofNat, dif_pos h]
  exact UInt32.toNat_ofNatLT ..

theorem encodeChar_one {octet : UInt8} (h : octet.toNat < 0x80) :
    encodeChar (Char.ofNat octet.toNat) = [octet] := by
  rw [encodeChar, toNat_ofNat (.inl (by omega))]
  simp only [h, if_true, UInt8.ofNat_toNat]

theorem encodeChar_two {k x : Nat} (least : 2 ≤ k) (most : k < 32) (hx : x < 64) :
    encodeChar (Char.ofNat (k * 64 + x)) = [UInt8.ofNat (0xc0 + k), UInt8.ofNat (0x80 + x)] := by
  have first : (k * 64 + x) / 64 = k := by omega
  have second : (k * 64 + x) % 64 = x := by omega
  rw [encodeChar, toNat_ofNat (.inl (by omega))]
  rw [if_neg (by omega), if_pos (by omega), first, second]

theorem encodeChar_three {k x y : Nat} (most : k < 16) (hx : x < 64) (hy : y < 64)
    (overlong : k = 0 → 0x20 ≤ x) (surrogates : k = 13 → x < 0x20) :
    encodeChar (Char.ofNat ((k * 64 + x) * 64 + y)) =
      [UInt8.ofNat (0xe0 + k), UInt8.ofNat (0x80 + x), UInt8.ofNat (0x80 + y)] := by
  have first : ((k * 64 + x) * 64 + y) / 4096 = k := by omega
  have second : ((k * 64 + x) * 64 + y) / 64 % 64 = x := by omega
  have third : ((k * 64 + x) * 64 + y) % 64 = y := by omega
  have valid : ((k * 64 + x) * 64 + y).isValidChar := by
    unfold Nat.isValidChar
    omega
  rw [encodeChar, toNat_ofNat valid]
  rw [if_neg (by omega), if_neg (by omega), if_pos (by omega), first, second, third]

theorem encodeChar_four {k x y z : Nat} (most : k < 5) (hx : x < 64) (hy : y < 64) (hz : z < 64)
    (overlong : k = 0 → 0x10 ≤ x) (greatest : k = 4 → x < 0x10) :
    encodeChar (Char.ofNat (((k * 64 + x) * 64 + y) * 64 + z)) =
      [UInt8.ofNat (0xf0 + k), UInt8.ofNat (0x80 + x), UInt8.ofNat (0x80 + y),
        UInt8.ofNat (0x80 + z)] := by
  have first : (((k * 64 + x) * 64 + y) * 64 + z) / 262144 = k := by omega
  have second : (((k * 64 + x) * 64 + y) * 64 + z) / 4096 % 64 = x := by omega
  have third : (((k * 64 + x) * 64 + y) * 64 + z) / 64 % 64 = y := by omega
  have fourth : (((k * 64 + x) * 64 + y) * 64 + z) % 64 = z := by omega
  have valid : (((k * 64 + x) * 64 + y) * 64 + z).isValidChar := by
    unfold Nat.isValidChar
    omega
  rw [encodeChar, toNat_ofNat valid]
  rw [if_neg (by omega), if_neg (by omega), if_neg (by omega), first, second, third, fourth]

/-! ## Steps of the reader -/

/-- The octets that open a character. -/
theorem lead?_cases {octet : UInt8} {lead : Lead} (h : lead? octet = some lead) :
    (octet.toNat < 0x80 ∧ lead = ⟨0, 0x80, 0xbf, octet.toNat⟩) ∨
      (∃ k, 2 ≤ k ∧ k < 32 ∧ octet = UInt8.ofNat (0xc0 + k) ∧ lead = ⟨1, 0x80, 0xbf, k⟩) ∨
      (∃ k, k < 16 ∧ octet = UInt8.ofNat (0xe0 + k)
        ∧ lead = ⟨2, if k = 0 then 0xa0 else 0x80, if k = 13 then 0x9f else 0xbf, k⟩) ∨
      ∃ k, k < 5 ∧ octet = UInt8.ofNat (0xf0 + k)
        ∧ lead = ⟨3, if k = 0 then 0x90 else 0x80, if k = 4 then 0x8f else 0xbf, k⟩ := by
  obtain ⟨n, small, rfl⟩ : ∃ n, n < 256 ∧ octet = UInt8.ofNat n :=
    ⟨octet.toNat, octet.toNat_lt, UInt8.ofNat_toNat.symm⟩
  simp only [lead?, toNat_octet small] at h ⊢
  split at h
  · rename_i one
    cases h
    exact .inl ⟨one, rfl⟩
  · split at h
    · cases h
    · split at h
      · cases h
        refine .inr (.inl ⟨n - 0xc0, by omega, by omega, ?_, rfl⟩)
        rw [Nat.add_sub_of_le (by omega)]
      · split at h
        · cases h
          have overlong : n = 0xe0 ↔ n - 0xe0 = 0 := by omega
          have surrogates : n = 0xed ↔ n - 0xe0 = 13 := by omega
          refine .inr (.inr (.inl ⟨n - 0xe0, by omega, ?_, ?_⟩))
          · rw [Nat.add_sub_of_le (by omega)]
          · simp only [overlong, surrogates]
        · split at h
          · cases h
            have overlong : n = 0xf0 ↔ n - 0xf0 = 0 := by omega
            have greatest : n = 0xf4 ↔ n - 0xf0 = 4 := by omega
            refine .inr (.inr (.inr ⟨n - 0xf0, by omega, ?_, ?_⟩))
            · rw [Nat.add_sub_of_le (by omega)]
            · simp only [overlong, greatest]
          · cases h

section

variable {start seen more bits : Nat} {low high : UInt8} {b : Bytes} {cs : List Char}

/-- An octet inside a character that more octets follow. -/
theorem decodeFrom_inside_eq_ok (hlow : 0x80 ≤ low.toNat) (hhigh : high.toNat ≤ 0xbf)
    (h : decodeFrom ⟨start, seen, some ⟨more + 2, low, high, bits⟩⟩ b = .ok cs) :
    ∃ x rest, x < 64 ∧ low.toNat ≤ 0x80 + x ∧ 0x80 + x ≤ high.toNat
      ∧ b = UInt8.ofNat (0x80 + x) :: rest
      ∧ decodeFrom ⟨start, seen + 1, some ⟨more + 1, 0x80, 0xbf, bits * 64 + x⟩⟩ rest =
          .ok cs := by
  cases b with
  | nil => cases h
  | cons octet rest =>
    rw [decodeFrom] at h
    split at h
    · rename_i inside
      rw [UInt8.le_iff_toNat_le, UInt8.le_iff_toNat_le] at inside
      dsimp only at h
      rw [if_neg (by omega)] at h
      have octet_eq : 0x80 + (octet.toNat - 0x80) = octet.toNat := by omega
      refine ⟨octet.toNat - 0x80, rest, by omega, by omega, by omega, ?_, h⟩
      rw [octet_eq, UInt8.ofNat_toNat]
    · cases h

/-- The octet that ends a character. -/
theorem decodeFrom_last_eq_ok (hlow : 0x80 ≤ low.toNat) (hhigh : high.toNat ≤ 0xbf)
    (h : decodeFrom ⟨start, seen, some ⟨1, low, high, bits⟩⟩ b = .ok cs) :
    ∃ x rest cs', x < 64 ∧ low.toNat ≤ 0x80 + x ∧ 0x80 + x ≤ high.toNat
      ∧ b = UInt8.ofNat (0x80 + x) :: rest ∧ cs = Char.ofNat (bits * 64 + x) :: cs'
      ∧ decodeFrom ⟨start + seen + 1, 0, none⟩ rest = .ok cs' := by
  cases b with
  | nil => cases h
  | cons octet rest =>
    rw [decodeFrom] at h
    split at h
    · rename_i inside
      rw [UInt8.le_iff_toNat_le, UInt8.le_iff_toNat_le] at inside
      dsimp only at h
      rw [if_pos (Nat.le_refl 1)] at h
      obtain ⟨cs', hrest, rfl⟩ := map_eq_ok.1 h
      have octet_eq : 0x80 + (octet.toNat - 0x80) = octet.toNat := by omega
      refine ⟨octet.toNat - 0x80, rest, cs', by omega, by omega, by omega, ?_, rfl, hrest⟩
      rw [octet_eq, UInt8.ofNat_toNat]
    · cases h

end

/-- Whatever is read as a character is what is written for it. -/
theorem decodeFrom_cons_eq_ok {start : Nat} {octet : UInt8} {b : Bytes} {cs : List Char}
    (h : decodeFrom ⟨start, 0, none⟩ (octet :: b) = .ok cs) :
    ∃ c start' rest cs', octet :: b = encodeChar c ++ rest ∧ cs = c :: cs'
      ∧ decodeFrom ⟨start', 0, none⟩ rest = .ok cs' := by
  cases hlead : lead? octet with
  | none =>
    rw [decodeFrom, hlead] at h
    cases h
  | some lead =>
    rcases lead?_cases hlead with
      ⟨one, rfl⟩ | ⟨k, least, most, rfl, rfl⟩ | ⟨k, most, rfl, rfl⟩ | ⟨k, most, rfl, rfl⟩
    · rw [decodeFrom, hlead] at h
      obtain ⟨cs', hrest, rfl⟩ := map_eq_ok.1 h
      exact ⟨_, _, b, cs', by rw [encodeChar_one one]; rfl, rfl, hrest⟩
    · rw [decodeFrom_lead hlead] at h
      obtain ⟨x, rest, cs', hx, -, -, rfl, rfl, hrest⟩ :=
        decodeFrom_last_eq_ok (by decide) (by decide) h
      exact ⟨_, _, rest, cs', by rw [encodeChar_two least most hx]; rfl, rfl, hrest⟩
    · rw [decodeFrom_lead hlead] at h
      obtain ⟨x, rest, hx, low, high, rfl, hinside⟩ :=
        decodeFrom_inside_eq_ok (by split <;> decide) (by split <;> decide) h
      obtain ⟨y, rest, cs', hy, -, -, rfl, rfl, hrest⟩ :=
        decodeFrom_last_eq_ok (by decide) (by decide) hinside
      have overlong : k = 0 → 0x20 ≤ x := fun zero => by
        rw [if_pos zero] at low
        exact Nat.le_of_add_le_add_left low
      have surrogates : k = 13 → x < 0x20 := fun last => by
        rw [if_pos last] at high
        exact Nat.lt_of_add_lt_add_left (Nat.lt_succ_of_le high)
      exact ⟨_, _, rest, cs',
        by rw [encodeChar_three most hx hy overlong surrogates]; rfl, rfl, hrest⟩
    · rw [decodeFrom_lead hlead] at h
      obtain ⟨x, rest, hx, low, high, rfl, hinside⟩ :=
        decodeFrom_inside_eq_ok (by split <;> decide) (by split <;> decide) h
      obtain ⟨y, rest, hy, -, -, rfl, hlast⟩ :=
        decodeFrom_inside_eq_ok (by decide) (by decide) hinside
      obtain ⟨z, rest, cs', hz, -, -, rfl, rfl, hrest⟩ :=
        decodeFrom_last_eq_ok (by decide) (by decide) hlast
      have overlong : k = 0 → 0x10 ≤ x := fun zero => by
        rw [if_pos zero] at low
        exact Nat.le_of_add_le_add_left low
      have greatest : k = 4 → x < 0x10 := fun last => by
        rw [if_pos last] at high
        exact Nat.lt_of_add_lt_add_left (Nat.lt_succ_of_le high)
      exact ⟨_, _, rest, cs',
        by rw [encodeChar_four most hx hy hz overlong greatest]; rfl, rfl, hrest⟩

/-! ## Texts -/

theorem flatMap_of_decodeFrom {start : Nat} {b : Bytes} {cs : List Char}
    (h : decodeFrom ⟨start, 0, none⟩ b = .ok cs) : b = cs.flatMap encodeChar := by
  induction cs generalizing start b with
  | nil =>
    cases b with
    | nil => rfl
    | cons octet b =>
      obtain ⟨c, start', rest, cs', -, empty, -⟩ := decodeFrom_cons_eq_ok h
      cases empty
  | cons c cs ih =>
    cases b with
    | nil =>
      rw [decodeFrom] at h
      cases h
    | cons octet b =>
      obtain ⟨c', start', rest, cs', octets, same, hrest⟩ := decodeFrom_cons_eq_ok h
      cases same
      rw [octets, ih hrest, List.flatMap_cons]

/-- What is read as a text is what is written for it. -/
theorem encode_of_decode {b : Bytes} {s : String} (h : decode b = .ok s) : b = encode s := by
  obtain ⟨cs, hcs, rfl⟩ := map_eq_ok.1 h
  rw [encode, String.toList_ofList]
  exact flatMap_of_decodeFrom hcs

end Gazette.Utf8
