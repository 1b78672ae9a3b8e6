import Gazette.Proofs.Outcome
import Gazette.Proofs.Text.Decoding
import Gazette.Text.Hex
import Mathlib.Data.List.Basic
import Mathlib.Data.List.Induction

set_option autoImplicit false

/-! # Which texts are hexadecimal

`Refuses` says what is wrong with a text and which fault is named if several things are wrong: an
odd number of octets before all else, then the first octet that is no digit. Reading fails with
just these faults. Every other text is read, and what is written for the octets that come out is
the text in lower case (`decode_cases`).

Two digits stand for each octet, and the digits are in the order of their values. So the texts of
byte strings are in the order of the byte strings (`encode_lt_iff`), also if they are compared
octet by octet (`octets_encode_lt_iff`).
-/

namespace Gazette.Hex

/-! ## Digits -/

/-- A hexadecimal digit of either case. -/
def IsDigit (c : Char) : Prop :=
  ('0' ≤ c ∧ c ≤ '9') ∨ ('a' ≤ c ∧ c ≤ 'f') ∨ ('A' ≤ c ∧ c ≤ 'F')

instance : DecidablePred IsDigit := fun c => inferInstanceAs
  (Decidable (('0' ≤ c ∧ c ≤ '9') ∨ ('a' ≤ c ∧ c ≤ 'f') ∨ ('A' ≤ c ∧ c ≤ 'F')))

/-- The character of the same number as the octet. -/
def charOf (octet : UInt8) : Char := Char.ofNat octet.toNat

theorem toNat_charOf (octet : UInt8) : (charOf octet).toNat = octet.toNat := by
  have small := octet.toNat_lt
  exact Utf8.toNat_ofNat (.inl (by omega))

theorem isDigit_iff {c : Char} :
    IsDigit c ↔ (0x30 ≤ c.toNat ∧ c.toNat ≤ 0x39) ∨ (0x61 ≤ c.toNat ∧ c.toNat ≤ 0x66)
      ∨ (0x41 ≤ c.toNat ∧ c.toNat ≤ 0x46) := Iff.rfl

/-- An octet is a digit and has one of sixteen values, for which the digit in lower case is
written, or it is no digit and has no value. -/
theorem digit?_cases (octet : UInt8) :
    (∃ value < 16, digit? octet = some value ∧ IsDigit (charOf octet)
        ∧ Nat.digitChar value = (charOf octet).toLower) ∨
      (digit? octet = none ∧ ¬ IsDigit (charOf octet)) := by
  have decimals : ∀ k < 10, Nat.digitChar k = (Char.ofNat (0x30 + k)).toLower := by decide
  have uppers : ∀ k < 6, Nat.digitChar (k + 10) = (Char.ofNat (0x41 + k)).toLower := by decide
  have lowers : ∀ k < 6, Nat.digitChar (k + 10) = (Char.ofNat (0x61 + k)).toLower := by decide
  rw [isDigit_iff, toNat_charOf, digit?]
  split
  · rename_i decimal
    have written := decimals (octet.toNat - 0x30) (by omega)
    rw [Nat.add_sub_of_le decimal.1] at written
    exact .inl ⟨_, by omega, rfl, .inl decimal, written⟩
  · split
    · rename_i upper
      have written := uppers (octet.toNat - 0x41) (by omega)
      rw [Nat.add_sub_of_le upper.1] at written
      exact .inl ⟨_, by omega, rfl, .inr (.inr upper), written⟩
    · split
      · rename_i lower
        have written := lowers (octet.toNat - 0x61) (by omega)
        rw [Nat.add_sub_of_le lower.1] at written
        exact .inl ⟨_, by omega, rfl, .inr (.inl lower), written⟩
      · exact .inr ⟨rfl, by omega⟩

theorem digit?_eq_none_iff {octet : UInt8} : digit? octet = none ↔ ¬ IsDigit (charOf octet) := by
  rcases digit?_cases octet with ⟨value, -, known, digit, -⟩ | ⟨unknown, bad⟩
  · rw [known]
    exact iff_of_false nofun (not_not_intro digit)
  · exact iff_of_true unknown bad

theorem digit?_eq_some {octet : UInt8} {value : Nat} (h : digit? octet = some value) :
    value < 16 ∧ Nat.digitChar value = (charOf octet).toLower := by
  rcases digit?_cases octet with ⟨value', small, known, -, written⟩ | ⟨unknown, -⟩
  · rw [h] at known
    cases known
    exact ⟨small, written⟩
  · rw [h] at unknown
    cases unknown

theorem digitPair_of_lt {high low : Nat} (hhigh : high < 16) (hlow : low < 16) :
    digitPair (UInt8.ofNat (16 * high + low)) = [Nat.digitChar high, Nat.digitChar low] := by
  have first : (16 * high + low) / 16 = high := by omega
  have second : (16 * high + low) % 16 = low := by omega
  rw [digitPair, Utf8.toNat_octet (by omega), first, second]

/-! ## Pairs of digits -/

/-- An even number of digits is read, and what is written for the outcome are the digits in lower
case. -/
theorem decodePairs_of_digits {octets : Bytes} (offset : Nat) (even : octets.length % 2 = 0)
    (digits : ∀ octet ∈ octets, IsDigit (charOf octet)) :
    ∃ b, decodePairs offset octets = .ok b
      ∧ b.flatMap digitPair = octets.map fun octet => (charOf octet).toLower := by
  fun_induction decodePairs offset octets with
  | case1 offset => exact ⟨[], rfl, rfl⟩
  | case2 offset octet => cases even
  | case3 offset high low rest hhigh =>
    exact absurd (digits high List.mem_cons_self) (digit?_eq_none_iff.1 hhigh)
  | case4 offset high low rest h hlow hhigh =>
    exact absurd (digits low (.tail _ List.mem_cons_self)) (digit?_eq_none_iff.1 hlow)
  | case5 offset high low rest h l hlow hhigh ih =>
    have shorter : rest.length % 2 = 0 := by
      rw [List.length_cons, List.length_cons] at even
      omega
    obtain ⟨b, hb, written⟩ := ih shorter fun octet hoctet => digits octet (.tail _ (.tail _ hoctet))
    obtain ⟨high_lt, high_written⟩ := digit?_eq_some hhigh
    obtain ⟨low_lt, low_written⟩ := digit?_eq_some hlow
    refine ⟨UInt8.ofNat (16 * h + l) :: b, map_eq_ok.2 ⟨b, hb, rfl⟩, ?_⟩
    rw [List.flatMap_cons, digitPair_of_lt high_lt low_lt, written, high_written, low_written]
    rfl

/-- Reading ends at the first octet that is no digit, whether it is the first of a pair or the
second. -/
theorem decodePairs_of_bad {before after : Bytes} {octet : UInt8} (offset : Nat)
    (even : (before ++ octet :: after).length % 2 = 0)
    (digits : ∀ earlier ∈ before, IsDigit (charOf earlier)) (bad : ¬ IsDigit (charOf octet)) :
    decodePairs offset (before ++ octet :: after) =
      .error (.badDigit octet (offset + before.length)) := by
  have valued : ∀ earlier ∈ before, ∃ value, digit? earlier = some value := fun earlier hmem =>
    Option.ne_none_iff_exists'.1 fun none => digit?_eq_none_iff.1 none (digits earlier hmem)
  have unvalued : digit? octet = none := digit?_eq_none_iff.2 bad
  induction before using List.twoStepInduction generalizing offset with
  | nil =>
    cases after with
    | nil => cases even
    | cons low rest => simp [decodePairs, unvalued]
  | singleton high =>
    obtain ⟨h, hhigh⟩ := valued high List.mem_cons_self
    simp [decodePairs, unvalued, hhigh]
  | cons_cons high low before ih _ =>
    obtain ⟨h, hhigh⟩ := valued high List.mem_cons_self
    obtain ⟨l, hlow⟩ := valued low (.tail _ List.mem_cons_self)
    have shorter : (before ++ octet :: after).length % 2 = 0 := by
      rw [List.cons_append, List.cons_append, List.length_cons, List.length_cons] at even
      omega
    have rest := ih (offset + 2) shorter
      (fun earlier hmem => digits earlier (.tail _ (.tail _ hmem)))
      fun earlier hmem => valued earlier (.tail _ (.tail _ hmem))
    have place : offset + 2 + before.length = offset + (before.length + 1 + 1) := by omega
    simp only [List.cons_append, decodePairs, hhigh, hlow, rest, List.length_cons, place]
    rfl

/-! ## Octets of digits -/

/-- A digit is one octet. -/
theorem encodeChar_of_isDigit {c : Char} (h : IsDigit c) :
    Utf8.encodeChar c = [UInt8.ofNat c.toNat] := by
  rw [isDigit_iff] at h
  rw [Utf8.encodeChar, if_pos (by omega)]

theorem charOf_ofNat {c : Char} (h : IsDigit c) : charOf (UInt8.ofNat c.toNat) = c := by
  rw [isDigit_iff] at h
  rw [charOf, Utf8.toNat_octet (by omega), Char.ofNat_toNat]

/-- Only a digit has digits for octets: a character of several octets begins with a large one. -/
theorem isDigit_of_encodeChar {c : Char}
    (h : ∀ octet ∈ Utf8.encodeChar c, IsDigit (charOf octet)) : IsDigit c := by
  have valid : c.toNat < 0xd800 ∨ (0xdfff < c.toNat ∧ c.toNat < 0x110000) := c.valid
  have large : ∀ n, 0xc0 ≤ n → n < 0x100 → ¬ IsDigit (charOf (UInt8.ofNat n)) := by
    intro n least most
    rw [isDigit_iff, toNat_charOf, Utf8.toNat_octet most]
    omega
  rw [Utf8.encodeChar] at h
  split at h
  · rename_i one
    have digit := h _ (List.mem_singleton_self _)
    rw [isDigit_iff, toNat_charOf, Utf8.toNat_octet (by omega)] at digit
    exact isDigit_iff.2 digit
  · split at h
    · exact absurd (h _ List.mem_cons_self) (large _ (by omega) (by omega))
    · split at h
      · exact absurd (h _ List.mem_cons_self) (large _ (by omega) (by omega))
      · exact absurd (h _ List.mem_cons_self) (large _ (by omega) (by omega))

theorem digits_of_octets {s : String} (h : ∀ octet ∈ Utf8.encode s, IsDigit (charOf octet)) :
    ∀ c ∈ s.toList, IsDigit c := fun c hc =>
  isDigit_of_encodeChar fun octet hoctet => h octet (List.mem_flatMap.2 ⟨c, hc, hoctet⟩)

/-- The octets of digits are the digits themselves. -/
theorem octets_of_digits {s : String} (h : ∀ c ∈ s.toList, IsDigit c) :
    Utf8.encode s = s.toList.map fun c => UInt8.ofNat c.toNat := by
  rw [Utf8.encode, List.map_eq_flatMap]
  exact List.flatMap_congr fun c hc => encodeChar_of_isDigit (h c hc)

theorem map_charOf_octets {s : String} (h : ∀ c ∈ s.toList, IsDigit c) :
    (Utf8.encode s).map charOf = s.toList := by
  rw [octets_of_digits h, List.map_map]
  exact (List.map_congr_left fun c hc => charOf_ofNat (h c hc)).trans (List.map_id' _)

theorem octets_iff {s : String} :
    (∀ octet ∈ Utf8.encode s, IsDigit (charOf octet)) ↔ ∀ c ∈ s.toList, IsDigit c := by
  refine ⟨digits_of_octets, fun h octet hoctet => ?_⟩
  refine h _ ?_
  rw [← map_charOf_octets h]
  exact List.mem_map_of_mem hoctet

theorem length_octets {s : String} (h : ∀ c ∈ s.toList, IsDigit c) :
    (Utf8.encode s).length = s.length := by
  rw [octets_of_digits h, List.length_map, String.length_toList]

/-! ## Texts -/

theorem toList_toLower (s : String) : s.toLower.toList = s.toList.map Char.toLower :=
  String.toList_map

/-- The text with these octets is not hexadecimal, and this is said to be wrong with it. -/
inductive Refuses : Bytes → Fault → Prop
  | odd {octets : Bytes} : octets.length % 2 = 1 → Refuses octets .oddLength
  /-- There is an even number of octets, and those before the one that is named are digits. -/
  | bad {before after : Bytes} {octet : UInt8} :
    (before ++ octet :: after).length % 2 = 0 →
    (∀ earlier ∈ before, IsDigit (charOf earlier)) → ¬ IsDigit (charOf octet) →
      Refuses (before ++ octet :: after) (.badDigit octet before.length)

theorem decode_of_refuses {s : String} {fault : Fault} (h : Refuses (Utf8.encode s) fault) :
    decode s = .error fault := by
  rw [decode]
  generalize Utf8.encode s = octets at h
  cases h with
  | odd odd => exact if_pos odd
  | @bad before after octet even digits bad =>
    have place := decodePairs_of_bad 0 even digits bad
    rw [Nat.zero_add] at place
    exact (if_neg (by omega)).trans place

/-- Something is wrong with the text that has these octets. -/
def Faulty (octets : Bytes) : Prop :=
  octets.length % 2 = 1 ∨ ∃ octet ∈ octets, ¬ IsDigit (charOf octet)

theorem exists_refuses_iff {octets : Bytes} : (∃ fault, Refuses octets fault) ↔ Faulty octets := by
  constructor
  · rintro ⟨fault, refused⟩
    cases refused with
    | odd odd => exact .inl odd
    | @bad before after octet _ _ bad =>
      exact .inr ⟨octet, List.mem_append_right _ List.mem_cons_self, bad⟩
  · intro faulty
    by_cases odd : octets.length % 2 = 1
    · exact ⟨_, .odd odd⟩
    · obtain ⟨octet, hmem, hbad⟩ := faulty.resolve_left odd
      have found : (octets.find? fun octet => ¬ IsDigit (charOf octet)).isSome :=
        List.find?_isSome.2 ⟨octet, hmem, decide_eq_true hbad⟩
      obtain ⟨first, hfirst⟩ := Option.isSome_iff_exists.1 found
      obtain ⟨bad, before, after, rfl, digits⟩ := List.find?_eq_some_iff_append.1 hfirst
      exact ⟨_, .bad (by omega) (fun earlier hearlier => by simpa using digits earlier hearlier)
        (of_decide_eq_true bad)⟩

/-- Nothing is wrong with an even number of digits, and with nothing else. -/
theorem not_faulty_iff {s : String} :
    ¬ Faulty (Utf8.encode s) ↔ s.length % 2 = 0 ∧ ∀ c ∈ s.toList, IsDigit c := by
  constructor
  · intro sound
    obtain ⟨even, none_bad⟩ := not_or.1 sound
    have digits : ∀ c ∈ s.toList, IsDigit c := octets_iff.1 fun octet hoctet =>
      not_not.1 fun bad => none_bad ⟨octet, hoctet, bad⟩
    rw [length_octets digits] at even
    exact ⟨by omega, digits⟩
  · rintro ⟨even, digits⟩ (odd | ⟨octet, hoctet, bad⟩)
    · rw [length_octets digits] at odd
      omega
    · exact bad (octets_iff.2 digits octet hoctet)

/-- An even number of digits is read, and what is written for the outcome is the text in lower
case. -/
theorem exists_decode {s : String} (even : s.length % 2 = 0)
    (digits : ∀ c ∈ s.toList, IsDigit c) : ∃ b, decode s = .ok b ∧ encode b = s.toLower := by
  have even_octets : (Utf8.encode s).length % 2 = 0 := by rwa [length_octets digits]
  obtain ⟨b, hb, written⟩ := decodePairs_of_digits 0 even_octets (octets_iff.2 digits)
  refine ⟨b, (if_neg (by omega)).trans hb, ?_⟩
  have lower : (Utf8.encode s).map (fun octet => (charOf octet).toLower) = s.toLower.toList := by
    rw [toList_toLower, ← map_charOf_octets digits, List.map_map]
    rfl
  rw [encode, written, lower, String.ofList_toList]

/-- Reading names what is wrong with the text, or gives octets for which the text is written. -/
theorem decode_cases (s : String) :
    (∃ fault, Refuses (Utf8.encode s) fault ∧ decode s = .error fault) ∨
      (¬ Faulty (Utf8.encode s) ∧ ∃ b, decode s = .ok b ∧ encode b = s.toLower) := by
  by_cases faulty : Faulty (Utf8.encode s)
  · obtain ⟨fault, refused⟩ := exists_refuses_iff.2 faulty
    exact .inl ⟨fault, refused, decode_of_refuses refused⟩
  · obtain ⟨even, digits⟩ := not_faulty_iff.1 faulty
    exact .inr ⟨faulty, exists_decode even digits⟩

/-! ## Texts that are written -/

theorem toList_encode (b : Bytes) : (encode b).toList = b.flatMap digitPair :=
  String.toList_ofList

theorem length_encode (b : Bytes) : (encode b).length = 2 * b.length := by
  rw [← String.length_toList, toList_encode]
  induction b with
  | nil => rfl
  | cons octet rest ih =>
    rw [List.flatMap_cons, List.length_append, ih, List.length_cons]
    show 2 + 2 * rest.length = _
    omega

/-- What is written are digits in lower case. -/
theorem encode_digits {b : Bytes} {c : Char} (h : c ∈ (encode b).toList) :
    IsDigit c ∧ c.toLower = c := by
  have digits : ∀ value < 16, IsDigit (Nat.digitChar value)
      ∧ (Nat.digitChar value).toLower = Nat.digitChar value := by decide
  rw [toList_encode, List.mem_flatMap] at h
  obtain ⟨octet, -, hc⟩ := h
  have small := octet.toNat_lt
  rcases List.mem_pair.1 hc with rfl | rfl
  · exact digits _ (by omega)
  · exact digits _ (by omega)

theorem toLower_encode (b : Bytes) : (encode b).toLower = encode b := by
  rw [← String.toList_inj, toList_toLower]
  exact (List.map_congr_left fun c hc => (encode_digits hc).2).trans (List.map_id' _)

/-- If there are two digits for each octet and the digits are in the order of their values, the
digits of byte strings are in the order of the byte strings. -/
theorem flatMap_digits_lt_iff {κ : Type} [LT κ] (digit : Nat → κ)
    (lt_iff : ∀ m < 16, ∀ n < 16, digit m < digit n ↔ m < n)
    (eq_iff : ∀ m < 16, ∀ n < 16, digit m = digit n ↔ m = n) (a b : Bytes) :
    (a.flatMap fun octet => [digit (octet.toNat / 16), digit (octet.toNat % 16)])
      < (b.flatMap fun octet => [digit (octet.toNat / 16), digit (octet.toNat % 16)]) ↔ a < b := by
  induction a generalizing b with
  | nil =>
    cases b with
    | nil => simp
    | cons y b => simp
  | cons x a ih =>
    cases b with
    | nil => simp
    | cons y b =>
      have hx := x.toNat_lt
      have hy := y.toNat_lt
      -- the first half of an octet counts before the second
      have less : x.toNat < y.toNat ↔ x.toNat / 16 < y.toNat / 16 ∨
          (x.toNat / 16 = y.toNat / 16 ∧ x.toNat % 16 < y.toNat % 16) := by omega
      have same : x.toNat = y.toNat ↔
          x.toNat / 16 = y.toNat / 16 ∧ x.toNat % 16 = y.toNat % 16 := by omega
      simp only [List.flatMap_cons, List.cons_append, List.nil_append, List.cons_lt_cons_iff, ih,
        UInt8.lt_iff_toNat_lt, ← UInt8.toNat_inj]
      rw [lt_iff _ (by omega) _ (by omega), lt_iff _ (by omega) _ (by omega),
        eq_iff _ (by omega) _ (by omega), eq_iff _ (by omega) _ (by omega), less, same]
      tauto

theorem encode_lt_iff {a b : Bytes} : encode a < encode b ↔ a < b := by
  rw [String.lt_iff, toList_encode, toList_encode]
  exact flatMap_digits_lt_iff Nat.digitChar (by decide) (by decide) a b

theorem octets_encode_lt_iff {a b : Bytes} :
    Utf8.encode (encode a) < Utf8.encode (encode b) ↔ a < b := by
  have octets : ∀ b : Bytes, Utf8.encode (encode b) = b.flatMap fun octet =>
      [UInt8.ofNat (Nat.digitChar (octet.toNat / 16)).toNat,
        UInt8.ofNat (Nat.digitChar (octet.toNat % 16)).toNat] := fun b => by
    rw [octets_of_digits fun c hc => (encode_digits hc).1, toList_encode, List.map_flatMap]
    rfl
  rw [octets, octets]
  exact flatMap_digits_lt_iff (fun value => UInt8.ofNat (Nat.digitChar value).toNat) (by decide)
    (by decide) a b

theorem encode_injective {a b : Bytes} (h : encode a = encode b) : a = b := by
  have not_less : ¬ a < b := fun less => Std.lt_irrefl (h ▸ encode_lt_iff.2 less)
  have not_greater : ¬ b < a := fun less => Std.lt_irrefl (h ▸ encode_lt_iff.2 less)
  exact Std.le_antisymm (Std.not_lt.1 not_greater) (Std.not_lt.1 not_less)

/-- What is written is read back. -/
theorem decode_encode (b : Bytes) : decode (encode b) = .ok b := by
  obtain ⟨b', hb', written⟩ := exists_decode (s := encode b) (by rw [length_encode]; omega)
    fun c hc => (encode_digits hc).1
  rw [toLower_encode] at written
  rw [hb', encode_injective written]

end Gazette.Hex
