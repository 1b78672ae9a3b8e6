import Gazette.Bytes

set_option autoImplicit false

/-! # The order of byte strings

A common start does not matter to the order (`append_lt_append_iff`), nor does what follows a
string that is at least as long as the other (`append_lt_iff`). Numbers of one width are in the
order of their octets, most significant first (`bigEndian_lt_iff`). The strings with a common
start are a range of the order (`prefix_iff`).
-/

namespace Gazette.Bytes

/-! ## Strings put together -/

theorem append_lt_append_iff (start a b : Bytes) : start ++ a < start ++ b ↔ a < b := by
  induction start with
  | nil => exact Iff.rfl
  | cons octet rest ih => simp [ih]

theorem append_le_append_iff (start a b : Bytes) : start ++ a ≤ start ++ b ↔ a ≤ b := by
  rw [← Std.not_lt, append_lt_append_iff, Std.not_lt]

/-- What follows a string is not looked at if the other one ends before. -/
theorem append_lt_iff {a b : Bytes} (h : b.length ≤ a.length) (rest : Bytes) :
    a ++ rest < b ↔ a < b := by
  induction b generalizing a with
  | nil => simp
  | cons y b ih =>
    cases a with
    | nil => cases h
    | cons x a => simp [List.cons_lt_cons_iff, ih (Nat.le_of_succ_le_succ h)]

theorem le_append_iff {a b : Bytes} (h : b.length ≤ a.length) (rest : Bytes) :
    b ≤ a ++ rest ↔ b ≤ a := by
  rw [← Std.not_lt, append_lt_iff h, Std.not_lt]

/-- Strings whose first parts are of one length are ordered by the first parts, and then by the
second. -/
theorem append_lt_append_iff_of_length_eq {a b : Bytes} (h : a.length = b.length) (s t : Bytes) :
    a ++ s < b ++ t ↔ a < b ∨ (a = b ∧ s < t) := by
  induction a generalizing b with
  | nil =>
    obtain rfl := List.length_eq_zero_iff.1 h.symm
    simp
  | cons x a ih =>
    cases b with
    | nil => cases h
    | cons y b =>
      have lengths : a.length = b.length := Nat.succ.inj h
      simp only [List.cons_append, List.cons_lt_cons_iff, ih lengths, List.cons.injEq]
      constructor
      · rintro (less | ⟨same, less | ⟨rfl, less⟩⟩)
        · exact .inl (.inl less)
        · exact .inl (.inr ⟨same, less⟩)
        · exact .inr ⟨⟨same, rfl⟩, less⟩
      · rintro ((less | ⟨same, less⟩) | ⟨⟨same, rfl⟩, less⟩)
        · exact .inl less
        · exact .inr ⟨same, .inl less⟩
        · exact .inr ⟨same, .inr ⟨rfl, less⟩⟩

/-! ## Numbers of one width -/

theorem toNatLE_append (a b : Bytes) :
    toNatLE (a ++ b) = toNatLE a + capacity a.length * toNatLE b := by
  induction a with
  | nil => simp [toNatLE, capacity]
  | cons octet rest ih =>
    calc toNatLE (octet :: rest ++ b)
        = octet.toNat + 256 * (toNatLE rest + capacity rest.length * toNatLE b) := by
          rw [List.cons_append, toNatLE, ih]
      _ = octet.toNat + 256 * toNatLE rest + 256 * capacity rest.length * toNatLE b := by
          rw [Nat.mul_add, Nat.mul_assoc, Nat.add_assoc]

theorem toNatBE_cons (octet : UInt8) (rest : Bytes) :
    toNatBE (octet :: rest) = toNatBE rest + capacity rest.length * octet.toNat := by
  rw [toNatBE, List.reverse_cons, toNatLE_append, List.length_reverse]
  rfl

theorem toNatBE_lt_capacity (b : Bytes) : toNatBE b < capacity b.length := by
  induction b with
  | nil => decide
  | cons octet rest ih =>
    have small : octet.toNat + 1 ≤ 256 := octet.toNat_lt
    calc toNatBE (octet :: rest)
        = toNatBE rest + capacity rest.length * octet.toNat := toNatBE_cons octet rest
      _ < capacity rest.length * (octet.toNat + 1) := by rw [Nat.mul_succ]; omega
      _ ≤ capacity rest.length * 256 := Nat.mul_le_mul_left _ small
      _ = capacity (octet :: rest).length := Nat.mul_comm _ _

theorem toNatLE_lt_capacity (b : Bytes) : toNatLE b < capacity b.length := by
  have reversed := toNatBE_lt_capacity b.reverse
  rwa [toNatBE, List.reverse_reverse, List.length_reverse] at reversed

theorem bigEndian_toNatBE (b : Bytes) : bigEndian b.length (toNatBE b) = b := by
  rw [bigEndian, toNatBE, ← List.length_reverse, littleEndian_toNatLE, List.reverse_reverse]

/-- Strings of one length are in the order of the numbers that they stand for. -/
theorem toNatBE_lt_iff {a b : Bytes} (h : a.length = b.length) :
    toNatBE a < toNatBE b ↔ a < b := by
  induction a generalizing b with
  | nil =>
    obtain rfl := List.length_eq_zero_iff.1 h.symm
    simp
  | cons x a ih =>
    cases b with
    | nil => cases h
    | cons y b =>
      have lengths : a.length = b.length := Nat.succ.inj h
      have hx := toNatBE_lt_capacity a
      have hy := toNatBE_lt_capacity b
      rw [toNatBE_cons, toNatBE_cons, List.cons_lt_cons_iff, ← ih lengths, lengths,
        UInt8.lt_iff_toNat_lt]
      rw [lengths] at hx
      -- the first octets settle the order unless they are the same
      rcases Nat.lt_trichotomy x.toNat y.toNat with less | same | greater
      · have step := Nat.mul_le_mul_left (capacity b.length) less
        rw [Nat.mul_succ] at step
        exact iff_of_true (by omega) (.inl less)
      · obtain rfl := UInt8.toNat_inj.1 same
        simp
      · have step := Nat.mul_le_mul_left (capacity b.length) greater
        rw [Nat.mul_succ] at step
        refine iff_of_false (by omega) ?_
        rintro (less | ⟨rfl, -⟩)
        · omega
        · omega

theorem bigEndian_lt_iff {width n m : Nat} (hn : n < capacity width) (hm : m < capacity width) :
    bigEndian width n < bigEndian width m ↔ n < m := by
  rw [← toNatBE_lt_iff (by rw [length_bigEndian, length_bigEndian]), toNatBE_bigEndian,
    toNatBE_bigEndian, Nat.mod_eq_of_lt hn, Nat.mod_eq_of_lt hm]

/-! ## Strings with a common start -/

/-- There is no string between one and its successor. -/
theorem successor_le_iff {a b : Bytes} : successor a ≤ b ↔ a < b := by
  unfold successor
  induction a generalizing b with
  | nil =>
    cases b with
    | nil => decide
    | cons y b =>
      rw [List.nil_append, List.cons_le_cons_iff]
      refine iff_of_true ?_ (List.nil_lt_cons y b)
      rcases Nat.eq_zero_or_pos y.toNat with zero | positive
      · exact .inr ⟨(UInt8.toNat_inj.1 zero).symm, List.nil_le b⟩
      · exact .inl (UInt8.lt_iff_toNat_lt.2 positive)
  | cons x a ih =>
    cases b with
    | nil => simp
    | cons y b => simp [List.cons_le_cons_iff, List.cons_lt_cons_iff, ih]

/-- An octet that is not the greatest bounds the strings that start with it by the next one. -/
theorem cons_lt_next_iff {x : UInt8} (h : x ≠ 0xff) (y : UInt8) (rest : Bytes) :
    y :: rest < [x + 1] ↔ y.toNat ≤ x.toNat := by
  have below : x.toNat ≠ 255 := fun same => h (UInt8.toNat_inj.1 same)
  have next : (x + 1).toNat = x.toNat + 1 := by
    have small := x.toNat_lt
    rw [UInt8.toNat_add]
    exact Nat.mod_eq_of_lt (by show x.toNat + 1 < 256; omega)
  simp only [List.cons_lt_cons_iff, List.not_lt_nil, and_false, or_false, UInt8.lt_iff_toNat_lt,
    next, Nat.lt_succ_iff]

/-- The strings that start with `start` are those from `start` up to its bound, if it has one. -/
theorem prefix_iff (start key : Bytes) :
    start <+: key ↔ start ≤ key ∧ ∀ bound, afterPrefix start = some bound → key < bound := by
  induction start generalizing key with
  | nil => simp [afterPrefix]
  | cons x start ih =>
    cases key with
    | nil => simp
    | cons y key =>
      have order : x :: start ≤ y :: key ↔ x < y ∨ (x = y ∧ start ≤ key) := by
        rw [List.cons_le_cons_iff]
      rw [List.cons_prefix_cons, ih, order]
      cases hbound : afterPrefix start with
      | some bound =>
        -- the bound of the longer start is that of the rest, after the first octet
        simp only [afterPrefix, hbound, Option.some.injEq, forall_eq', List.cons_lt_cons_iff]
        constructor
        · rintro ⟨rfl, first, last⟩
          exact ⟨.inr ⟨rfl, first⟩, .inr ⟨rfl, last⟩⟩
        · rintro ⟨less | ⟨rfl, first⟩, less' | ⟨same, last⟩⟩
          · exact absurd (UInt8.lt_trans less less') (UInt8.lt_irrefl x)
          · exact absurd (same ▸ less) (UInt8.lt_irrefl x)
          · exact absurd less' (UInt8.lt_irrefl x)
          · exact ⟨rfl, first, last⟩
      | none =>
        by_cases top : x = 0xff
        · -- no octet is greater than the first, and the rest has no bound
          have none_greater : ¬ x < y := by
            rw [top, UInt8.lt_iff_toNat_lt]
            exact Nat.not_lt.2 (Nat.le_of_lt_succ y.toNat_lt)
          simp only [afterPrefix, hbound, if_pos top, reduceCtorEq, false_implies, implies_true,
            and_true, none_greater, false_or]
        · -- the bound is the next octet alone, so the first octet can be no other
          simp only [afterPrefix, hbound, if_neg top, Option.some.injEq, forall_eq',
            cons_lt_next_iff top, UInt8.lt_iff_toNat_lt, reduceCtorEq, false_implies, implies_true,
            and_true]
          constructor
          · rintro ⟨rfl, first⟩
            exact ⟨.inr ⟨rfl, first⟩, Nat.le_refl _⟩
          · rintro ⟨less | ⟨rfl, first⟩, most⟩
            · omega
            · exact ⟨rfl, first⟩

end Gazette.Bytes
