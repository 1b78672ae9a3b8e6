import Gazette.Toml.Scalar
import Mathlib.Data.List.Basic

set_option autoImplicit false

/-! # Numerals

A natural number is written by its decimal digits, without a sign and without a superfluous zero.
Such a numeral stands for its number (`valueOf_numeral`) and can be taken for nothing else: not for
a truth value, a date or a number in another base. So it reads back as an integer, if the number
fits into a signed 64-bit word (`Scalar.read_numeral`).
-/

namespace Gazette.Toml

/-- The decimal digits of a number. -/
abbrev numeral (n : Nat) : List Char := Nat.toDigits 10 n

theorem isDigit_of_mem_numeral {n : Nat} {c : Char} (h : c ∈ numeral n) : c.isDigit :=
  Nat.isDigit_of_mem_toDigits (by decide) (by decide) h

theorem exists_cons_numeral (n : Nat) : ∃ c cs, numeral n = c :: cs ∧ c.isDigit := by
  obtain ⟨c, cs, same⟩ :=
    List.exists_cons_of_ne_nil (show numeral n ≠ [] from Nat.toDigits_ne_nil)
  exact ⟨c, cs, same, isDigit_of_mem_numeral (n := n) (by rw [same]; exact List.mem_cons_self)⟩

/-- Only zero is written with a zero in front. -/
theorem head?_numeral {n : Nat} (h : 0 < n) : (numeral n).head? ≠ some '0' := by
  induction n using Nat.strongRecOn with
  | ind n ih =>
    by_cases small : n < 10
    · rw [numeral, Nat.toDigits_of_lt_base small]
      simp
      omega
    · rw [numeral, Nat.toDigits_of_base_le (by decide) (by omega),
        List.head?_append_of_ne_nil _ Nat.toDigits_ne_nil]
      exact ih (n / 10) (by omega) (by omega)

/-! ## Lists of digits -/

section Digits

variable {cs : List Char}

/-- A character of a class is none that is outside it. -/
theorem ne_of_class {p : Char → Bool} {c d : Char} (hc : p c) (hd : p d = false) : c ≠ d := by
  rintro rfl
  rw [hc] at hd
  cases hd

/-- Digits without underscores are read as they are. -/
theorem ungroup_digits (h : ∀ c ∈ cs, c.isDigit) (some_digit : cs ≠ []) :
    ungroup Char.isDigit cs = some cs := by
  induction cs with
  | nil => exact absurd rfl some_digit
  | cons c rest ih =>
    have first : c.isDigit := h c List.mem_cons_self
    cases rest with
    | nil => simp [ungroup, first]
    | cons d rest =>
      have second : d ≠ '_' := ne_of_class (h d (by simp)) (by decide)
      have later := ih (fun c hc => h c (List.mem_cons_of_mem _ hc)) (by simp)
      rw [ungroup]
      · simp [first, later]
      · simp
      · intro rest' same
        exact second (List.cons.inj same).1

theorem digitValue_of_isDigit {c : Char} (h : c.isDigit) : digitValue c = c.toNat - '0'.toNat := by
  rw [digitValue, if_pos h]

theorem valueOf_digits (h : ∀ c ∈ cs, c.isDigit) : valueOf 10 cs = Nat.ofDigitChars 10 cs 0 := by
  rw [valueOf, Nat.ofDigitChars_eq_foldl]
  refine List.foldl_ext _ _ _ fun n c hc => ?_
  rw [digitValue_of_isDigit (h c hc)]

theorem not_isDateTime_digits (h : ∀ c ∈ cs, c.isDigit) : Scalar.isDateTime cs = false := by
  -- a date has a hyphen in it, and a time of day a colon
  have no_date : Scalar.afterDate? cs = none := by
    unfold Scalar.afterDate?
    split
    · have hyphen : '-'.isDigit := h '-' (by simp)
      exact absurd hyphen (by decide)
    · rfl
  have no_time : Scalar.afterTime? cs = none := by
    unfold Scalar.afterTime?
    split
    · have colon : ':'.isDigit := h ':' (by simp)
      exact absurd colon (by decide)
    · rfl
  simp [Scalar.isDateTime, no_date, no_time]

theorem splitSign_digits (h : ∀ c ∈ cs, c.isDigit) : Scalar.splitSign cs = (false, cs) := by
  unfold Scalar.splitSign
  split
  · have minus : '-'.isDigit := h '-' List.mem_cons_self
    exact absurd minus (by decide)
  · have plus : '+'.isDigit := h '+' List.mem_cons_self
    exact absurd plus (by decide)
  · rfl

end Digits

/-! ## Reading a numeral -/

theorem valueOf_numeral (n : Nat) : valueOf 10 (numeral n) = n := by
  rw [valueOf_digits fun _ => isDigit_of_mem_numeral]
  exact Nat.ofDigitChars_toDigits (by decide) (by decide)

namespace Scalar

theorem decimal?_numeral (n : Nat) : decimal? (numeral n) = some (numeral n) := by
  have whole := ungroup_digits (fun _ => isDigit_of_mem_numeral (n := n)) Nat.toDigits_ne_nil
  have no_zero : ¬ ((numeral n).head? = some '0' ∧ 1 < (numeral n).length) := by
    rintro ⟨zero, long⟩
    rcases Nat.eq_zero_or_pos n with rfl | positive
    · exact absurd long (by decide)
    · exact head?_numeral positive zero
  simp [decimal?, whole, no_zero]

theorem integer?_numeral {n : Nat} (h : n ≤ Int64.maxValue.toInt) :
    integer? (numeral n) = some (n : Int) := by
  have fits : fitting? (n : Int) = some (n : Int) := by
    have least : Int64.minValue.toInt ≤ 0 := by decide
    rw [fitting?, if_pos ⟨by omega, h⟩]
  have other_base : ∀ c rest, c.isDigit = false → numeral n ≠ '0' :: c :: rest := by
    intro c rest no_digit same
    have digit : c.isDigit := isDigit_of_mem_numeral (n := n) (by rw [same]; simp)
    rw [digit] at no_digit
    cases no_digit
  unfold integer?
  split
  · rename_i same
    exact absurd same (other_base 'x' _ (by decide))
  · rename_i same
    exact absurd same (other_base 'o' _ (by decide))
  · rename_i same
    exact absurd same (other_base 'b' _ (by decide))
  · simp [splitSign_digits fun _ => isDigit_of_mem_numeral (n := n), decimal?_numeral,
      valueOf_numeral, fits]

theorem ofToken?_numeral {n : Nat} (h : n ≤ Int64.maxValue.toInt) :
    ofToken? (numeral n) = some (.integer n) := by
  have digits : ∀ c ∈ numeral n, c.isDigit := fun _ => isDigit_of_mem_numeral
  have no_word : ∀ word : List Char, (∃ c ∈ word, c.isDigit = false) → numeral n ≠ word := by
    rintro word ⟨c, hc, no_digit⟩ rfl
    exact ne_of_class (digits c hc) no_digit rfl
  rw [ofToken?, if_neg (no_word _ ⟨'t', by decide, by decide⟩),
    if_neg (no_word _ ⟨'f', by decide, by decide⟩), not_isDateTime_digits digits,
    integer?_numeral h]
  rfl

/-- A numeral ends where its line does. -/
theorem splitToken_numeral (n : Nat) (rest : List Char) :
    splitToken (numeral n ++ '\n' :: rest) = (numeral n, '\n' :: rest) := by
  have token_char : ∀ c ∈ numeral n, isTokenChar c := by
    intro c hc
    have digit := isDigit_of_mem_numeral hc
    simp [isTokenChar, Char.isAlphanum, digit]
  have token : (numeral n ++ '\n' :: rest).takeWhile isTokenChar = numeral n := by
    rw [List.takeWhile_append_of_pos token_char,
      List.takeWhile_cons_of_neg (by simp [isTokenChar]), List.append_nil]
  rw [splitToken, token, List.drop_left]
  rfl

/-- At the end of a line, a numeral is read as its number. -/
theorem read_numeral {n : Nat} (h : n ≤ Int64.maxValue.toInt) (rest : List Char) :
    read (numeral n ++ '\n' :: rest) = some (.integer n, '\n' :: rest) := by
  simp [read, splitToken_numeral, ofToken?_numeral h]

end Scalar

end Gazette.Toml
