import Gazette.Proofs.Bytes
import Gazette.Validation

set_option autoImplicit false

/-! # Times in keys

Times after the epoch are in the order of their octets, so a bound on the octets is a bound on
the time (`UnixTime.key_lt_iff`). The second after the last one there is cannot be held; all
other times have a next second (`UnixTime.lt_addSeconds_one_iff`).
-/

namespace Gazette

namespace UnixTime

variable {s t : UnixTime}

theorem le_iff : s ≤ t ↔ s.seconds.toInt ≤ t.seconds.toInt := Int64.le_iff_toInt_le

theorem lt_iff : s < t ↔ s.seconds.toInt < t.seconds.toInt := Int64.lt_iff_toInt_lt

theorem isNegative_iff : t.isNegative = true ↔ t.seconds.toInt < 0 := by
  rw [isNegative, decide_eq_true_eq, Int64.lt_iff_toInt_lt]
  rfl

theorem isZero_iff : t.isZero = true ↔ t.seconds.toInt = 0 := by
  rw [isZero, decide_eq_true_eq, ← Int64.toInt_inj]
  rfl

end UnixTime

theorem Check.time_eq_ok {t : UnixTime} : Check.time t = .ok () ↔ (⟨1⟩ : UnixTime) ≤ t := by
  have order : (⟨1⟩ : UnixTime) ≤ t ↔ 1 ≤ t.seconds.toInt := UnixTime.le_iff
  rw [order, Check.time]
  split
  · rename_i negative
    rw [UnixTime.isNegative_iff] at negative
    exact iff_of_false (fun h => by cases h) (by omega)
  · rename_i not_negative
    rw [UnixTime.isNegative_iff] at not_negative
    split
    · rename_i zero
      rw [UnixTime.isZero_iff] at zero
      exact iff_of_false (fun h => by cases h) (by omega)
    · rename_i not_zero
      rw [UnixTime.isZero_iff] at not_zero
      exact iff_of_true rfl (by omega)

namespace UnixTime

variable {s t : UnixTime}

/-- The octets of a time that is not before the epoch. -/
def key (t : UnixTime) : Bytes := Bytes.bigEndian 8 t.seconds.toInt.toNat

theorem length_key (t : UnixTime) : t.key.length = 8 := Bytes.length_bigEndian 8 _

theorem length_of_keyBytes? {k : Bytes} (h : t.keyBytes? = some k) : k.length = 8 := by
  unfold keyBytes? at h
  split at h
  · cases h
  · cases h
    exact length_key t

/-- A time from the epoch on can stand in a key. -/
theorem keyBytes?_of_not_negative (h : ¬ t.isNegative = true) : t.keyBytes? = some t.key :=
  if_neg h

theorem not_negative_of_time (h : Check.time t = .ok ()) : ¬ t.isNegative = true := by
  have after : 1 ≤ t.seconds.toInt := le_iff.1 (Check.time_eq_ok.1 h)
  rw [isNegative_iff]
  omega

theorem keyBytes?_of_time (h : Check.time t = .ok ()) : t.keyBytes? = some t.key :=
  keyBytes?_of_not_negative (not_negative_of_time h)

theorem key_lt_key_iff (hs : 0 ≤ s.seconds.toInt) (ht : 0 ≤ t.seconds.toInt) :
    s.key < t.key ↔ s < t := by
  have fits : ∀ u : UnixTime, u.seconds.toInt.toNat < Bytes.capacity 8 := fun u => by
    have small : u.seconds.toInt < 2 ^ 63 := Int64.toInt_lt u.seconds
    have capacity : Bytes.capacity 8 = 2 ^ 64 := by decide
    omega
  rw [key, key, Bytes.bigEndian_lt_iff (fits s) (fits t), lt_iff]
  omega

theorem key_inj (hs : 0 ≤ s.seconds.toInt) (ht : 0 ≤ t.seconds.toInt) (h : s.key = t.key) :
    s = t := by
  have not_less : ¬ s < t := fun less => Std.lt_irrefl (h ▸ (key_lt_key_iff hs ht).2 less)
  have not_greater : ¬ t < s := fun less => Std.lt_irrefl (h ▸ (key_lt_key_iff ht hs).2 less)
  rw [lt_iff] at not_less not_greater
  have same : s.seconds.toInt = t.seconds.toInt := by omega
  exact congrArg UnixTime.mk (Int64.toInt_inj.1 same)

/-- Up to the octets of a bound there are the times before it. If the bound is before the epoch
there are none. -/
theorem key_lt_iff (hs : Check.time s = .ok ()) : s.key < t.keyBytes?.getD [] ↔ s < t := by
  have after : 1 ≤ s.seconds.toInt := le_iff.1 (Check.time_eq_ok.1 hs)
  rw [keyBytes?]
  split
  · rename_i negative
    rw [isNegative_iff] at negative
    refine iff_of_false (List.not_lt_nil _) ?_
    rw [lt_iff]
    omega
  · rename_i not_negative
    rw [isNegative_iff] at not_negative
    exact key_lt_key_iff (by omega) (by omega)

/-! ## The next second -/

theorem toInt_addSeconds_one (t : UnixTime) :
    (t.addSeconds 1).seconds.toInt = min Int64.maxValue.toInt (t.seconds.toInt + 1) := by
  have low := Int64.le_toInt t.seconds
  have least : Int64.minValue.toInt = -9223372036854775808 := rfl
  have greatest : Int64.maxValue.toInt = 9223372036854775807 := rfl
  have one : (1 : Int64).toInt = 1 := rfl
  rw [addSeconds, saturate, least, greatest, one, Int64.toInt_ofInt_of_le (by omega) (by omega)]
  omega

/-- The last second there is. -/
def last : UnixTime := ⟨Int64.maxValue⟩

theorem le_last (t : UnixTime) : t.seconds.toInt ≤ last.seconds.toInt :=
  Int64.le_iff_toInt_le.1 (Int64.le_maxValue t.seconds)

theorem lt_last_iff : t < last ↔ t ≠ last := by
  have most := le_last t
  have same : t = last ↔ t.seconds.toInt = last.seconds.toInt := by
    rw [Int64.toInt_inj]
    exact ⟨congrArg seconds, congrArg mk⟩
  rw [lt_iff, Ne, same]
  omega

/-- What is before the next second is not after this one, and not at the last second, which is
before no other. -/
theorem lt_next_iff : s < t.addSeconds 1 ↔ s ≤ t ∧ s < last := by
  have most := le_last s
  have greatest : last.seconds.toInt = Int64.maxValue.toInt := rfl
  rw [lt_iff, toInt_addSeconds_one, le_iff, lt_iff, ← greatest]
  omega

theorem le_of_lt_addSeconds_one (h : s < t.addSeconds 1) : s ≤ t :=
  (lt_next_iff.1 h).1

/-- If there is a next second, what is before it is what is not after this one. -/
theorem lt_addSeconds_one_iff (ht : t.seconds < Int64.maxValue) : s < t.addSeconds 1 ↔ s ≤ t := by
  refine lt_next_iff.trans (and_iff_left_of_imp fun early => ?_)
  exact Int64.lt_of_le_of_lt early ht

end UnixTime

end Gazette
