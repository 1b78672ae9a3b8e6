import Gazette.Proofs.Bytes
import Gazette.Proofs.Outcome
import Gazette.Proofs.Store.Reliable
import Gazette.Store.Counter

set_option autoImplicit false

/-! # What a counter has issued

`Counter.HasIssued` says what contents tell about a counter: the last number issued, which is
zero as long as there is no value under the counter's key.
-/

namespace Gazette.Counter

/-- The last number that the counter issued. -/
def HasIssued (counter : Counter) (contents : Contents) (last : UInt64) : Prop :=
  contents.get? counter.key = some (valueOf last)
    ∨ (contents.get? counter.key = none ∧ last = 0)

variable {counter : Counter} {contents : Contents} {last : UInt64} {store : Store}

theorem HasIssued.congr {contents' : Contents} (h : counter.HasIssued contents last)
    (hsame : contents'.get? counter.key = contents.get? counter.key) :
    counter.HasIssued contents' last := by
  rw [HasIssued, hsame]
  exact h

theorem toNatBE_valueOf (n : UInt64) : UInt64.ofNat (Bytes.toNatBE (valueOf n)) = n := by
  have fits : n.toNat < Bytes.capacity 8 := n.toNat_lt
  rw [valueOf, Bytes.toNatBE_bigEndian, Nat.mod_eq_of_lt fits, UInt64.ofNat_toNat]

theorem length_valueOf (n : UInt64) : (valueOf n).length = 8 := Bytes.length_bigEndian 8 _

/-- A counter whose value is not damaged has issued some number. -/
theorem exists_hasIssued
    (h : ∀ value, contents.get? counter.key = some value → value.length = 8) :
    ∃ last, counter.HasIssued contents last := by
  cases hfound : contents.get? counter.key with
  | none => exact ⟨0, .inr ⟨hfound, rfl⟩⟩
  | some value =>
    have width : value.length = 8 := h value hfound
    have fits : Bytes.toNatBE value < UInt64.size := by
      have bound := Bytes.toNatBE_lt_capacity value
      rwa [width] at bound
    have same : valueOf (UInt64.ofNat (Bytes.toNatBE value)) = value := by
      rw [valueOf, UInt64.toNat_ofNat_of_lt' fits, ← width, Bytes.bigEndian_toNatBE]
    exact ⟨UInt64.ofNat (Bytes.toNatBE value), .inl (by rw [hfound, same])⟩

/-- What is read from any store is what the counter has issued, if the store does not refuse. -/
theorem eq_of_current (h : counter.HasIssued store.contents last) {n : UInt64}
    (hn : counter.current store = .ok n) : n = last := by
  obtain ⟨value, hvalue, hread⟩ := bind_eq_ok.1 hn
  rcases h with hfound | ⟨hfound, rfl⟩
  · obtain rfl := (Store.get?_of_get hvalue).symm.trans hfound
    simp only [length_valueOf, if_true, toNatBE_valueOf] at hread
    exact (Except.ok.inj hread).symm
  · obtain rfl := (Store.get?_of_get hvalue).symm.trans hfound
    exact (Except.ok.inj hread).symm

/-- A counter that can be read tells what it has issued. -/
theorem current_of_get (h : counter.HasIssued store.contents last) {value : Option Bytes}
    (readable : store.get counter.key = .ok value) : counter.current store = .ok last := by
  have found := Store.get?_of_get readable
  rw [current, readable]
  rcases h with hfound | ⟨hfound, rfl⟩
  · obtain rfl := found.symm.trans hfound
    refine bind_eq_ok.2 ⟨_, rfl, ?_⟩
    simp only [length_valueOf, if_true, toNatBE_valueOf]
  · obtain rfl := found.symm.trans hfound
    rfl

/-- The next number is one more, as long as it fits. -/
theorem reserve_eq_ok {id : RecordId} {bump : Operation}
    (h : counter.reserve store = .ok (id, bump)) :
    ∃ last, counter.current store = .ok last ∧ last.toNat + 1 < UInt64.size
      ∧ id = ⟨last + 1⟩ ∧ bump = .set counter.key (valueOf (last + 1)) := by
  obtain ⟨last, hlast, hnext⟩ := bind_eq_ok.1 h
  split at hnext
  · rename_i fits
    cases hnext
    exact ⟨last, hlast, fits, rfl, rfl⟩
  · cases hnext

end Gazette.Counter
