import Gazette.Proofs.Store.Footprint
import Gazette.Proofs.Store.Overlay
import Gazette.Proofs.Store.RangeScan

set_option autoImplicit false

/-! # Stores that answer alike

Two stores answer alike on some keys if nobody who reads under these keys alone can tell them
apart, not even by what is refused (`Store.Alike`). A step that leaves the keys alone makes no
difference there (`Store.alike_perform`).

A walk that has come to these keys alone stays among them, whatever store it goes on with
(`RangeScan.Within.next`), so it gives the same on both stores (`RangeScan.Within.items_eq`,
`IndexScan.next_congr`).
-/

namespace Gazette

variable {keys : Bytes → Prop}

/-! ## Reading alike -/

/-- All keys from `start` up to but not including `upper` are among these. -/
def RangeWithin (keys : Bytes → Prop) (start : Bytes) (upper : Option Bytes) : Prop :=
  ∀ key, start ≤ key → (∀ bound, upper = some bound → key < bound) → keys key

theorem KeyMap.range_congr {β : Type} {m n : KeyMap β} {start : Bytes} {upper : Option Bytes}
    (hrange : RangeWithin keys start upper) (h : ∀ key, keys key → m.get? key = n.get? key) :
    m.range start upper = n.range start upper := by
  refine eq_of_lookup_eq (m.range_ascending _ _) (n.range_ascending _ _) fun key => ?_
  rw [range, range, lookup_filter, lookup_filter]
  split
  · rename_i inside
    obtain ⟨first, last⟩ := (inRange_iff _ _ _).1 inside
    exact h key (hrange key first last)
  · rfl

namespace Store

/-- What is read under these keys alone is the same in both stores. -/
structure Alike (keys : Bytes → Prop) (store store' : Store) : Prop where
  get : ∀ key, keys key → store'.get key = store.get key
  scan : ∀ start upper limit, RangeWithin keys start upper →
    store'.scan start upper limit = store.scan start upper limit
  contents : ∀ key, keys key → store'.contents.get? key = store.contents.get? key

theorem Alike.refl (store : Store) : Alike keys store store :=
  ⟨fun _ _ => rfl, fun _ _ _ _ => rfl, fun _ _ => rfl⟩

theorem Alike.trans {store store' store'' : Store} (h : Alike keys store store')
    (h' : Alike keys store' store'') : Alike keys store store'' where
  get key hkey := (h'.get key hkey).trans (h.get key hkey)
  scan _ _ _ hrange := (h'.scan _ _ _ hrange).trans (h.scan _ _ _ hrange)
  contents key hkey := (h'.contents key hkey).trans (h.contents key hkey)

/-- Devices with one rule of refusal differ in their contents alone. -/
theorem alike_base {device device' : Device} (hrefusal : device'.refusal = device.refusal)
    (h : ∀ key, keys key → device'.contents.get? key = device.contents.get? key) :
    Alike keys (.base device) (.base device') where
  get key hkey := by
    simp only [get, Device.get, hrefusal, h key hkey]
  scan start upper limit hrange := by
    have same : device'.contents.range start upper = device.contents.range start upper :=
      KeyMap.range_congr hrange h
    simp only [scan, Device.scan, hrefusal, same]
  contents := h

/-- Overlays on one store differ in their writes alone. -/
theorem alike_staged {below : Store} {writes writes' : WriteSet}
    (h : ∀ key, keys key → writes'.get? key = writes.get? key) :
    Alike keys (.staged below writes) (.staged below writes') where
  get key hkey := by
    simp only [get, h key hkey]
  scan start upper limit hrange := by
    have same : writes'.range start upper = writes.range start upper :=
      KeyMap.range_congr hrange h
    simp only [scan, same]
  contents key hkey := by
    rw [contents_staged, contents_staged, WriteSet.get?_apply_operations,
      WriteSet.get?_apply_operations, h key hkey]

theorem alike_apply (store : Store) {batch : List Operation}
    (h : ∀ write ∈ batch, ¬ keys write.key) : Alike keys store (store.apply batch).2 := by
  have untouched : ∀ key, keys key → ∀ write ∈ batch, write.key ≠ key :=
    fun key hkey write hwrite same => h write hwrite (same ▸ hkey)
  cases store with
  | base device =>
    exact alike_base (refusal_apply (.base device) batch) fun key hkey =>
      get?_apply_of_untouched (.base device) (untouched key hkey)
  | staged below writes =>
    refine alike_staged fun key hkey => ?_
    have out := untouched key hkey
    clear h untouched
    induction batch generalizing writes with
    | nil => rfl
    | cons write rest ih =>
      rw [List.foldl_cons, ih _ fun w hw => out w (List.mem_cons_of_mem _ hw),
        WriteSet.get?_record, if_neg (out write List.mem_cons_self).symm]

/-- A step that writes under other keys makes no difference, whatever it reads. -/
theorem alike_perform {ε α : Type} (store : Store) {step : Tx ε α} (h : step.WritesOutside keys) :
    Alike keys store (store.perform step).2 := by
  show Alike keys store (step.run store).2
  induction step generalizing store with
  | done outcome => exact .refl store
  | withStore next ih => exact ih store store (h store)
  | afterWrite batch next ih => exact (alike_apply store h.1).trans (ih _ _ (h.2 _))

/-- A scan gives entries of its range. -/
theorem inRange_of_mem_scan {store : Store} {start : Bytes} {upper : Option Bytes} {limit : Nat}
    {page : List Entry} (h : store.scan start upper limit = .ok page) {e : Entry}
    (he : e ∈ page) : KeyMap.inRange start upper e.1 = true := by
  rw [page_of_scan h] at he
  exact (List.mem_filter.1 (List.mem_of_mem_take he)).2

end Store

/-! ## Walks that stay among keys -/

namespace RangeScan

variable {scan : RangeScan}

/-- The walk has come to these keys alone, and no others are before it. -/
structure Within (keys : Bytes → Prop) (scan : RangeScan) : Prop where
  ahead : RangeWithin keys scan.nextStart scan.upper
  fetched : ∀ e ∈ scan.buffer, keys e.1

theorem within_ofRange {start : Bytes} {upper : Option Bytes} (h : RangeWithin keys start upper)
    (pageSize : Nat) : (ofRange start upper pageSize).Within keys where
  ahead := h
  fetched := List.forall_mem_nil _

theorem Within.imp {keys' : Bytes → Prop} (h : scan.Within keys)
    (himp : ∀ key, keys key → keys' key) : scan.Within keys' where
  ahead key first last := himp key (h.ahead key first last)
  fetched e he := himp e.1 (h.fetched e he)

theorem Within.fill {filled : RangeScan} {store : Store} (h : scan.Within keys)
    (hfill : scan.fill store = .ok filled) : filled.Within keys := by
  unfold RangeScan.fill at hfill
  split at hfill
  · cases hfill
  · rename_i page hpage
    cases hfill
    have inside : ∀ e ∈ page, scan.nextStart ≤ e.1 ∧ ∀ bound, scan.upper = some bound →
        e.1 < bound := fun e he =>
      (KeyMap.inRange_iff _ _ _).1 (Store.inRange_of_mem_scan hpage he)
    refine ⟨fun key first last => ?_, fun e he => ?_⟩
    · -- the walk goes on from a key that is not smaller
      refine h.ahead key (Std.le_trans ?_ first) last
      split
      · rename_i final hfinal
        have from_start := (inside final (List.mem_of_getLast? hfinal)).1
        exact Std.le_trans from_start (Std.le_of_lt (Bytes.lt_successor final.1))
      · exact Std.le_refl _
    · rcases List.mem_append.1 he with he | he
      · exact h.fetched e he
      · exact h.ahead e.1 (inside e he).1 (inside e he).2

theorem Within.pop {item : Option (Except StoreError Entry)} {scan' : RangeScan}
    (h : scan.Within keys) (hpop : scan.pop = (item, scan')) :
    scan'.Within keys ∧ ∀ e, item = some (.ok e) → keys e.1 := by
  unfold RangeScan.pop at hpop
  split at hpop
  · cases hpop
    exact ⟨h, fun e found => by cases found⟩
  · rename_i entry rest hbuffer
    cases hpop
    have fetched : ∀ e ∈ entry :: rest, keys e.1 := hbuffer ▸ h.fetched
    refine ⟨⟨h.ahead, fun e he => fetched e (List.mem_cons_of_mem _ he)⟩, fun e found => ?_⟩
    cases found
    exact fetched entry List.mem_cons_self

/-- Whatever the store is that the walk goes on with, it comes to these keys alone. -/
theorem Within.next {item : Option (Except StoreError Entry)} {scan' : RangeScan} {store : Store}
    (h : scan.Within keys) (hnext : scan.next store = (item, scan')) :
    scan'.Within keys ∧ ∀ e, item = some (.ok e) → keys e.1 := by
  unfold RangeScan.next at hnext
  split at hnext
  · split at hnext
    · cases hnext
      exact ⟨⟨h.ahead, h.fetched⟩, fun e found => by cases found⟩
    · rename_i filled hfill
      exact (h.fill hfill).pop hnext
  · exact h.pop hnext

variable {store store' : Store}

theorem Within.next_congr (h : scan.Within keys) (halike : store.Alike keys store') :
    scan.next store' = scan.next store := by
  simp only [RangeScan.next, RangeScan.fill, halike.scan _ _ _ h.ahead]

theorem Within.items_congr (h : scan.Within keys) (halike : store.Alike keys store') :
    scan.items store' = scan.items store := by
  fun_induction RangeScan.items scan store with
  | case1 scan last hnext => exact items_of_end ((h.next_congr halike).trans hnext)
  | case2 scan item scan' hnext ih =>
    rw [items_of_next ((h.next_congr halike).trans hnext), ih (h.next hnext).1]

end RangeScan

end Gazette
