import Gazette.Proofs.Bytes
import Gazette.Proofs.Store.Reliable
import Gazette.Store.RangeScan

set_option autoImplicit false

/-! # What a walk gives

On a reliable store that does not change, a walk has a list of entries before it: those that it
has fetched, and those of the rest of its range (`RangeScan.remaining`). Each call of `next`
takes one from the front of this list (`next_eq`), whatever the size of the pages. So a walk
through a range gives the entries of the range (`items_ofRange`).
-/

namespace Gazette

/-! ## Ranges -/

/-- What comes after the first entries of an ascending list is what is greater than the last of
them. -/
theorem filter_after {β : Type} {entries : List (Bytes × β)} (h : Ascending entries) {n : Nat}
    {last : Bytes × β} (hlast : (entries.take n).getLast? = some last) :
    entries.filter (fun e => last.1 < e.1) = entries.drop n := by
  obtain ⟨front, hfront⟩ := List.getLast?_eq_some_iff.1 hlast
  have whole : front ++ last :: entries.drop n = entries := by
    calc front ++ last :: entries.drop n
        = (front ++ [last]) ++ entries.drop n := by rw [List.append_assoc]; rfl
      _ = entries := by rw [← hfront, List.take_append_drop]
  have ordered := h
  rw [← whole] at ordered
  obtain ⟨-, tail, before⟩ := List.pairwise_append.1 ordered
  obtain ⟨after, -⟩ := List.pairwise_cons.1 tail
  have none_before : front.filter (fun e => last.1 < e.1) = [] :=
    List.filter_eq_nil_iff.2 fun e he => by
      simpa using Std.le_of_lt (before e he last List.mem_cons_self)
  have all_after : (entries.drop n).filter (fun e => last.1 < e.1) = entries.drop n :=
    List.filter_eq_self.2 fun e he => by simpa using after e he
  calc entries.filter (fun e => last.1 < e.1)
      = (front ++ last :: entries.drop n).filter (fun e => last.1 < e.1) := by rw [whole]
    _ = entries.drop n := by
        rw [List.filter_append, none_before, List.nil_append,
          List.filter_cons_of_neg (by simp), all_after]

namespace KeyMap

variable {β : Type}

theorem mem_entries_iff (m : KeyMap β) (e : Bytes × β) :
    e ∈ m.entries ↔ m.get? e.1 = some e.2 := by
  obtain ⟨entries, ascending⟩ := m
  show e ∈ entries ↔ entries.lookup e.1 = some e.2
  induction entries with
  | nil => simp
  | cons entry rest ih =>
    obtain ⟨first, tail⟩ := List.pairwise_cons.1 ascending
    rw [List.mem_cons, lookup_entry e.1 entry.1 entry.2 rest, ih tail]
    by_cases same : e.1 = entry.1
    · -- the key does not come again
      have absent : rest.lookup e.1 = none := lookup_eq_none (same ▸ first)
      rw [if_pos same, absent, Option.some.injEq]
      constructor
      · rintro (rfl | none_found)
        · rfl
        · cases none_found
      · intro value
        exact .inl (Prod.ext same value.symm)
    · rw [if_neg same]
      exact or_iff_right fun entries => same (congrArg Prod.fst entries)

theorem inRange_iff (start : Bytes) (upper : Option Bytes) (key : Bytes) :
    inRange start upper key = true ↔
      start ≤ key ∧ ∀ bound, upper = some bound → key < bound := by
  cases upper <;> simp [inRange]

theorem mem_range_iff (m : KeyMap β) (start : Bytes) (upper : Option Bytes) (e : Bytes × β) :
    e ∈ m.range start upper ↔
      m.get? e.1 = some e.2 ∧ start ≤ e.1 ∧ ∀ bound, upper = some bound → e.1 < bound := by
  rw [range, List.mem_filter, inRange_iff, mem_entries_iff]

/-- The range after an entry of a range is what comes after the entry there. -/
theorem range_successor (m : KeyMap β) {start : Bytes} {upper : Option Bytes} {n : Nat}
    {last : Bytes × β} (h : ((m.range start upper).take n).getLast? = some last) :
    m.range (Bytes.successor last.1) upper = (m.range start upper).drop n := by
  have within : start ≤ last.1 :=
    ((m.mem_range_iff start upper last).1
      (List.mem_of_mem_take (List.mem_of_getLast? h))).2.1
  rw [← filter_after (m.range_ascending start upper) h, range, range, List.filter_filter]
  refine List.filter_congr fun e _ => Bool.eq_iff_iff.2 ?_
  rw [Bool.and_eq_true, decide_eq_true_eq, inRange_iff, inRange_iff, Bytes.successor_le_iff]
  constructor
  · rintro ⟨after, bounded⟩
    exact ⟨after, Std.le_trans within (Std.le_of_lt after), bounded⟩
  · rintro ⟨after, -, bounded⟩
    exact ⟨after, bounded⟩

end KeyMap

/-! ## Walks -/

namespace RangeScan

theorem items_of_next {scan scan' : RangeScan} {store : Store} {item : Except StoreError Entry}
    (h : scan.next store = (some item, scan')) : scan.items store = item :: scan'.items store := by
  rw [items, h]

theorem items_of_end {scan scan' : RangeScan} {store : Store}
    (h : scan.next store = (none, scan')) : scan.items store = [] := by
  rw [items, h]

/-- The entries that a walk has before it. -/
def remaining (scan : RangeScan) (contents : Contents) : List Entry :=
  scan.buffer ++ if scan.exhausted then [] else contents.range scan.nextStart scan.upper

variable {store : Store}

/-- Fetching a page takes it from the range and leaves what is before the walk as it is. -/
theorem fill_eq (h : store.Reliable) {scan : RangeScan} (fetching : scan.exhausted = false) :
    ∃ filled, scan.fill store = .ok filled
      ∧ filled.remaining store.contents = scan.remaining store.contents
      ∧ (filled.buffer = [] → filled.remaining store.contents = []) := by
  have hpage := Store.scan_eq h scan.nextStart scan.upper scan.pageSize
  have positive := scan.pageSize_pos
  generalize hrange : store.contents.range scan.nextStart scan.upper = entries at hpage
  refine ⟨_, by rw [fill, hpage], ?_, ?_⟩
  · simp only [remaining, fetching, hrange, Bool.false_or, Bool.false_eq_true, if_false,
      List.append_assoc, decide_eq_true_eq, List.append_cancel_left_eq]
    split
    · -- a short page is all that there is
      rename_i short
      rw [List.length_take] at short
      rw [List.append_nil, List.take_of_length_le (by omega)]
    · rename_i full
      cases hlast : (entries.take scan.pageSize).getLast? with
      | none =>
        rw [List.getLast?_eq_none_iff.1 hlast] at full
        exact absurd positive full
      | some last =>
        rw [← hrange] at hlast
        rw [store.contents.range_successor hlast, hrange, List.take_append_drop]
  · intro empty
    obtain ⟨no_buffer, no_page⟩ := List.append_eq_nil_iff.1 empty
    simp only [remaining, no_buffer, no_page, List.length_nil, decide_eq_true positive,
      Bool.or_true, if_true, List.append_nil]

/-- What a walk gives next is the first of what is before it. -/
theorem pop_eq {scan : RangeScan} (ready : scan.buffer = [] → scan.remaining store.contents = []) :
    (∃ scan', scan.pop = (none, scan') ∧ scan.remaining store.contents = []) ∨
      ∃ e scan', scan.pop = (some (.ok e), scan')
        ∧ scan.remaining store.contents = e :: scan'.remaining store.contents := by
  cases hbuffer : scan.buffer with
  | nil => exact .inl ⟨scan, by rw [pop, hbuffer], ready hbuffer⟩
  | cons e rest =>
    refine .inr ⟨e, { scan with buffer := rest }, by rw [pop, hbuffer], ?_⟩
    rw [remaining, hbuffer]
    rfl

theorem next_eq (h : store.Reliable) (scan : RangeScan) :
    (∃ scan', scan.next store = (none, scan') ∧ scan.remaining store.contents = []) ∨
      ∃ e scan', scan.next store = (some (.ok e), scan')
        ∧ scan.remaining store.contents = e :: scan'.remaining store.contents := by
  unfold next
  split
  · rename_i idle
    simp only [Bool.and_eq_true, Bool.not_eq_true'] at idle
    obtain ⟨filled, hfill, hremaining, hready⟩ := fill_eq h idle.2
    rw [hfill, ← hremaining]
    exact pop_eq hready
  · rename_i busy
    refine pop_eq fun empty => ?_
    have exhausted : scan.exhausted = true := by simpa [empty] using busy
    rw [remaining, empty, exhausted]
    rfl

/-- A walk on a store that does not change gives what is before it, and ends. -/
theorem items_eq (h : store.Reliable) (scan : RangeScan) :
    scan.items store = (scan.remaining store.contents).map .ok := by
  fun_induction RangeScan.items scan store with
  | case1 scan last hnext =>
    rcases next_eq h scan with ⟨scan', -, hnone⟩ | ⟨e, scan', hsome, -⟩
    · rw [hnone]
      rfl
    · rw [hsome] at hnext
      cases hnext
  | case2 scan item scan' hnext ih =>
    rcases next_eq h scan with ⟨last, hnone, -⟩ | ⟨e, last, hsome, hremaining⟩
    · rw [hnone] at hnext
      cases hnext
    · rw [hsome] at hnext
      cases hnext
      rw [ih, hremaining, List.map_cons]

/-- A walk through a range gives the entries of the range, whatever the size of the pages. -/
theorem items_ofRange (h : store.Reliable) (start : Bytes) (upper : Option Bytes)
    (pageSize : Nat) :
    (ofRange start upper pageSize).items store =
      (store.contents.range start upper).map .ok :=
  items_eq h _

end RangeScan

end Gazette
