import Gazette.Proofs.Store.Paging

set_option autoImplicit false

/-! # Keys with a common start

The strings that start with `p` are a range of the order: those from `p` up to its bound, if it has
one (`Bytes.prefix_iff`). So there are two ways to list the keys that start with `p`. A walk goes
through the range up to the bound, page by page. A reader of the whole map goes from `p` on and
stops at the first key that does not start with `p`: no key that does comes later
(`KeyMap.keysStartingWith_eq`). The main statement `RangeScan.startingWith_exact` is that both give
exactly these keys.

A walk on a store that refuses a page gives the entries before it and then the failure
(`RangeScan.items_cases`).
-/

namespace Gazette

/-! ## Up to the first that does not belong -/

/-- If nothing that belongs comes after something that does not, the first part of a list that
belongs is all that belongs. -/
theorem takeWhile_eq_filter {α : Type} {p : α → Bool} {xs : List α}
    (h : xs.Pairwise fun a b => p b → p a) : xs.takeWhile p = xs.filter p := by
  induction xs with
  | nil => rfl
  | cons x xs ih =>
    obtain ⟨first, rest⟩ := List.pairwise_cons.1 h
    by_cases hx : p x
    · rw [List.takeWhile_cons_of_pos hx, List.filter_cons_of_pos hx, ih rest]
    · have none_later : (x :: xs).filter p = [] := List.filter_eq_nil_iff.2 fun y hy belongs => by
        rcases List.mem_cons.1 hy with rfl | hy
        · exact hx belongs
        · exact hx (first y hy belongs)
      rw [List.takeWhile_cons_of_neg hx, none_later]

namespace KeyMap

variable {β : Type}

/-- The entries under keys with a common start are a range. -/
theorem mem_range_afterPrefix (m : KeyMap β) (start : Bytes) (e : Bytes × β) :
    e ∈ m.range start (Bytes.afterPrefix start) ↔ m.get? e.1 = some e.2 ∧ start <+: e.1 := by
  rw [mem_range_iff, Bytes.prefix_iff]

theorem keysStartingWith_eq (m : KeyMap β) (start : Bytes) :
    m.keysStartingWith start = (m.range start (Bytes.afterPrefix start)).map (·.1) := by
  -- a key between `start` and one that starts with it is below the bound, and starts with it too
  have closed : (m.range start none).Pairwise fun a b =>
      start.isPrefixOf b.1 → start.isPrefixOf a.1 := by
    refine (m.range_ascending start none).imp_of_mem fun {a b} ha _ less hb => ?_
    have from_start := ((m.mem_range_iff start none a).1 ha).2.1
    rw [List.isPrefixOf_iff_prefix, Bytes.prefix_iff] at hb ⊢
    exact ⟨from_start, fun bound hbound => List.lt_trans less (hb.2 bound hbound)⟩
  have within : (m.range start none).filter (start.isPrefixOf ·.1) =
      m.range start (Bytes.afterPrefix start) := by
    rw [range, range, List.filter_filter]
    refine List.filter_congr fun e _ => Bool.eq_iff_iff.2 ?_
    rw [Bool.and_eq_true, List.isPrefixOf_iff_prefix, Bytes.prefix_iff, inRange_iff, inRange_iff]
    simp only [reduceCtorEq, false_implies, implies_true, and_true]
    exact and_iff_left_of_imp And.left
  calc m.keysStartingWith start
      = ((m.range start none).takeWhile (start.isPrefixOf ·.1)).map (·.1) := by
        rw [keysStartingWith, List.takeWhile_map]
        rfl
    _ = (m.range start (Bytes.afterPrefix start)).map (·.1) := by
        rw [takeWhile_eq_filter closed, within]

end KeyMap

namespace RangeScan

/-! ## Walks that may be refused a page -/

variable {scan scan' : RangeScan} {store : Store}

theorem Over.items_eq (h : scan.Over) : scan.items store = [] := by
  have ended : scan.next store = (none, scan) := by
    rw [next, h.finished, h.empty]
    simp [pop, h.empty]
  exact items_of_end ended

/-- A call takes the first entry of what is before the walk, unless there is none or the store
refuses to give a page, which ends the walk. -/
theorem Step.remaining_cases {item : Option (Except StoreError Entry)}
    (h : Step store scan item scan') :
    (item = none ∧ scan.remaining store.contents = [])
      ∨ (∃ e, item = some (.ok e)
          ∧ scan.remaining store.contents = e :: scan'.remaining store.contents)
      ∨ ∃ error, item = some (.error error) ∧ scan'.Over := by
  cases h with
  | pop buffered =>
    refine .inr (.inl ⟨_, rfl, ?_⟩)
    rw [remaining, buffered]
    rfl
  | drained ended =>
    refine .inl ⟨rfl, ?_⟩
    rw [remaining, ended.empty, ended.finished]
    rfl
  | refused fetches refusal => exact .inr (.inr ⟨_, rfl, ⟨fetches.empty, rfl⟩⟩)
  | dry fetches nothing =>
    refine .inl ⟨rfl, ?_⟩
    simp [remaining, fetches.empty, nothing]
  | @page e last rest fetches fetched hlast =>
    refine .inr (.inl ⟨e, rfl, ?_⟩)
    simp only [remaining, fetches.empty, fetches.unfinished, List.nil_append, Bool.false_eq_true,
      if_false, decide_eq_true_eq]
    show _ = (e :: rest) ++ _
    rw [← fetched] at hlast ⊢
    split
    · -- a short page is all that there is
      rename_i short
      rw [List.length_take] at short
      rw [List.append_nil, List.take_of_length_le (by omega)]
    · rw [store.contents.range_successor hlast, List.take_append_drop]

/-- A walk gives all that is before it, or a first part of this and then, at the end, the failure of
the store to give a page. -/
theorem items_cases (scan : RangeScan) (store : Store) :
    scan.items store = (scan.remaining store.contents).map .ok
      ∨ ∃ given error, given <+: scan.remaining store.contents
          ∧ scan.items store = given.map .ok ++ [.error error] := by
  fun_induction RangeScan.items scan store with
  | case1 scan last hnext =>
    have step := step_next scan store
    rw [hnext] at step
    rcases step.remaining_cases with ⟨-, nothing⟩ | ⟨e, given, -⟩ | ⟨error, refused, -⟩
    · rw [nothing]
      exact .inl rfl
    · cases given
    · cases refused
  | case2 scan item scan' hnext ih =>
    have step := step_next scan store
    rw [hnext] at step
    rcases step.remaining_cases with ⟨given, -⟩ | ⟨e, given, before⟩ | ⟨error, refused, stopped⟩
    · cases given
    · cases given
      rw [before]
      rcases ih with all | ⟨given, error, within, gives⟩
      · exact .inl (by rw [all, List.map_cons])
      · refine .inr ⟨e :: given, error, (List.prefix_cons_inj e).2 within, ?_⟩
        rw [gives, List.map_cons, List.cons_append]
    · cases refused
      refine .inr ⟨[], error, List.nil_prefix, ?_⟩
      rw [stopped.items_eq]
      rfl

/-! ## The keys that start alike -/

/-- A key starts with `start` just if it lies from `start` on and below the bound, if there is one.
So on every store, and for every size of the pages, a walk gives exactly the entries under such
keys, in order, unless the store refuses a page; then it gives the first of them and the failure. A
reliable store refuses none. The list of the keys is the same. -/
theorem startingWith_exact (start : Bytes) :
    (∀ key, start <+: key ↔ start ≤ key ∧ (Bytes.afterPrefix start = none
        ∨ ∃ bound, Bytes.afterPrefix start = some bound ∧ key < bound))
      ∧ ∀ store : Store, ∃ entries,
          Ascending entries
          ∧ (∀ e, e ∈ entries ↔ store.contents.get? e.1 = some e.2 ∧ start <+: e.1)
          ∧ (store.Reliable → ∀ pageSize,
              (startingWith start pageSize).items store = entries.map .ok)
          ∧ (∀ pageSize, (startingWith start pageSize).items store = entries.map .ok
              ∨ ∃ given error, given <+: entries
                ∧ (startingWith start pageSize).items store = given.map .ok ++ [.error error])
          ∧ store.contents.keysStartingWith start = entries.map (·.1) := by
  refine ⟨fun key => ?_, fun store =>
    ⟨store.contents.range start (Bytes.afterPrefix start), store.contents.range_ascending _ _,
      store.contents.mem_range_afterPrefix start, fun reliable pageSize =>
        items_ofRange reliable _ _ _, fun pageSize => items_cases _ _,
      store.contents.keysStartingWith_eq start⟩⟩
  rw [Bytes.prefix_iff]
  refine and_congr_right fun _ => ?_
  cases Bytes.afterPrefix start <;> simp

/-- The keys that start with `61 ff` lie below `62`. Two of them are stored, one of these pending on
an overlay, and both are found whatever the size of the pages. -/
theorem startingWith_exact_pending :
    let below : Contents := [.set [0x61] [], .set [0x61, 0xff] [1], .set [0x62] []].foldl
      Contents.write .empty
    let store : Store := .staged (.memory below) (.record .empty (.set [0x61, 0xff, 0] [2]))
    store.Reliable
      ∧ ([0x61, 0xff] <+: [0x61, 0xff, (0 : UInt8)] ↔
          [0x61, 0xff] ≤ [0x61, 0xff, (0 : UInt8)] ∧ [0x61, 0xff, (0 : UInt8)] < [0x62])
      ∧ ∀ pageSize, ((startingWith [0x61, 0xff] pageSize).items store).map (Except.map (·.1)) =
          [.ok [0x61, 0xff], .ok [0x61, 0xff, 0]] := by
  intro below store
  have reliable : store.Reliable := fun _ => rfl
  obtain ⟨prefix_iff, walks⟩ := startingWith_exact [0x61, 0xff]
  refine ⟨reliable, ?_, fun pageSize => ?_⟩
  · rw [prefix_iff]
    refine and_congr_right fun _ => ?_
    have bound : Bytes.afterPrefix [0x61, 0xff] = some [0x62] := by decide
    simp [bound]
  · obtain ⟨entries, -, -, gives, -, keys⟩ := walks store
    have listed : store.contents.keysStartingWith [0x61, 0xff] = [[0x61, 0xff], [0x61, 0xff, 0]] := by
      decide +kernel
    calc ((startingWith [0x61, 0xff] pageSize).items store).map (Except.map (·.1))
        = (entries.map (·.1)).map .ok := by
          rw [gives reliable, List.map_map, List.map_map]
          rfl
      _ = [.ok [0x61, 0xff], .ok [0x61, 0xff, 0]] := by rw [← keys, listed]; rfl

end RangeScan

end Gazette
