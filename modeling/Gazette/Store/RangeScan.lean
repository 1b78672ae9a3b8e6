import Gazette.Store.Basic

set_option autoImplicit false

/-! # Paging through a range of keys

A range scan gives the entries of a key range one at a time and fetches them from the store a
page at a time. Between pages it remembers only where to go on, so it pins nothing in the store,
which may change while the scan is under way. A page that comes back short is the last one. A
failure to fetch is given once and ends the scan.

On a store that does not change the scan ends (`items`): each fetched page moves the place to go
on past a key of the store (`weight_next_lt`).
-/

namespace Gazette

/-! ## Where the entries of a scan come from -/

namespace Store

/-- Every key that the device holds or an overlay touches. -/
def touchedKeys : Store → List Bytes
  | .base device => device.contents.keys
  | .staged below writes => writes.keys ++ below.touchedKeys

end Store

theorem WriteSet.mem_overlay {pending : List (Bytes × Option Bytes)} {page : List Entry}
    {e : Entry} (h : e ∈ WriteSet.overlay page pending) :
    e ∈ page ∨ ∃ p ∈ pending, p.1 = e.1 := by
  induction pending generalizing page with
  | nil => exact .inl h
  | cons p rest ih =>
    rcases ih h with h | ⟨q, hq, same⟩
    · dsimp only at h
      split at h
      · rcases mem_insertEntry h with rfl | h
        · exact .inr ⟨p, List.mem_cons_self, rfl⟩
        · exact .inl h
      · exact .inl (List.mem_filter.1 h).1
    · exact .inr ⟨q, List.mem_cons_of_mem _ hq, same⟩

theorem KeyMap.mem_range {β : Type} {m : KeyMap β} {start : Bytes} {upper : Option Bytes}
    {e : Bytes × β} (h : e ∈ m.range start upper) : start ≤ e.1 ∧ e.1 ∈ m.keys := by
  obtain ⟨mem, inside⟩ := List.mem_filter.1 h
  refine ⟨?_, List.mem_map_of_mem mem⟩
  simp only [KeyMap.inRange, Bool.and_eq_true, decide_eq_true_eq] at inside
  exact inside.1

/-- A scan gives entries from its start on, under keys that the store holds or touches. -/
theorem Store.mem_scan {store : Store} {start : Bytes} {upper : Option Bytes} {limit : Nat}
    {page : List Entry} (h : store.scan start upper limit = .ok page) {e : Entry}
    (he : e ∈ page) : start ≤ e.1 ∧ e.1 ∈ store.touchedKeys := by
  induction store generalizing limit page e with
  | base device =>
    simp only [Store.scan, Device.scan] at h
    split at h
    · cases h
    · injection h with h
      subst h
      exact KeyMap.mem_range (List.mem_of_mem_take he)
  | staged below writes ih =>
    simp only [Store.scan] at h
    split at h
    · injection h with h
      subst h
      cases he
    · split at h
      · cases h
      · rename_i fetched hfetched
        injection h with h
        subst h
        rcases WriteSet.mem_overlay (List.mem_of_mem_take he) with hbelow | ⟨p, hp, same⟩
        · have := ih hfetched hbelow
          exact ⟨this.1, List.mem_append_right _ this.2⟩
        · have := KeyMap.mem_range hp
          rw [same] at this
          exact ⟨this.1, List.mem_append_left _ this.2⟩

/-! ## The scan -/

/-- A size of at least one is positive. -/
theorem max_one_pos (n : Nat) : 0 < max n 1 := by omega

/-- The state of a walk through a key range. -/
structure RangeScan where
  /-- The least key that has not been fetched. -/
  nextStart : Bytes
  upper : Option Bytes
  pageSize : Nat
  pageSize_pos : 0 < pageSize
  /-- Entries that are fetched and not yet given. -/
  buffer : List Entry := []
  /-- Nothing more will be fetched. -/
  exhausted : Bool := false

namespace RangeScan

/-- A walk through the range from `start` up to but not including `upper`. A page holds at least
one entry. -/
def ofRange (start : Bytes) (upper : Option Bytes) (pageSize : Nat) : RangeScan where
  nextStart := start
  upper := upper
  pageSize := max pageSize 1
  pageSize_pos := max_one_pos pageSize

/-- A walk through all keys that start with `start`. -/
def startingWith (start : Bytes) (pageSize : Nat) : RangeScan :=
  ofRange start (Bytes.afterPrefix start) pageSize

/-- Fetch the next page. The scan goes on from the least key after the last one fetched. -/
def fill (scan : RangeScan) (store : Store) : Except StoreError RangeScan :=
  match store.scan scan.nextStart scan.upper scan.pageSize with
  | .error error => .error error
  | .ok page =>
    .ok { scan with
      nextStart := match page.getLast? with
        | some last => Bytes.successor last.1
        | none => scan.nextStart
      buffer := scan.buffer ++ page
      exhausted := scan.exhausted || page.length < scan.pageSize }

/-- Give the first fetched entry. -/
def pop (scan : RangeScan) : Option (Except StoreError Entry) × RangeScan :=
  match scan.buffer with
  | [] => (none, scan)
  | entry :: rest => (some (.ok entry), { scan with buffer := rest })

/-- The next item of the walk, if there is one, and the walk after it. -/
def next (scan : RangeScan) (store : Store) :
    Option (Except StoreError Entry) × RangeScan :=
  if scan.buffer.isEmpty && !scan.exhausted then
    match scan.fill store with
    | .error error => (some (.error error), { scan with exhausted := true })
    | .ok filled => filled.pop
  else scan.pop

/-! ## The walk ends -/

/-- How much a walk has before it: the keys that it may still fetch, then the entries that it
has fetched. -/
def weight (scan : RangeScan) (store : Store) : Nat × Nat :=
  (if scan.exhausted then 0 else 1 + store.touchedKeys.countP (scan.nextStart ≤ ·),
    scan.buffer.length)

/-- The order in which weights decrease. -/
abbrev Lighter : Nat × Nat → Nat × Nat → Prop := Prod.Lex (· < ·) (· < ·)

/-- Going on past a key of a list leaves fewer keys of the list to come. -/
theorem countP_successor_lt {keys : List Bytes} {start key : Bytes} (mem : key ∈ keys)
    (from_start : start ≤ key) :
    keys.countP (Bytes.successor key ≤ ·) < keys.countP (start ≤ ·) := by
  have past : ∀ k : Bytes, Bytes.successor key ≤ k → start ≤ k := fun k hk =>
    Std.le_trans (Std.le_trans from_start (Std.le_of_lt (Bytes.lt_successor key))) hk
  have self : ¬ Bytes.successor key ≤ key := Std.not_le.2 (Bytes.lt_successor key)
  induction keys with
  | nil => cases mem
  | cons k rest ih =>
    rcases List.mem_cons.1 mem with rfl | mem
    · have := List.countP_mono_left (l := rest) (p := (Bytes.successor key ≤ ·))
        (q := (start ≤ ·)) (fun k _ hk => by simpa using past k (by simpa using hk))
      simp only [List.countP_cons, from_start, self, decide_true, decide_false, if_true]
      simp only [Bool.false_eq_true, if_false]
      omega
    · have := ih mem
      have step : (if decide (Bytes.successor key ≤ k) = true then 1 else 0)
          ≤ (if decide (start ≤ k) = true then 1 else 0) := by
        by_cases hk : Bytes.successor key ≤ k
        · simp [hk, past k hk]
        · simp [hk]
      simp only [List.countP_cons]
      omega

theorem weight_pop_lt {scan scan' : RangeScan} {item : Except StoreError Entry} (store : Store)
    (h : scan.pop = (some item, scan')) : Lighter (scan'.weight store) (scan.weight store) := by
  unfold pop at h
  split at h
  · cases h
  · rename_i entry rest hbuffer
    cases h
    exact Prod.Lex.right' _ (by simp) (by simp [hbuffer])

/-- Every item that a walk gives leaves less of the walk before it. -/
theorem weight_next_lt {scan scan' : RangeScan} {store : Store} {item : Except StoreError Entry}
    (h : scan.next store = (some item, scan')) :
    Lighter (scan'.weight store) (scan.weight store) := by
  unfold next at h
  split at h
  · rename_i idle
    simp only [Bool.and_eq_true, List.isEmpty_iff, Bool.not_eq_true'] at idle
    obtain ⟨hbuffer, hexhausted⟩ := idle
    unfold fill at h
    split at h
    · cases h
      refine Prod.Lex.left _ _ ?_
      simp only [hexhausted, if_true, Bool.false_eq_true, if_false]
      omega
    · rename_i filled hfilled
      split at hfilled
      · cases hfilled
      · rename_i page hpage
        injection hfilled with hfilled
        subst hfilled
        unfold pop at h
        split at h
        · cases h
        · rename_i entry rest hrest
          cases h
          simp only [hbuffer, List.nil_append] at hrest
          refine Prod.Lex.left _ _ ?_
          simp only [hexhausted, Bool.false_or, Bool.false_eq_true, if_false]
          split
          · omega
          · obtain ⟨last, hlast⟩ : ∃ last, page.getLast? = some last :=
              Option.isSome_iff_exists.1 (by simp [hrest])
            have := Store.mem_scan hpage (List.mem_of_getLast? hlast)
            have := countP_successor_lt this.2 this.1
            simp only [hlast]
            omega
  · exact weight_pop_lt store h

/-- What the walk gives on a store that does not change. -/
def items (scan : RangeScan) (store : Store) : List (Except StoreError Entry) :=
  match _step : scan.next store with
  | (none, _) => []
  | (some item, scan') => item :: scan'.items store
termination_by scan.weight store
decreasing_by exact weight_next_lt _step

/-- Up to `count` items of the walk, and the walk after them. -/
def take (scan : RangeScan) (store : Store) :
    (count : Nat) → List (Except StoreError Entry) × RangeScan
  | 0 => ([], scan)
  | count + 1 =>
    match scan.next store with
    | (none, scan') => ([], scan')
    | (some item, scan') =>
      let (rest, scan'') := scan'.take store count
      (item :: rest, scan'')

end RangeScan

end Gazette
