import Gazette.Bucket.IndexScan
import Gazette.Proofs.Bucket.Representation
import Gazette.Proofs.Store.RangeScan

set_option autoImplicit false

/-! # What queries give

A query walks over a range of keys that all belong to entries of one index
(`entryStart_prefix_of_mem_range`). If the contents represent records, each of these entries
holds the ID of a record that calls for it, so no query of a reliable store fails, nor does
loading the records that it gives (`Represents.exists_load`).

Keys of one width stand in the entries in their own order, and records with the same key in the
order of their IDs. Of an index with such keys a range query gives exactly the records whose key
is in the range, in this order (`Represents.queryRange_exact`). A query for one key needs no such
width: the length of an entry tells its key from longer ones (`Represents.query_exact`). Both come
from what a walk through any range of an index gives (`Represents.walk_exact`).
-/

namespace Gazette

/-! ## Walks over entries -/

namespace IndexScan

/-- What a walk gives is its next ID and then what the walk after it gives. -/
theorem items_eq_next (scan : IndexScan) (store : Store) :
    scan.items store = match scan.next store with
      | (none, _) => []
      | (some item, scan') => item :: scan'.items store := by
  fun_induction IndexScan.next scan store with
  | case1 scan entries hnext =>
    rw [items, RangeScan.items_of_end hnext]
    rfl
  | case2 scan error entries hnext =>
    rw [items, RangeScan.items_of_next hnext]
    rfl
  | case3 scan entry entries hnext skipped ih =>
    rw [← ih, items, items, RangeScan.items_of_next hnext, List.filterMap_cons]
    simp only [skipped, if_true]
    rfl
  | case4 scan entry entries hnext taken =>
    rw [items, RangeScan.items_of_next hnext, List.filterMap_cons]
    simp only [taken, if_false, Bool.false_eq_true]
    rfl

/-- The next ID of a walk is the first of those that it gives. -/
theorem next_eq_head? (scan : IndexScan) (store : Store) :
    (scan.next store).1 = (scan.items store).head? := by
  rw [items_eq_next]
  split
  · rename_i ended
    rw [ended]
    rfl
  · rename_i given
    rw [given]
    rfl

/-- Drawing IDs one by one gives the first ones of the walk. -/
theorem take_eq (scan : IndexScan) (store : Store) (count : Nat) :
    (scan.take store count).1 = (scan.items store).take count := by
  induction count generalizing scan with
  | zero => rfl
  | succ count ih =>
    rw [items_eq_next, take]
    rcases scan.next store with ⟨item, scan'⟩
    cases item with
    | none => rfl
    | some item => exact congrArg (item :: ·) (ih scan')

/-- The ID that the value of an entry stands for. -/
def owner (e : Entry) : RecordId := ⟨UInt64.ofNat (Bytes.toNatBE e.2)⟩

theorem owner_eq {e : Entry} {id : RecordId} (h : e.2 = id.bytes) : owner e = id := by
  have read := RecordId.ofBytes_bytes id
  rw [RecordId.ofBytes, if_pos id.length_bytes] at read
  rw [owner, h]
  exact Except.ok.inj read

/-- A walk through entries that hold IDs gives those that it does not skip. -/
theorem items_eq {scan : IndexScan} {store : Store} {entries : List Entry}
    (h : scan.entries.items store = entries.map .ok)
    (hids : ∀ e ∈ entries, ∃ id : RecordId, e.2 = id.bytes) :
    scan.items store = ((entries.filter (!scan.skips ·)).map owner).map .ok := by
  rw [items, h]
  clear h
  induction entries with
  | nil => rfl
  | cons e rest ih =>
    obtain ⟨id, hid⟩ := hids e List.mem_cons_self
    have read : idOf e = .ok (owner e) := by
      rw [idOf, owner_eq hid, hid, RecordId.ofBytes_bytes]
    rw [List.map_cons, List.filterMap_cons, ih fun e he => hids e (List.mem_cons_of_mem _ he)]
    cases hskips : scan.skips e <;> simp [hskips, read]

end IndexScan

namespace Bucket

variable {ρ : Type} {bucket : Bucket ρ} {index : Index ρ}

/-! ## Ranges of one index -/

theorem mem_of_indexNamed {name : String} (h : bucket.indexNamed name = .ok index) :
    index ∈ bucket.indexes := by
  unfold indexNamed at h
  split at h
  · rename_i found
    cases h
    exact List.mem_of_find?_eq_some found
  · cases h

theorem entryStart_prefix_boundKey (bucket : Bucket ρ) (index : Index ρ) (key : Bytes) :
    bucket.entryStart index <+: bucket.boundKey index key :=
  List.prefix_append _ _

/-- Where a range query ends. -/
def rangeBound (bucket : Bucket ρ) (index : Index ρ) : Option Bytes → Option Bytes
  | some key => some (bucket.boundKey index key)
  | none => Bytes.afterPrefix (bucket.entryStart index)

/-- A range query of an index comes to no key of anything else. -/
theorem entryStart_prefix_of_range {start key : Bytes} (upper : Option Bytes)
    (hstart : bucket.boundKey index start ≤ key)
    (hupper : ∀ bound, bucket.rangeBound index upper = some bound → key < bound) :
    bucket.entryStart index <+: key := by
  have first := ((Bytes.prefix_iff _ _).1 (bucket.entryStart_prefix_boundKey index start)).1
  refine (Bytes.prefix_iff _ _).2 ⟨Std.le_trans first hstart, fun bound hbound => ?_⟩
  cases upper with
  | none => exact hupper bound hbound
  | some k =>
    have last := ((Bytes.prefix_iff _ _).1 (bucket.entryStart_prefix_boundKey index k)).2
    exact List.lt_trans (hupper _ rfl) (last bound hbound)

/-- Nor does a walk through all keys that start like an entry. -/
theorem entryStart_prefix_of_start {start key : Bytes}
    (hstart : bucket.boundKey index start ≤ key)
    (hupper : ∀ bound, Bytes.afterPrefix (bucket.boundKey index start) = some bound →
      key < bound) : bucket.entryStart index <+: key :=
  (bucket.entryStart_prefix_boundKey index start).trans
    ((Bytes.prefix_iff _ _).2 ⟨hstart, hupper⟩)

theorem queryRange_eq {name : String} (hname : bucket.indexNamed name = .ok index) (start : Bytes)
    (upper : Option Bytes) :
    bucket.queryRange name start upper =
      .ok ⟨RangeScan.ofRange (bucket.boundKey index start) (bucket.rangeBound index upper)
        bucket.pageSize, none⟩ := by
  rw [queryRange, hname]
  cases upper <;> rfl

variable [Record ρ] {store : Store} {records : RecordId → Option ρ} {scan : IndexScan}

/-- The walk gives no errors, and what it gives are IDs of stored records. -/
def Finds (records : RecordId → Option ρ) (scan : IndexScan) (store : Store) : Prop :=
  ∃ ids : List RecordId, scan.items store = ids.map .ok
    ∧ ∀ id ∈ ids, ∃ record, records id = some record

namespace Represents

section range

variable {start : Bytes} {upper : Option Bytes}

/-- An entry of an index holds the ID of the record that calls for it. -/
theorem exists_hasEntry (h : bucket.Represents store.contents records)
    (hindex : index ∈ bucket.indexes) {e : Entry} (he : e ∈ store.contents.range start upper)
    (hstart : bucket.entryStart index <+: e.1) :
    ∃ id, bucket.HasEntry records index e.1 id ∧ e.2 = id.bytes :=
  (h.entry_iff index hindex e.1 e.2 hstart).1
    ((store.contents.mem_range_iff start upper e).1 he).1

/-- A walk through entries of one index gives the IDs that they hold. -/
theorem items_eq (h : bucket.Represents store.contents records) (hstore : store.Reliable)
    (hindex : index ∈ bucket.indexes) {pageSize : Nat}
    (hscan : scan.entries = RangeScan.ofRange start upper pageSize)
    (hwithin : ∀ e ∈ store.contents.range start upper, bucket.entryStart index <+: e.1) :
    scan.items store =
      (((store.contents.range start upper).filter (!scan.skips ·)).map IndexScan.owner).map .ok := by
  refine IndexScan.items_eq ?_ fun e he => ?_
  · rw [hscan, RangeScan.items_ofRange hstore]
  · obtain ⟨id, -, hid⟩ := h.exists_hasEntry hindex he (hwithin e he)
    exact ⟨id, hid⟩

theorem finds (h : bucket.Represents store.contents records) (hstore : store.Reliable)
    (hindex : index ∈ bucket.indexes) {pageSize : Nat}
    (hscan : scan.entries = RangeScan.ofRange start upper pageSize)
    (hwithin : ∀ e ∈ store.contents.range start upper, bucket.entryStart index <+: e.1) :
    Finds records scan store := by
  refine ⟨_, h.items_eq hstore hindex hscan hwithin, fun id hid => ?_⟩
  obtain ⟨e, he, rfl⟩ := List.mem_map.1 hid
  have he := List.mem_of_mem_filter he
  obtain ⟨id, ⟨record, k, hrecord, -, -⟩, hvalue⟩ := h.exists_hasEntry hindex he (hwithin e he)
  rw [IndexScan.owner_eq hvalue]
  exact ⟨record, hrecord⟩

end range

variable {name : String}

/-! ## The three kinds of queries -/

theorem finds_startingWith (h : bucket.Represents store.contents records)
    (hstore : store.Reliable) (hindex : index ∈ bucket.indexes) {key : Bytes}
    (hscan : scan.entries =
      RangeScan.startingWith (bucket.boundKey index key) bucket.pageSize) :
    Finds records scan store := by
  refine h.finds hstore hindex hscan fun e he => ?_
  have within := ((store.contents.mem_range_iff _ _ e).1 he).2
  exact entryStart_prefix_of_start within.1 within.2

theorem exists_query (h : bucket.Represents store.contents records) (hstore : store.Reliable)
    (hname : bucket.indexNamed name = .ok index) (key : Bytes) :
    ∃ scan, bucket.query name key = .ok scan ∧ Finds records scan store := by
  refine ⟨_, bind_eq_ok.2 ⟨index, hname, rfl⟩, ?_⟩
  exact h.finds_startingWith hstore (mem_of_indexNamed hname) rfl

theorem exists_queryPrefix (h : bucket.Represents store.contents records)
    (hstore : store.Reliable) (hname : bucket.indexNamed name = .ok index) (start : Bytes) :
    ∃ scan, bucket.queryPrefix name start = .ok scan ∧ Finds records scan store := by
  refine ⟨_, bind_eq_ok.2 ⟨index, hname, rfl⟩, ?_⟩
  exact h.finds_startingWith hstore (mem_of_indexNamed hname) rfl

theorem exists_queryRange (h : bucket.Represents store.contents records)
    (hstore : store.Reliable) (hname : bucket.indexNamed name = .ok index) (start : Bytes)
    (upper : Option Bytes) :
    ∃ scan, bucket.queryRange name start upper = .ok scan ∧ Finds records scan store := by
  refine ⟨_, queryRange_eq hname start upper, ?_⟩
  refine h.finds hstore (mem_of_indexNamed hname) rfl fun e he => ?_
  have within := ((store.contents.mem_range_iff _ _ e).1 he).2
  exact entryStart_prefix_of_range upper within.1 within.2

/-! ## Loading -/

/-- Loading gives the records of the IDs, in their order. -/
theorem load_eq (h : bucket.Represents store.contents records) (hstore : store.Reliable)
    {ids : List RecordId} (hitems : scan.items store = ids.map .ok)
    (hstored : ∀ id ∈ ids, ∃ record, records id = some record) :
    ∃ found, bucket.load store scan = .ok found ∧ found.map some = ids.map records := by
  rw [load, hitems]
  clear hitems
  induction ids with
  | nil => exact ⟨[], rfl, rfl⟩
  | cons id rest ih =>
    obtain ⟨record, hrecord⟩ := hstored id List.mem_cons_self
    obtain ⟨found, hrest, hfound⟩ := ih fun i hi => hstored i (List.mem_cons_of_mem _ hi)
    refine ⟨record :: found, ?_, ?_⟩
    · rw [List.map_cons, List.mapM_cons, hrest]
      simp only [bind, Except.bind, h.get_eq hstore, hrecord]
      rfl
    · rw [List.map_cons, List.map_cons, hrecord, hfound]

theorem exists_load (h : bucket.Represents store.contents records) (hstore : store.Reliable)
    (hfinds : Finds records scan store) : ∃ found, bucket.load store scan = .ok found := by
  obtain ⟨ids, hitems, hstored⟩ := hfinds
  obtain ⟨found, hload, -⟩ := h.load_eq hstore hitems hstored
  exact ⟨found, hload⟩

theorem exists_allWith (h : bucket.Represents store.contents records) (hstore : store.Reliable)
    (hname : bucket.indexNamed name = .ok index) (key : Bytes) :
    ∃ found, bucket.allWith store name key = .ok found := by
  obtain ⟨scan, hquery, hfinds⟩ := h.exists_query hstore hname key
  obtain ⟨found, hload⟩ := h.exists_load hstore hfinds
  exact ⟨found, bind_eq_ok.2 ⟨scan, hquery, hload⟩⟩

theorem exists_oneByUnique (h : bucket.Represents store.contents records)
    (hstore : store.Reliable) (hname : bucket.indexNamed name = .ok index) (key : Bytes) :
    ∃ found, bucket.oneByUnique store name key = .ok found := by
  obtain ⟨scan, hquery, ids, hitems, -⟩ := h.exists_query hstore hname key
  have hnext : (scan.next store).1 = (ids.map .ok).head? := by
    rw [scan.next_eq_head?, hitems]
  cases ids with
  | nil =>
    refine ⟨none, bind_eq_ok.2 ⟨scan, hquery, ?_⟩⟩
    simp only [hnext, List.map_nil, List.head?_nil]
  | cons id rest =>
    refine ⟨records id, bind_eq_ok.2 ⟨scan, hquery, ?_⟩⟩
    simp only [hnext, List.map_cons, List.head?_cons]
    exact h.get_eq hstore id

/-! ## Which records a walk comes to -/

/-- The first record has its entry in the index before that of the second. -/
def EntryBefore (bucket : Bucket ρ) (records : RecordId → Option ρ) (index : Index ρ)
    (i j : RecordId) : Prop :=
  ∃ r s k l, records i = some r ∧ records j = some s ∧ index.extract r = .ok (some k)
    ∧ index.extract s = .ok (some l) ∧ bucket.entryKey index k i < bucket.entryKey index l j

/-- A walk through entries of one index gives exactly the records that have an entry in the range
which is not skipped, in the order of their entries. -/
theorem walk_exact (h : bucket.Represents store.contents records) (hstore : store.Reliable)
    (hindex : index ∈ bucket.indexes) (scan : IndexScan) {start : Bytes} {upper : Option Bytes}
    {pageSize : Nat}
    (hscan : scan.entries = RangeScan.ofRange start upper pageSize)
    (hwithin : ∀ key, start ≤ key → (∀ bound, upper = some bound → key < bound) →
      bucket.entryStart index <+: key) :
    ∃ ids : List RecordId, scan.items store = ids.map .ok
      ∧ (∀ id, id ∈ ids ↔ ∃ record k, records id = some record
          ∧ index.extract record = .ok (some k)
          ∧ (start ≤ bucket.entryKey index k id
            ∧ ∀ bound, upper = some bound → bucket.entryKey index k id < bound)
          ∧ ∀ width, scan.exactLength = some width →
            (bucket.entryKey index k id).length = width)
      ∧ ids.Pairwise (EntryBefore bucket records index) := by
  let entries := (store.contents.range start upper).filter (!scan.skips ·)
  have mem_entries : ∀ e, e ∈ entries ↔ store.contents.get? e.1 = some e.2
      ∧ (start ≤ e.1 ∧ ∀ bound, upper = some bound → e.1 < bound)
      ∧ ∀ width, scan.exactLength = some width → e.1.length = width := fun e => by
    rw [List.mem_filter, KeyMap.mem_range_iff, and_assoc]
    refine and_congr_right fun _ => and_congr_right fun _ => ?_
    cases hwidth : scan.exactLength <;> simp [IndexScan.skips, hwidth]
  -- each entry that is not skipped is that of one record
  have called : ∀ e ∈ entries, ∃ record k, records (IndexScan.owner e) = some record
      ∧ index.extract record = .ok (some k)
      ∧ e.1 = bucket.entryKey index k (IndexScan.owner e) := fun e he => by
    obtain ⟨-, ⟨first, last⟩, -⟩ := (mem_entries e).1 he
    obtain ⟨id, ⟨record, k, hrecord, hk, hkey⟩, hvalue⟩ :=
      h.exists_hasEntry hindex (List.mem_of_mem_filter he) (hwithin e.1 first last)
    rw [IndexScan.owner_eq hvalue]
    exact ⟨record, k, hrecord, hk, hkey⟩
  refine ⟨entries.map IndexScan.owner, h.items_eq hstore hindex hscan fun e he => ?_, fun id => ?_,
    ?_⟩
  · have inside := ((store.contents.mem_range_iff _ _ e).1 he).2
    exact hwithin e.1 inside.1 inside.2
  · rw [List.mem_map]
    constructor
    · rintro ⟨e, he, rfl⟩
      obtain ⟨record, k, hrecord, hk, hkey⟩ := called e he
      exact ⟨record, k, hrecord, hk, hkey ▸ ((mem_entries e).1 he).2⟩
    · rintro ⟨record, k, hrecord, hk, inside⟩
      have hentry := (h.entry_iff index hindex (bucket.entryKey index k id) id.bytes
        (bucket.entryStart_prefix_entryKey index k id)).2 ⟨id, ⟨record, k, hrecord, hk, rfl⟩, rfl⟩
      exact ⟨(bucket.entryKey index k id, id.bytes), (mem_entries _).2 ⟨hentry, inside⟩,
        IndexScan.owner_eq rfl⟩
  · rw [List.pairwise_map]
    refine ((store.contents.range_ascending _ _).filter _).imp_of_mem fun {a b} ha hb less => ?_
    obtain ⟨r, k, hr, hk, hkey⟩ := called a ha
    obtain ⟨s, l, hs, hl, hkey'⟩ := called b hb
    rw [hkey, hkey'] at less
    exact ⟨r, s, k, l, hr, hs, hk, hl, less⟩

/-- A walk that skips nothing gives exactly the records that are wanted, if these are the ones
whose entries are in the range. -/
theorem walk_wanted (h : bucket.Represents store.contents records) (hstore : store.Reliable)
    (hindex : index ∈ bucket.indexes) {start : Bytes} {upper : Option Bytes} (pageSize : Nat)
    (hwithin : ∀ key, start ≤ key → (∀ bound, upper = some bound → key < bound) →
      bucket.entryStart index <+: key)
    {wanted : Bytes → RecordId → Prop}
    (hwanted : ∀ id record k, records id = some record → index.extract record = .ok (some k) →
      ((start ≤ bucket.entryKey index k id
        ∧ ∀ bound, upper = some bound → bucket.entryKey index k id < bound) ↔ wanted k id)) :
    ∃ ids : List RecordId,
      IndexScan.items ⟨RangeScan.ofRange start upper pageSize, none⟩ store = ids.map .ok
      ∧ (∀ id, id ∈ ids ↔ ∃ record k, records id = some record
          ∧ index.extract record = .ok (some k) ∧ wanted k id)
      ∧ ids.Pairwise (EntryBefore bucket records index) := by
  obtain ⟨ids, hitems, hmem, hordered⟩ := h.walk_exact hstore hindex
    ⟨RangeScan.ofRange start upper pageSize, none⟩ rfl hwithin
  refine ⟨ids, hitems, fun id => (hmem id).trans ?_, hordered⟩
  refine exists_congr fun record => exists_congr fun k => ?_
  refine and_congr_right fun hrecord => and_congr_right fun hk => ?_
  rw [hwanted id record k hrecord hk]
  -- no entry is skipped for its length
  simp only [reduceCtorEq, false_implies, implies_true, and_true]

/-! ## Exact queries -/

omit [Record ρ] in
/-- The entries that start like one of the key and have its length are those of the key. -/
theorem entryKey_of_key_iff (key k : Bytes) (id : RecordId) :
    (bucket.boundKey index key <+: bucket.entryKey index k id
      ∧ (bucket.entryKey index k id).length = (bucket.entryKey index key id).length) ↔ k = key := by
  constructor
  · rintro ⟨start, lengths⟩
    simp only [entryKey, boundKey, List.length_append, List.append_assoc] at start lengths
    obtain ⟨rest, shape⟩ := start
    rw [List.append_assoc, List.append_cancel_left_eq] at shape
    exact (List.append_inj_left shape (by omega)).symm
  · rintro rfl
    exact ⟨List.prefix_append _ _, rfl⟩

omit [Record ρ] in
/-- The entries of one key are in the order of their IDs. -/
theorem lt_of_entryKey_lt {k : Bytes} {i j : RecordId}
    (h : bucket.entryKey index k i < bucket.entryKey index k j) : i < j := by
  simp only [entryKey, Bytes.append_lt_append_iff] at h
  split at h
  · exact absurd h (List.lt_irrefl _)
  · exact RecordId.bytes_lt_iff.1 h

/-- A query for a key gives exactly the records that have it, in the order of their IDs. -/
theorem query_exact (h : bucket.Represents store.contents records) (hstore : store.Reliable)
    (hname : bucket.indexNamed name = .ok index) (key : Bytes) :
    ∃ (scan : IndexScan) (ids : List RecordId),
      bucket.query name key = .ok scan
      ∧ scan.items store = ids.map .ok
      ∧ (∀ id, id ∈ ids ↔ ∃ record, records id = some record
          ∧ index.extract record = .ok (some key))
      ∧ ids.Pairwise (· < ·) := by
  let bound := bucket.boundKey index key
  let width := if index.unique then bound.length else bound.length + RecordId.width
  let scan : IndexScan := ⟨RangeScan.startingWith bound bucket.pageSize, some width⟩
  have width_eq : ∀ id, (bucket.entryKey index key id).length = width := fun id => by
    simp only [entryKey, List.length_append, width, bound]
    split
    · rfl
    · rw [id.length_bytes]
  obtain ⟨ids, hitems, hmem, hordered⟩ := h.walk_exact hstore (mem_of_indexNamed hname)
    scan rfl fun _ first last => entryStart_prefix_of_start first last
  have exact : ∀ id, id ∈ ids ↔ ∃ record, records id = some record
      ∧ index.extract record = .ok (some key) := fun id => by
    refine (hmem id).trans (exists_congr fun record => ?_)
    simp only [← Bytes.prefix_iff, scan, Option.some.injEq, forall_eq', ← width_eq id,
      bound, entryKey_of_key_iff]
    constructor
    · rintro ⟨k, hrecord, hk, rfl⟩
      exact ⟨hrecord, hk⟩
    · rintro ⟨hrecord, hk⟩
      exact ⟨key, hrecord, hk, rfl⟩
  refine ⟨scan, ids, bind_eq_ok.2 ⟨index, hname, rfl⟩, hitems, exact,
    hordered.imp_of_mem fun {i j} hi hj less => ?_⟩
  -- the two entries are for the same key
  obtain ⟨r, s, k, l, hr, hs, hk, hl, less⟩ := less
  obtain ⟨r', hr', hrkey⟩ := (exact i).1 hi
  obtain ⟨s', hs', hskey⟩ := (exact j).1 hj
  obtain rfl := Option.some.inj (hr.symm.trans hr')
  obtain rfl := Option.some.inj (hs.symm.trans hs')
  obtain rfl := Option.some.inj (Except.ok.inj (hk.symm.trans hrkey))
  obtain rfl := Option.some.inj (Except.ok.inj (hl.symm.trans hskey))
  exact lt_of_entryKey_lt less

/-- All records with a key are loaded, in the order of their IDs. -/
theorem allWith_exact (h : bucket.Represents store.contents records) (hstore : store.Reliable)
    (hname : bucket.indexNamed name = .ok index) (key : Bytes) :
    ∃ (found : List ρ) (ids : List RecordId),
      bucket.allWith store name key = .ok found
      ∧ found.map some = ids.map records
      ∧ (∀ id, id ∈ ids ↔ ∃ record, records id = some record
          ∧ index.extract record = .ok (some key))
      ∧ ids.Pairwise (· < ·) := by
  obtain ⟨scan, ids, hquery, hitems, exact, ascending⟩ := h.query_exact hstore hname key
  have stored : ∀ id ∈ ids, ∃ record, records id = some record := by
    intro id hid
    obtain ⟨record, hrecord, -⟩ := (exact id).1 hid
    exact ⟨record, hrecord⟩
  obtain ⟨found, hload, hfound⟩ := h.load_eq hstore hitems stored
  exact ⟨found, ids, bind_eq_ok.2 ⟨scan, hquery, hload⟩, hfound, exact, ascending⟩

/-- A unique index gives the one record that has the key. -/
theorem oneByUnique_exact (h : bucket.Represents store.contents records)
    (hstore : store.Reliable) (hname : bucket.indexNamed name = .ok index)
    (hunique : index.unique = true) (key : Bytes) :
    ∃ found, bucket.oneByUnique store name key = .ok found
      ∧ ∀ record, found = some record ↔ ∃ id, records id = some record
          ∧ index.extract record = .ok (some key) := by
  obtain ⟨scan, ids, hquery, hitems, exact, -⟩ := h.query_exact hstore hname key
  have hnext : (scan.next store).1 = (ids.map .ok).head? := by
    rw [scan.next_eq_head?, hitems]
  cases ids with
  | nil =>
    refine ⟨none, bind_eq_ok.2 ⟨scan, hquery, ?_⟩, fun record => ?_⟩
    · simp only [hnext, List.map_nil, List.head?_nil]
    · refine iff_of_false (fun none_found => by cases none_found) ?_
      rintro ⟨id, hrecord, hk⟩
      exact absurd ((exact id).2 ⟨record, hrecord, hk⟩) List.not_mem_nil
  | cons id rest =>
    refine ⟨records id, bind_eq_ok.2 ⟨scan, hquery, ?_⟩, fun record => ?_⟩
    · simp only [hnext, List.map_cons, List.head?_cons]
      exact h.get_eq hstore id
    · obtain ⟨first, hfirst, hkey⟩ := (exact id).1 List.mem_cons_self
      constructor
      · intro hrecord
        obtain rfl := Option.some.inj (hfirst.symm.trans hrecord)
        exact ⟨id, hrecord, hkey⟩
      · rintro ⟨i, hrecord, hk⟩
        obtain rfl := h.distinct index (mem_of_indexNamed hname) hunique i id record first key
          hrecord hfirst hk hkey
        exact hrecord

/-! ## Keys and what follows them -/

omit [Record ρ] in
/-- How an entry compares with a bound depends on its key alone, if nothing follows the key or the
bound ends before that. -/
theorem boundKey_le_entryKey_iff {start k : Bytes}
    (fits : index.unique = true ∨ start.length ≤ k.length) (id : RecordId) :
    bucket.boundKey index start ≤ bucket.entryKey index k id ↔ start ≤ k := by
  rw [entryKey, boundKey, boundKey, List.append_assoc, Bytes.append_le_append_iff]
  rcases fits with hunique | hlength
  · rw [if_pos hunique, List.append_nil]
  · exact Bytes.le_append_iff hlength _

omit [Record ρ] in
theorem entryKey_lt_boundKey_iff {upper k : Bytes}
    (fits : index.unique = true ∨ upper.length ≤ k.length) (id : RecordId) :
    bucket.entryKey index k id < bucket.boundKey index upper ↔ k < upper := by
  rw [entryKey, boundKey, boundKey, List.append_assoc, Bytes.append_lt_append_iff]
  rcases fits with hunique | hlength
  · rw [if_pos hunique, List.append_nil]
  · exact Bytes.append_lt_iff hlength _

omit [Record ρ] in
/-- Nor does it matter to a range between such bounds. -/
theorem entryKey_in_range_iff {start k : Bytes} {upper : Option Bytes}
    (hstart : index.unique = true ∨ start.length ≤ k.length)
    (hupper : ∀ bound, upper = some bound → index.unique = true ∨ bound.length ≤ k.length)
    (id : RecordId) :
    (bucket.boundKey index start ≤ bucket.entryKey index k id
      ∧ ∀ bound, bucket.rangeBound index upper = some bound → bucket.entryKey index k id < bound)
      ↔ start ≤ k ∧ ∀ bound, upper = some bound → k < bound := by
  rw [boundKey_le_entryKey_iff hstart]
  refine and_congr_right fun _ => ?_
  cases upper with
  | some bound =>
    simp only [rangeBound, Option.some.injEq, forall_eq',
      entryKey_lt_boundKey_iff (hupper bound rfl)]
  | none =>
    -- no entry of the index lies behind the index
    have within := bucket.entryStart_prefix_entryKey index k id
    simp only [reduceCtorEq, false_implies, implies_true, iff_true]
    exact ((Bytes.prefix_iff _ _).1 within).2

omit [Record ρ] in
/-- An entry starts like a longer string than its key only if the ID goes on like it. -/
theorem boundKey_prefix_entryKey_iff {start k : Bytes} (id : RecordId) :
    bucket.boundKey index start <+: bucket.entryKey index k id ↔ start <+: k
      ∨ (index.unique = false ∧ k.length < start.length ∧ start <+: k ++ id.bytes) := by
  rw [entryKey, boundKey, boundKey, List.append_assoc, List.prefix_append_right_inj]
  cases hunique : index.unique with
  | true => simp
  | false =>
    simp only [Bool.false_eq_true, if_false, true_and]
    constructor
    · intro within
      rcases Nat.lt_or_ge k.length start.length with short | long
      · exact .inr ⟨short, within⟩
      · exact .inl (List.prefix_of_prefix_length_le within (List.prefix_append _ _) long)
    · rintro (within | ⟨-, within⟩)
      · exact within.trans (List.prefix_append _ _)
      · exact within

omit [Record ρ] in
/-- Entries are in the order of their keys and, under one key, of the IDs, if the keys have one
width or nothing follows them. -/
theorem key_order_of_entryKey_lt {k l : Bytes}
    (fits : index.unique = true ∨ k.length = l.length) {i j : RecordId}
    (h : bucket.entryKey index k i < bucket.entryKey index l j) : k < l ∨ (k = l ∧ i < j) := by
  rw [entryKey, entryKey, boundKey, boundKey, List.append_assoc, List.append_assoc,
    Bytes.append_lt_append_iff] at h
  cases hunique : index.unique with
  | true =>
    simp only [hunique, if_true, List.append_nil] at h
    exact .inl h
  | false =>
    have lengths : k.length = l.length := fits.resolve_left (by simp [hunique])
    simp only [hunique, Bool.false_eq_true, if_false] at h
    rwa [Bytes.append_lt_append_iff_of_length_eq lengths, RecordId.bytes_lt_iff] at h

omit [Record ρ] in
theorem key_order_of_entryBefore
    (hwidth : index.unique = true ∨ ∃ width, ∀ id record k, records id = some record →
      index.extract record = .ok (some k) → k.length = width)
    {i j : RecordId} (h : EntryBefore bucket records index i j) :
    ∃ r s k l, records i = some r ∧ records j = some s
      ∧ index.extract r = .ok (some k) ∧ index.extract s = .ok (some l)
      ∧ (k < l ∨ (k = l ∧ i < j)) := by
  obtain ⟨r, s, k, l, hr, hs, hk, hl, less⟩ := h
  have fits : index.unique = true ∨ k.length = l.length := by
    refine hwidth.imp_right fun ⟨width, widths⟩ => ?_
    rw [widths i r k hr hk, widths j s l hs hl]
  exact ⟨r, s, k, l, hr, hs, hk, hl, key_order_of_entryKey_lt fits less⟩

/-! ## Keys of one width -/

section width

variable {width : Nat}

/-- A range query of an index whose keys have one width gives exactly the records with a key in
the range, in the order of the keys and, under one key, of the IDs. -/
theorem queryRange_exact (h : bucket.Represents store.contents records)
    (hstore : store.Reliable) (hname : bucket.indexNamed name = .ok index)
    (hwidth : ∀ record k, index.extract record = .ok (some k) → k.length = width)
    {start upper : Bytes} (hstart : start.length ≤ width) (hupper : upper.length ≤ width) :
    ∃ (scan : IndexScan) (ids : List RecordId),
      bucket.queryRange name start (some upper) = .ok scan
      ∧ scan.items store = ids.map .ok
      ∧ (∀ id, id ∈ ids ↔ ∃ record k, records id = some record
          ∧ index.extract record = .ok (some k) ∧ start ≤ k ∧ k < upper)
      ∧ ids.Pairwise fun i j => ∃ r s k l, records i = some r ∧ records j = some s
          ∧ index.extract r = .ok (some k) ∧ index.extract s = .ok (some l)
          ∧ (k < l ∨ (k = l ∧ i < j)) := by
  have in_range : ∀ id record k, records id = some record →
      index.extract record = .ok (some k) →
      ((bucket.boundKey index start ≤ bucket.entryKey index k id
        ∧ ∀ bound, bucket.rangeBound index (some upper) = some bound →
          bucket.entryKey index k id < bound) ↔ (start ≤ k ∧ k < upper)) := by
    intro id record k _ hk
    have lower_fits : start.length ≤ k.length := hwidth record k hk ▸ hstart
    have upper_fits : upper.length ≤ k.length := hwidth record k hk ▸ hupper
    rw [entryKey_in_range_iff (.inr lower_fits) fun bound hbound => .inr ?_]
    · simp only [Option.some.injEq, forall_eq']
    · rwa [← Option.some.inj hbound]
  obtain ⟨ids, hitems, hmem, hordered⟩ := h.walk_wanted hstore (mem_of_indexNamed hname) _
    (fun _ => entryStart_prefix_of_range (some upper)) in_range
  exact ⟨_, ids, queryRange_eq hname start _, hitems, hmem,
    hordered.imp (key_order_of_entryBefore (.inr ⟨width, fun _ record k _ => hwidth record k⟩))⟩

/-- A prefix query of such an index gives exactly the records whose key starts as asked, in the
same order. -/
theorem queryPrefix_exact (h : bucket.Represents store.contents records)
    (hstore : store.Reliable) (hname : bucket.indexNamed name = .ok index)
    (hwidth : ∀ record k, index.extract record = .ok (some k) → k.length = width)
    {start : Bytes} (hstart : start.length ≤ width) :
    ∃ (scan : IndexScan) (ids : List RecordId),
      bucket.queryPrefix name start = .ok scan
      ∧ scan.items store = ids.map .ok
      ∧ (∀ id, id ∈ ids ↔ ∃ record k, records id = some record
          ∧ index.extract record = .ok (some k) ∧ start <+: k)
      ∧ ids.Pairwise fun i j => ∃ r s k l, records i = some r ∧ records j = some s
          ∧ index.extract r = .ok (some k) ∧ index.extract s = .ok (some l)
          ∧ (k < l ∨ (k = l ∧ i < j)) := by
  have in_range : ∀ id record k, records id = some record →
      index.extract record = .ok (some k) →
      ((bucket.boundKey index start ≤ bucket.entryKey index k id
        ∧ ∀ bound, Bytes.afterPrefix (bucket.boundKey index start) = some bound →
          bucket.entryKey index k id < bound) ↔ start <+: k) := by
    intro id record k _ hk
    have fits : ¬ k.length < start.length := by
      rw [hwidth record k hk]
      omega
    rw [← Bytes.prefix_iff, boundKey_prefix_entryKey_iff]
    simp only [fits, false_and, and_false, or_false]
  obtain ⟨ids, hitems, hmem, hordered⟩ := h.walk_wanted hstore (mem_of_indexNamed hname) _
    (fun _ first last => entryStart_prefix_of_start first last) in_range
  exact ⟨_, ids, bind_eq_ok.2 ⟨index, hname, rfl⟩, hitems, hmem,
    hordered.imp (key_order_of_entryBefore (.inr ⟨width, fun _ record k _ => hwidth record k⟩))⟩

end width

end Represents

end Bucket

end Gazette
