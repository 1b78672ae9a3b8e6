import Gazette.Proofs.Bucket.Lookup

set_option autoImplicit false

/-! # Range and prefix queries

A range query gives the records whose key lies in the range, in the order of the keys and, under
one key, of the IDs (`Represents.queryRange_selects`). In a unique index the keys may be of any
widths. In any other the keys must have one width, which no bound exceeds: there the ID follows the
key in an entry, and a longer bound would be compared with the ID.

A prefix query makes no such demand on what it is asked for, so it can come to a record whose key
is too short but whose ID goes on as asked. Apart from these records it is exact
(`Represents.queryPrefix_selects`), and it comes to none in a unique index.

How many entries are fetched at a time plays no part in either.
-/

namespace Gazette

/-- The key is too short to start like `start`, and only the octets of the ID complete it. -/
def RecordId.Completes (id : RecordId) (k start : Bytes) : Prop :=
  k.length < start.length ∧ start <+: k ++ id.bytes

theorem RecordId.Completes.not_prefix {id : RecordId} {k start : Bytes}
    (h : id.Completes k start) : ¬ start <+: k := fun within =>
  absurd within.length_le (Nat.not_le.2 h.1)

namespace IndexScan

/-- A walk that skips nothing gives the IDs of all entries in the range, whatever the size of its
pages. -/
theorem items_ofRange {store : Store} (h : store.Reliable) (start : Bytes) (upper : Option Bytes)
    (pageSize : Nat) :
    items ⟨RangeScan.ofRange start upper pageSize, none⟩ store =
      (store.contents.range start upper).map idOf := by
  rw [items, RangeScan.items_ofRange h, List.filterMap_map]
  exact congrFun List.filterMap_eq_map _

/-- What the entries in the range hold is all that such a walk drains to. -/
theorem eq_of_drains {store : Store} (h : store.Reliable) {start : Bytes} {upper : Option Bytes}
    {pageSize : Nat} {ids ids' : List RecordId}
    (drains : Drains ⟨RangeScan.ofRange start upper pageSize, none⟩ store ids)
    (held : (store.contents.range start upper).mapM idOf = .ok ids') : ids = ids' := by
  have drained := drains.ids_eq
  rw [IndexScan.ids, items_ofRange h, List.mapM_map] at drained
  exact Except.ok.inj (drained.symm.trans held)

end IndexScan

namespace Bucket

variable {ρ : Type} {bucket : Bucket ρ} {index : Index ρ} [Record ρ] {store : Store}
  {records : RecordId → Option ρ} {ids : List RecordId}

/-! ## Selections -/

/-- These are the IDs of the stored records that have a wanted key in the index, each once. -/
structure Selects (bucket : Bucket ρ) (store : Store) (index : Index ρ)
    (wanted : Bytes → RecordId → Prop) (ids : List RecordId) : Prop where
  mem_iff : ∀ id, id ∈ ids ↔ ∃ record k, bucket.get store id = .ok (some record)
    ∧ index.extract record = .ok (some k) ∧ wanted k id
  once : ids.Nodup

namespace Selects

variable {wanted wanted' : Bytes → RecordId → Prop}

/-- A stored record is selected if its key is wanted. -/
theorem mem_iff_wanted (h : bucket.Selects store index wanted ids) {id : RecordId} {record : ρ}
    {k : Bytes} (hget : bucket.get store id = .ok (some record))
    (hk : index.extract record = .ok (some k)) : id ∈ ids ↔ wanted k id := by
  rw [h.mem_iff]
  constructor
  · rintro ⟨other, l, hother, hl, want⟩
    obtain rfl := Option.some.inj (Except.ok.inj (hget.symm.trans hother))
    obtain rfl := Option.some.inj (Except.ok.inj (hk.symm.trans hl))
    exact want
  · exact fun want => ⟨record, k, hget, hk, want⟩

/-- The same IDs are selected for two reasons if these agree on the keys of all stored records. -/
theorem selects_iff (h : bucket.Selects store index wanted ids) :
    bucket.Selects store index wanted' ids ↔ ∀ id record k,
      bucket.get store id = .ok (some record) → index.extract record = .ok (some k) →
        (wanted k id ↔ wanted' k id) := by
  constructor
  · intro h' id record k hget hk
    exact (h.mem_iff_wanted hget hk).symm.trans (h'.mem_iff_wanted hget hk)
  · intro agree
    refine ⟨fun id => (h.mem_iff id).trans ?_, h.once⟩
    refine exists_congr fun record => exists_congr fun k => ?_
    exact and_congr_right fun hget => and_congr_right fun hk => agree id record k hget hk

end Selects

/-- The key of the first record is less than that of the second, or it is the same and the first
ID is less. -/
def KeyBefore (bucket : Bucket ρ) (store : Store) (index : Index ρ) (i j : RecordId) : Prop :=
  ∃ r s k l, bucket.get store i = .ok (some r) ∧ bucket.get store j = .ok (some s)
    ∧ index.extract r = .ok (some k) ∧ index.extract s = .ok (some l) ∧ (k < l ∨ (k = l ∧ i < j))

/-- The keys of all stored records have this width. -/
def HasKeysOfWidth (bucket : Bucket ρ) (store : Store) (index : Index ρ) (width : Nat) : Prop :=
  ∀ id record k, bucket.get store id = .ok (some record) →
    index.extract record = .ok (some k) → k.length = width

/-! ## Some notes -/

/-- Two authors whose names start alike, and two notes on one topic. -/
def gathering : List (Call Note) :=
  [.put ⟨some ⟨1⟩, "ada", 1, 5⟩, .put ⟨some ⟨2⟩, "adam", 255, 6⟩, .put ⟨some ⟨3⟩, "bob", 1, 7⟩]

def gathered : Store := .memory (notes.callAll .memory gathering).contents

namespace Represents

omit [Record ρ] in
theorem not_entryBefore_self (i : RecordId) : ¬ EntryBefore bucket records index i i := by
  rintro ⟨r, s, k, l, hr, hs, hk, hl, less⟩
  obtain rfl := Option.some.inj (hr.symm.trans hs)
  obtain rfl := Option.some.inj (Except.ok.inj (hk.symm.trans hl))
  exact List.lt_irrefl _ less

/-- A walk through a range of an index selects the records whose entries are in the range. -/
theorem exists_selects (h : bucket.Represents store.contents records) (hstore : store.Reliable)
    (hindex : index ∈ bucket.indexes) {start : Bytes} {upper : Option Bytes}
    (hwithin : ∀ key, start ≤ key → (∀ bound, upper = some bound → key < bound) →
      bucket.entryStart index <+: key)
    (wanted : Bytes → RecordId → Prop)
    (hwanted : ∀ id record k, records id = some record → index.extract record = .ok (some k) →
      ((start ≤ bucket.entryKey index k id
        ∧ ∀ bound, upper = some bound → bucket.entryKey index k id < bound) ↔ wanted k id)) :
    ∃ ids, bucket.Selects store index wanted ids
      ∧ ids.Pairwise (EntryBefore bucket records index)
      ∧ ∀ pageSize, IndexScan.Drains ⟨RangeScan.ofRange start upper pageSize, none⟩ store ids := by
  obtain ⟨ids, hitems, hmem, hordered⟩ :=
    h.walk_wanted hstore hindex bucket.pageSize hwithin hwanted
  have mem_iff : ∀ id, id ∈ ids ↔ ∃ record k, bucket.get store id = .ok (some record)
      ∧ index.extract record = .ok (some k) ∧ wanted k id := by
    intro id
    simp only [h.get_eq hstore, Except.ok.injEq]
    exact hmem id
  have once : ids.Nodup := by
    refine hordered.imp fun {i j} less same => ?_
    subst same
    exact not_entryBefore_self _ less
  refine ⟨ids, ⟨mem_iff, once⟩, hordered, fun pageSize => ?_⟩
  refine IndexScan.drains_of_items_eq ?_
  rw [IndexScan.items_ofRange hstore] at hitems ⊢
  exact hitems

/-! ## Prefix queries -/

/-- A prefix query of a declared index gives the records whose key starts as asked and, unless the
index is unique, those whose key is completed by their ID. It is exact just when there is no record
of the second kind. -/
theorem queryPrefix_selects (h : bucket.Represents store.contents records)
    (hstore : store.Reliable) (hindex : index ∈ bucket.indexes) (start : Bytes) :
    ∃ ids,
      (∀ pageSize, ∃ scan, (bucket.withPageSize pageSize).queryPrefix index.name.text start =
          .ok scan ∧ scan.Drains store ids)
      ∧ bucket.Selects store index
          (fun k id => start <+: k ∨ (index.unique = false ∧ id.Completes k start)) ids
      ∧ (bucket.Selects store index (fun k _ => start <+: k) ids ↔
          index.unique = true ∨ ∀ id record k, bucket.get store id = .ok (some record) →
            index.extract record = .ok (some k) → ¬ id.Completes k start) := by
  obtain ⟨ids, selects, -, drains⟩ := h.exists_selects hstore hindex
    (fun _ first last => entryStart_prefix_of_start first last)
    (fun k id => start <+: k ∨ (index.unique = false ∧ id.Completes k start))
    fun id record k _ _ => by
      rw [← Bytes.prefix_iff]
      exact boundKey_prefix_entryKey_iff id
  have queried : ∀ pageSize, (bucket.withPageSize pageSize).queryPrefix index.name.text start =
      .ok ⟨RangeScan.startingWith (bucket.boundKey index start) (max pageSize 1), none⟩ :=
    fun pageSize => bind_eq_ok.2 ⟨index, indexNamed_of_mem hindex, rfl⟩
  refine ⟨ids, fun pageSize => ⟨_, queried pageSize, drains _⟩, selects,
    selects.selects_iff.trans ?_⟩
  constructor
  · intro exact
    refine or_iff_not_imp_left.2 fun shared id record k hget hk completes => ?_
    refine completes.not_prefix ((exact id record k hget hk).1 (.inr ⟨?_, completes⟩))
    exact Bool.eq_false_iff.2 shared
  · rintro exact id record k hget hk
    refine or_iff_left fun ⟨shared, completes⟩ => ?_
    rcases exact with unique | none_completed
    · rw [unique] at shared
      cases shared
    · exact none_completed id record k hget hk completes

/-- An author is found by the start of a name. A topic with a zero octet after it is found too,
though no note has such a topic: the zero is the first octet of the IDs. -/
theorem queryPrefix_selects_gathered :
    (∃ scan, (notes.withPageSize 2).queryPrefix "author" (Utf8.encode "ada") = .ok scan
      ∧ scan.Drains gathered [⟨1⟩, ⟨2⟩])
    ∧ notes.Selects gathered notes.indexes[0] (fun k _ => Utf8.encode "ada" <+: k) [⟨1⟩, ⟨2⟩]
    ∧ (∃ scan, (notes.withPageSize 1).queryPrefix "topic" [1, 0] = .ok scan
      ∧ scan.Drains gathered [⟨1⟩, ⟨3⟩])
    ∧ ¬ notes.Selects gathered notes.indexes[1] (fun k _ => [1, 0] <+: k) [⟨1⟩, ⟨3⟩] := by
  obtain ⟨records, represents⟩ : ∃ records, notes.Represents gathered.contents records :=
    exists_represents_notes notes gathering
  have reliable : gathered.Reliable := Store.reliable_memory _
  have author : notes.indexes[0] ∈ notes.indexes := List.mem_cons_self
  have topic : notes.indexes[1] ∈ notes.indexes := List.mem_cons_of_mem _ List.mem_cons_self
  obtain ⟨byName, named, -, name_exact⟩ :=
    represents.queryPrefix_selects reliable author (Utf8.encode "ada")
  obtain ⟨onTopic, topical, -, topic_exact⟩ :=
    represents.queryPrefix_selects reliable topic [1, 0]
  have byName_eq : byName = [⟨1⟩, ⟨2⟩] := by
    obtain ⟨scan, hquery, drains⟩ := named 2
    obtain rfl := Except.ok.inj hquery
    exact IndexScan.eq_of_drains reliable drains (by decide +kernel)
  have onTopic_eq : onTopic = [⟨1⟩, ⟨3⟩] := by
    obtain ⟨scan, hquery, drains⟩ := topical 1
    obtain rfl := Except.ok.inj hquery
    exact IndexScan.eq_of_drains reliable drains (by decide +kernel)
  subst byName_eq onTopic_eq
  refine ⟨named 2, name_exact.2 (.inl rfl), topical 1, fun exact => ?_⟩
  have first : notes.get gathered ⟨1⟩ = .ok (some ⟨some ⟨1⟩, "ada", 1, 5⟩) := by decide +kernel
  rcases topic_exact.1 exact with unique | none_completed
  · cases unique
  · exact none_completed ⟨1⟩ _ [1] first rfl ⟨by decide, by decide⟩

/-- In an index that is not unique a prefix query can give a record whose key does not start as
asked. -/
theorem not_queryPrefix_exact :
    ¬ ∀ (bucket : Bucket Note) (store : Store) (records : RecordId → Option Note)
      (index : Index Note) (start : Bytes) (pageSize : Nat),
      bucket.Represents store.contents records → store.Reliable → index ∈ bucket.indexes →
      ∃ scan ids, (bucket.withPageSize pageSize).queryPrefix index.name.text start = .ok scan
        ∧ scan.Drains store ids ∧ bucket.Selects store index (fun k _ => start <+: k) ids := by
  intro claimed
  let store : Store := .memory (notes.callAll .memory [.put ⟨some ⟨1⟩, "ada", 1, 5⟩]).contents
  obtain ⟨records, represents⟩ : ∃ records, notes.Represents store.contents records :=
    exists_represents_notes notes _
  have reliable : store.Reliable := Store.reliable_memory _
  obtain ⟨scan, ids, hquery, drains, exact⟩ := claimed notes store records notes.indexes[1]
    [1, 0] 64 represents reliable (List.mem_cons_of_mem _ List.mem_cons_self)
  obtain rfl := Except.ok.inj hquery
  have given : ids = [⟨1⟩] := IndexScan.eq_of_drains reliable drains (by decide +kernel)
  have stored : notes.get store ⟨1⟩ = .ok (some ⟨some ⟨1⟩, "ada", 1, 5⟩) := by decide +kernel
  have starts : [1, 0] <+: [(1 : UInt8)] :=
    (exact.mem_iff_wanted stored rfl).1 (given ▸ List.mem_cons_self)
  exact absurd starts.length_le (by decide)

/-! ## Range queries -/

/-- A range query of a declared index gives the records whose key is in the range, in the order of
the keys and, under one key, of the IDs. The index is unique, or its keys have one width and the
bounds are no longer. -/
theorem queryRange_selects (h : bucket.Represents store.contents records)
    (hstore : store.Reliable) (hindex : index ∈ bucket.indexes) (start : Bytes)
    (upper : Option Bytes)
    (hwidth : index.unique = true ∨ ∃ width, bucket.HasKeysOfWidth store index width
      ∧ start.length ≤ width ∧ ∀ bound, upper = some bound → bound.length ≤ width) :
    ∃ ids,
      (∀ pageSize, ∃ scan, (bucket.withPageSize pageSize).queryRange index.name.text start upper =
          .ok scan ∧ scan.Drains store ids)
      ∧ bucket.Selects store index
          (fun k _ => start ≤ k ∧ ∀ bound, upper = some bound → k < bound) ids
      ∧ ids.Pairwise (bucket.KeyBefore store index)
      ∧ ((∃ bound, upper = some bound ∧ bound ≤ start) → ids = []) := by
  have stored : ∀ {id record}, records id = some record →
      bucket.get store id = .ok (some record) := fun {id record} hrecord => by
    rw [h.get_eq hstore, hrecord]
  have in_range : ∀ id record k, records id = some record →
      index.extract record = .ok (some k) →
      ((bucket.boundKey index start ≤ bucket.entryKey index k id
        ∧ ∀ bound, bucket.rangeBound index upper = some bound →
          bucket.entryKey index k id < bound) ↔
        (start ≤ k ∧ ∀ bound, upper = some bound → k < bound)) := by
    intro id record k hrecord hk
    refine entryKey_in_range_iff ?_ (fun bound hbound => ?_) id
    · refine hwidth.imp_right fun ⟨width, widths, lower_fits, _⟩ => ?_
      rwa [widths id record k (stored hrecord) hk]
    · refine hwidth.imp_right fun ⟨width, widths, _, upper_fits⟩ => ?_
      rw [widths id record k (stored hrecord) hk]
      exact upper_fits bound hbound
  obtain ⟨ids, selects, hordered, drains⟩ := h.exists_selects hstore hindex
    (fun _ => entryStart_prefix_of_range upper) _ in_range
  have keys_fit : index.unique = true ∨ ∃ width, ∀ id record k, records id = some record →
      index.extract record = .ok (some k) → k.length = width :=
    hwidth.imp_right fun ⟨width, widths, _⟩ =>
      ⟨width, fun id record k hrecord => widths id record k (stored hrecord)⟩
  have queried : ∀ pageSize, (bucket.withPageSize pageSize).queryRange index.name.text start upper =
      .ok ⟨RangeScan.ofRange (bucket.boundKey index start) (bucket.rangeBound index upper)
        (max pageSize 1), none⟩ := fun pageSize => by
    have named : (bucket.withPageSize pageSize).indexNamed index.name.text = .ok index :=
      indexNamed_of_mem hindex
    exact queryRange_eq named start upper
  refine ⟨ids, fun pageSize => ⟨_, queried pageSize, drains _⟩, selects, ?_, ?_⟩
  · refine hordered.imp fun {i j} before => ?_
    obtain ⟨r, s, k, l, hr, hs, hk, hl, order⟩ := key_order_of_entryBefore keys_fit before
    exact ⟨r, s, k, l, stored hr, stored hs, hk, hl, order⟩
  · rintro ⟨bound, rfl, crossed⟩
    refine List.eq_nil_iff_forall_not_mem.2 fun id hid => ?_
    obtain ⟨record, k, -, -, first, last⟩ := (selects.mem_iff id).1 hid
    exact List.lt_irrefl _ (Std.lt_of_le_of_lt (Std.le_trans crossed first) (last bound rfl))

/-- The bounds are parts of names, with names between them that go on; or topics, up to the last
one; or they are crossed. -/
theorem queryRange_selects_gathered :
    (∃ scan, (notes.withPageSize 1).queryRange "author" (Utf8.encode "ad")
        (some (Utf8.encode "bo")) = .ok scan ∧ scan.Drains gathered [⟨1⟩, ⟨2⟩])
    ∧ (∃ scan, (notes.withPageSize 2).queryRange "topic" [] none = .ok scan
      ∧ scan.Drains gathered [⟨1⟩, ⟨3⟩, ⟨2⟩])
    ∧ (∃ scan, (notes.withPageSize 2).queryRange "topic" [255] (some [1]) = .ok scan
      ∧ scan.Drains gathered []) := by
  obtain ⟨records, represents⟩ : ∃ records, notes.Represents gathered.contents records :=
    exists_represents_notes notes gathering
  have reliable : gathered.Reliable := Store.reliable_memory _
  have author : notes.indexes[0] ∈ notes.indexes := List.mem_cons_self
  have topic : notes.indexes[1] ∈ notes.indexes := List.mem_cons_of_mem _ List.mem_cons_self
  have topics_fit : notes.HasKeysOfWidth gathered notes.indexes[1] 1 := by
    intro id note k _ hk
    replace hk : Note.topicKey note = .ok (some k) := hk
    unfold Note.topicKey at hk
    split at hk
    · cases hk
    · cases hk
      rfl
  obtain ⟨byName, named, -⟩ := represents.queryRange_selects reliable author
    (Utf8.encode "ad") (some (Utf8.encode "bo")) (.inl rfl)
  obtain ⟨onTopic, topical, -⟩ := represents.queryRange_selects reliable topic [] none
    (.inr ⟨1, topics_fit, by decide, by simp⟩)
  obtain ⟨crossed, none_between, -, -, none_left⟩ :=
    represents.queryRange_selects reliable topic [255] (some [1])
      (.inr ⟨1, topics_fit, by decide, by simp⟩)
  have byName_eq : byName = [⟨1⟩, ⟨2⟩] := by
    obtain ⟨scan, hquery, drains⟩ := named 1
    obtain rfl := Except.ok.inj hquery
    exact IndexScan.eq_of_drains reliable drains (by decide +kernel)
  have onTopic_eq : onTopic = [⟨1⟩, ⟨3⟩, ⟨2⟩] := by
    obtain ⟨scan, hquery, drains⟩ := topical 2
    obtain rfl := Except.ok.inj hquery
    exact IndexScan.eq_of_drains reliable drains (by decide +kernel)
  obtain rfl : crossed = [] := none_left ⟨[1], rfl, by decide⟩
  subst byName_eq onTopic_eq
  exact ⟨named 1, topical 2, none_between 2⟩

end Represents

end Bucket

end Gazette
