import Gazette.Proofs.Bucket.History
import Gazette.Proofs.Bucket.Listing

set_option autoImplicit false

/-! # Lookups

Looking up a key in a declared index gives the IDs of the records that have the key, in ascending
order and each once, however long the keys are and however many entries a page holds. A lookup
fails only if there is no index of that name (`Represents.lookup_exact`).

Entries of several keys can lie between the bounds of a lookup: the entry of a longer key starts
like that of a shorter one, and what follows may look like an ID. Only the length of an entry says
which of the two it is.
-/

namespace Gazette

/-! ## Drained walks -/

namespace IndexScan

/-- Until it ends, the walk gives these IDs, whether they are drawn at once or one by one. -/
structure Drains (scan : IndexScan) (store : Store) (ids : List RecordId) : Prop where
  ids_eq : scan.ids store = .ok ids
  take_eq : ∀ count, (scan.take store count).1 = (ids.take count).map .ok

theorem drains_of_items_eq {scan : IndexScan} {store : Store} {ids : List RecordId}
    (h : scan.items store = ids.map .ok) : scan.Drains store ids where
  ids_eq := by
    rw [IndexScan.ids, h, mapM_map_ok]
  take_eq count := by
    rw [IndexScan.take_eq, h, List.map_take]

end IndexScan

namespace Bucket

variable {ρ : Type} {bucket : Bucket ρ} {index : Index ρ} {name : String}

/-! ## Names of indexes -/

/-- A declared index is known by its name, for no other one has it. -/
theorem indexNamed_of_mem (hindex : index ∈ bucket.indexes) :
    bucket.indexNamed index.name.text = .ok index := by
  have known : ∃ found, bucket.indexes.find? (·.name.text = index.name.text) = some found :=
    Option.isSome_iff_exists.1 (List.find?_isSome.2 ⟨index, hindex, by simp⟩)
  obtain ⟨found, hfound⟩ := known
  have texts : found.name.text = index.name.text := by simpa using List.find?_some hfound
  have names : found.name = index.name := Name.bytes_injective (congrArg Utf8.encode texts)
  have same : found = index := List.inj_on_of_nodup_map bucket.distinct
    (List.mem_of_find?_eq_some hfound) hindex names
  rw [indexNamed, hfound, same]

theorem indexNamed_eq_error {error : StoreError} :
    bucket.indexNamed name = .error error ↔ error = .unknownIndex bucket.name.text name
      ∧ ∀ index ∈ bucket.indexes, index.name.text ≠ name := by
  cases hfound : bucket.indexes.find? (·.name.text = name) with
  | none =>
    have unknown : ∀ index ∈ bucket.indexes, index.name.text ≠ name := by
      simpa using List.find?_eq_none.1 hfound
    simp only [indexNamed, hfound, Except.error.injEq, and_iff_left unknown]
    exact eq_comm
  | some index =>
    have known : index.name.text = name := by simpa using List.find?_some hfound
    have declared := List.mem_of_find?_eq_some hfound
    simp only [indexNamed, hfound, reduceCtorEq, false_iff]
    exact fun unknown => unknown.2 index declared known

/-- A query fails only if there is no index of this name. -/
theorem query_eq_error {key : Bytes} {error : StoreError} :
    bucket.query name key = .error error ↔ error = .unknownIndex bucket.name.text name
      ∧ ∀ index ∈ bucket.indexes, index.name.text ≠ name := by
  rw [query, bind_eq_error, indexNamed_eq_error]
  simp

/-! ## What a lookup gives -/

variable [Record ρ] {store : Store} {records : RecordId → Option ρ} {ids : List RecordId}

/-- These are the IDs of the stored records that have this key in the index, each once and in
ascending order. -/
structure Under (bucket : Bucket ρ) (store : Store) (index : Index ρ) (key : Bytes)
    (ids : List RecordId) : Prop where
  mem_iff : ∀ id, id ∈ ids ↔ ∃ record, bucket.get store id = .ok (some record)
    ∧ index.extract record = .ok (some key)
  ascending : ids.Pairwise (· < ·)
  once : ids.Nodup

/-- There is only one such list. -/
theorem Under.unique {key : Bytes} {ids' : List RecordId} (h : bucket.Under store index key ids)
    (h' : bucket.Under store index key ids') : ids = ids' := by
  have perm : ids.Perm ids' := (List.perm_ext_iff_of_nodup h.once h'.once).2 fun id =>
    (h.mem_iff id).trans (h'.mem_iff id).symm
  refine perm.eq_of_pairwise (fun i j _ _ less greater => ?_) h.ascending h'.ascending
  exact absurd greater (UInt64.lt_asymm less)

namespace Represents

/-- A query for a key of a declared index drains to the IDs of the records that have it. -/
theorem exists_drains (h : bucket.Represents store.contents records) (hstore : store.Reliable)
    (hindex : index ∈ bucket.indexes) (key : Bytes) :
    ∃ scan ids, bucket.query index.name.text key = .ok scan ∧ scan.Drains store ids
      ∧ bucket.Under store index key ids := by
  obtain ⟨scan, ids, hquery, hitems, exact, ascending⟩ :=
    h.query_exact hstore (indexNamed_of_mem hindex) key
  have mem_iff : ∀ id, id ∈ ids ↔ ∃ record, bucket.get store id = .ok (some record)
      ∧ index.extract record = .ok (some key) := by
    intro id
    rw [exact, h.get_eq hstore]
    simp only [Except.ok.injEq]
  have once : ids.Nodup := by
    refine ascending.imp fun {i j} less same => ?_
    subst same
    exact UInt64.lt_irrefl _ less
  exact ⟨scan, ids, hquery, IndexScan.drains_of_items_eq hitems, mem_iff, ascending, once⟩

/-- A lookup of a key in a declared index gives the IDs of the records that have it, in ascending
order and each once, with pages of any size. It fails for an index that is not declared, and only
then. In a unique index there is one record with the key, or none, and it is found. -/
theorem lookup_exact (h : bucket.Represents store.contents records) (hstore : store.Reliable)
    (key : Bytes) :
    (∀ index ∈ bucket.indexes, ∃ ids, bucket.Under store index key ids
      ∧ ∀ pageSize, ∃ scan, (bucket.withPageSize pageSize).query index.name.text key = .ok scan
          ∧ scan.Drains store ids)
    ∧ (∀ pageSize name error, (bucket.withPageSize pageSize).query name key = .error error ↔
        error = .unknownIndex bucket.name.text name
          ∧ ∀ index ∈ bucket.indexes, index.name.text ≠ name)
    ∧ ∀ index ∈ bucket.indexes, index.unique = true → ∃ found,
        (∀ pageSize, (bucket.withPageSize pageSize).oneByUnique store index.name.text key =
          .ok found)
        ∧ ∀ record, found = some record ↔
            (∃ id, bucket.get store id = .ok (some record))
              ∧ index.extract record = .ok (some key) := by
  have paged : ∀ pageSize, (bucket.withPageSize pageSize).Represents store.contents records :=
    fun pageSize => h.withPages (max pageSize 1)
  refine ⟨fun index hindex => ?_, fun pageSize name error => query_eq_error,
    fun index hindex hunique => ?_⟩
  · obtain ⟨-, ids, -, -, under⟩ := h.exists_drains hstore hindex key
    refine ⟨ids, under, fun pageSize => ?_⟩
    obtain ⟨scan, ids', hquery, drains, under'⟩ :=
      (paged pageSize).exists_drains hstore hindex key
    -- a page size decides neither what is stored nor which keys it has
    have of_paged : bucket.Under store index key ids' :=
      ⟨under'.mem_iff, under'.ascending, under'.once⟩
    exact ⟨scan, hquery, under.unique of_paged ▸ drains⟩
  · have hwanted : ∀ record, index.extract record = .ok (some key) ↔
        index.extract record = .ok (some key) := fun _ => Iff.rfl
    obtain ⟨found, -, exact⟩ :=
      h.oneByUnique_iff hstore (indexNamed_of_mem hindex) hunique hwanted
    refine ⟨found, fun pageSize => ?_, exact⟩
    obtain ⟨found', hfound, exact'⟩ := (paged pageSize).oneByUnique_iff hstore
      (indexNamed_of_mem hindex) hunique hwanted
    have same : found' = found := Option.ext fun record => (exact' record).trans (exact record).symm
    rw [hfound, same]

end Represents

/-! ## Keys that look like each other -/

/-- Notes by author, any number for each, and by topic, one for each. -/
def shelf : Bucket Note where
  name := { text := "shelf" }
  indexes :=
    [{ name := { text := "byline" }, unique := false, extract := Note.authorKey },
     { name := { text := "place" }, unique := true, extract := Note.topicKey }]

/-- The name of the second author reads like the entry of the third note: the octets of its ID are
those of the last eight digits. -/
def shelving : List (Call Note) :=
  [.put ⟨some ⟨7⟩, "a", 1, 5⟩, .put ⟨some ⟨5⟩, "a00000001", 2, 6⟩,
   .put ⟨some ⟨0x3030303030303031⟩, "a", 3, 7⟩]

def shelved : Store := .memory (shelf.callAll .memory shelving).contents

/-- The longer name is passed over, for pages of one entry, and the two notes are found. -/
theorem Represents.lookup_exact_shelved :
    (∃ scan, (shelf.withPageSize 1).query "byline" (Utf8.encode "a") = .ok scan
      ∧ scan.Drains shelved [⟨7⟩, ⟨0x3030303030303031⟩])
    ∧ (shelf.withPageSize 2).query "title" [] = .error (.unknownIndex "shelf" "title")
    ∧ (shelf.withPageSize 0).oneByUnique shelved "place" [2] =
        .ok (some ⟨some ⟨5⟩, "a00000001", 2, 6⟩) := by
  obtain ⟨records, represents⟩ := exists_represents_notes shelf shelving
  have reliable : shelved.Reliable := Store.reliable_memory _
  obtain ⟨drained, -, -⟩ := represents.lookup_exact reliable (Utf8.encode "a")
  obtain ⟨-, refused, -⟩ := represents.lookup_exact reliable []
  obtain ⟨-, -, single⟩ := represents.lookup_exact reliable [2]
  refine ⟨?_, (refused 2 "title" _).2 ⟨rfl, by decide⟩, ?_⟩
  · obtain ⟨ids, -, paged⟩ := drained shelf.indexes[0] List.mem_cons_self
    obtain ⟨scan, hquery, drains⟩ := paged 1
    let start := shelf.boundKey shelf.indexes[0] (Utf8.encode "a")
    have made : (shelf.withPageSize 1).query "byline" (Utf8.encode "a") =
        .ok ⟨RangeScan.startingWith start 1, some (start.length + RecordId.width)⟩ := rfl
    obtain rfl := Except.ok.inj (hquery.symm.trans made)
    have hids : IndexScan.ids ⟨RangeScan.startingWith start 1,
        some (start.length + RecordId.width)⟩ shelved = .ok [⟨7⟩, ⟨0x3030303030303031⟩] := by
      rw [IndexScan.ids, IndexScan.items, RangeScan.startingWith, RangeScan.items_ofRange reliable]
      decide +kernel
    obtain rfl : ids = [⟨7⟩, ⟨0x3030303030303031⟩] :=
      Except.ok.inj (drains.ids_eq.symm.trans hids)
    exact ⟨_, hquery, drains⟩
  · obtain ⟨found, hfound, exact⟩ := single shelf.indexes[1] (by simp [shelf]) rfl
    have second : shelf.get shelved ⟨5⟩ = .ok (some ⟨some ⟨5⟩, "a00000001", 2, 6⟩) := by
      decide +kernel
    have same : found = some ⟨some ⟨5⟩, "a00000001", 2, 6⟩ := (exact _).2 ⟨⟨⟨5⟩, second⟩, rfl⟩
    rw [← same]
    exact hfound 0

end Bucket

end Gazette
