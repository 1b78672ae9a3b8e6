import Gazette.Proofs.Bucket.Query
import Gazette.Proofs.Bucket.Table

set_option autoImplicit false

/-! # Queries as lists of records

What a query is for is a list of stored records: all those that are wanted and no others, each
once, in a given order (`Bucket.Lists`). The records under a key come in the order of their IDs
(`Represents.allWith_lists`). How many entries are fetched at a time plays no part in what a
bucket holds (`Holds.withPages`).
-/

namespace Gazette

variable {ρ : Type} [Record ρ]

/-- The first record has the smaller ID. -/
def Record.Earlier (r s : ρ) : Prop :=
  ∃ i j, Record.id r = some i ∧ Record.id s = some j ∧ i < j

theorem Record.not_earlier_self (r : ρ) : ¬ Record.Earlier r r := by
  rintro ⟨i, j, hi, hj, less⟩
  obtain rfl := Option.some.inj (hi.symm.trans hj)
  exact UInt64.lt_irrefl _ less

namespace Bucket

variable {bucket : Bucket ρ} {index : Index ρ} {store : Store} {records : RecordId → Option ρ}

/-- The list has every stored record that is wanted and no other, each once and in order. -/
structure Lists (bucket : Bucket ρ) (store : Store) (wanted : ρ → Prop) (before : ρ → ρ → Prop)
    (found : List ρ) : Prop where
  mem_iff : ∀ record, record ∈ found ↔
    (∃ id, bucket.get store id = .ok (some record)) ∧ wanted record
  once : found.Nodup
  ordered : found.Pairwise before

namespace Represents

/-- The records of some IDs are what is wanted, in order, if the IDs are. -/
theorem lists (h : bucket.Represents store.contents records) (hstore : store.Reliable)
    {found : List ρ} {ids : List RecordId} (hfound : found.map some = ids.map records)
    {wanted : ρ → Prop}
    (hmem : ∀ id, id ∈ ids ↔ ∃ record, records id = some record ∧ wanted record)
    {before : ρ → ρ → Prop} (irreflexive : ∀ r, ¬ before r r)
    (ordered : ids.Pairwise fun i j =>
      ∀ r, records i = some r → ∀ s, records j = some s → before r s) :
    bucket.Lists store wanted before found := by
  have found_eq : found = ids.filterMap records := by
    calc found = (found.map some).filterMap id := by rw [List.filterMap_map]; simp
      _ = (ids.map records).filterMap id := by rw [hfound]
      _ = ids.filterMap records := by rw [List.filterMap_map]; rfl
  have in_order : found.Pairwise before := by
    rw [found_eq, List.pairwise_filterMap]
    exact ordered
  refine ⟨fun record => ?_, in_order.imp fun less same => ?_, in_order⟩
  · rw [found_eq, List.mem_filterMap]
    constructor
    · rintro ⟨id, hid, hrecord⟩
      obtain ⟨r, hr, want⟩ := (hmem id).1 hid
      obtain rfl := Option.some.inj (hrecord.symm.trans hr)
      exact ⟨⟨id, by rw [h.get_eq hstore, hrecord]⟩, want⟩
    · rintro ⟨⟨id, hget⟩, want⟩
      have hrecord := (h.eq_of_get hget).symm
      exact ⟨id, (hmem id).2 ⟨record, hrecord, want⟩, hrecord⟩
  · exact irreflexive _ (same ▸ less)

/-- Records are in the order of the IDs under which they are stored. -/
theorem earlier_of_lt (h : bucket.Represents store.contents records) {i j : RecordId} {r s : ρ}
    (hr : records i = some r) (hs : records j = some s) (less : i < j) : Record.Earlier r s :=
  ⟨i, j, (h.sound i r hr).carries, (h.sound j s hs).carries, less⟩

/-- The records under a key are listed in the order of their IDs. -/
theorem allWith_lists (h : bucket.Represents store.contents records) (hstore : store.Reliable)
    {name : String} (hname : bucket.indexNamed name = .ok index) {key : Bytes}
    {wanted : ρ → Prop} (hwanted : ∀ record, index.extract record = .ok (some key) ↔ wanted record) :
    ∃ found, bucket.allWith store name key = .ok found
      ∧ bucket.Lists store wanted Record.Earlier found := by
  obtain ⟨found, ids, hall, hfound, exact, ascending⟩ := h.allWith_exact hstore hname key
  refine ⟨found, hall, h.lists hstore hfound (fun id => ?_) Record.not_earlier_self ?_⟩
  · simp only [exact, hwanted]
  · exact ascending.imp fun less r hr s hs => h.earlier_of_lt hr hs less

/-- The one record under a key of a unique index is found. -/
theorem oneByUnique_iff (h : bucket.Represents store.contents records) (hstore : store.Reliable)
    {name : String} (hname : bucket.indexNamed name = .ok index) (hunique : index.unique = true)
    {key : Bytes} {wanted : ρ → Prop}
    (hwanted : ∀ record, index.extract record = .ok (some key) ↔ wanted record) :
    ∃ found, bucket.oneByUnique store name key = .ok found
      ∧ ∀ record, found = some record ↔
        (∃ id, bucket.get store id = .ok (some record)) ∧ wanted record := by
  obtain ⟨found, hfound, exact⟩ := h.oneByUnique_exact hstore hname hunique key
  refine ⟨found, hfound, fun record => (exact record).trans ?_⟩
  simp only [h.get_eq hstore, hwanted, Except.ok.injEq, exists_and_right]

/-- The bucket represents the same records, however many entries it fetches at a time. -/
theorem withPages {contents : Contents} (h : bucket.Represents contents records) (pageSize : Nat) :
    Represents { bucket with pageSize } contents records where
  record_iff := h.record_iff
  entry_iff := h.entry_iff
  sound id record hrecord :=
    let sound := h.sound id record hrecord
    ⟨sound.carries, sound.valid, sound.indexed, sound.readable⟩
  distinct := h.distinct

end Represents

theorem Holds.withPages {contents : Contents} {table : Table ρ} (h : bucket.Holds contents table)
    (pageSize : Nat) : Holds { bucket with pageSize } contents table :=
  ⟨h.represents.withPages pageSize, h.issued⟩

end Bucket

end Gazette
