import Gazette.Proofs.Bucket.Changes
import Gazette.Proofs.Bucket.Layout
import Gazette.Proofs.Store.Reliable
import Mathlib.Logic.Function.Basic

set_option autoImplicit false

/-! # What a bucket keeps in the store

Contents *represent* a collection of records if the record keys and the entry keys of the
declared indexes hold what the records call for and nothing else: the bytes of each record under
its key, and its ID under each of its index keys (`Bucket.Represents`). Everything else is a
consequence of what the records are. So two collections in two stores are the same bytes if they
are the same records (`Represents.eq_of_records`).

The records are *sound*: each carries its ID, is valid, is refused by no index, and can be read
back from its bytes.
-/

namespace Gazette

variable {ρ : Type} [Record ρ]

/-- What a type of records owes its buckets: a record that is given an ID carries it. -/
class LawfulRecord (ρ : Type) [Record ρ] : Prop where
  id_withId : ∀ (record : ρ) (id : RecordId), Record.id (Record.withId record id) = some id

/-- As it is stored under an ID, the record carries the ID, unless it has come with another one. -/
theorem Record.id_identified [LawfulRecord ρ] {record : ρ} {id : RecordId}
    (h : ∀ own, Record.id record = some own → own = id) :
    Record.id (Record.identified record id) = some id := by
  cases hid : Record.id record with
  | none => rw [identified_new hid, LawfulRecord.id_withId]
  | some own => rw [identified_own hid, hid, h own hid]

/-- The record can be read back from its bytes. -/
def Record.Readable (record : ρ) : Prop :=
  (Record.codec : Codec ρ).read (Record.codec.encode record) = .ok record

/-- As it is stored under any ID, the record can be read back if it is valid. -/
def Record.Storable (record : ρ) : Prop :=
  ∀ id, Record.validate (Record.identified record id) = .ok () →
    Record.Readable (Record.identified record id)

namespace Bucket

variable {bucket : Bucket ρ} {contents contents' : Contents} {records : RecordId → Option ρ}

/-- The record can stand in the bucket under this ID. -/
structure Sound (bucket : Bucket ρ) (id : RecordId) (record : ρ) : Prop where
  carries : Record.id record = some id
  valid : Record.validate record = .ok ()
  indexed : ∀ index ∈ bucket.indexes, ∃ key, index.extract record = .ok key
  readable : Record.Readable record

/-- The record with this ID calls for an entry under `key`. -/
def HasEntry (bucket : Bucket ρ) (records : RecordId → Option ρ) (index : Index ρ) (key : Bytes)
    (id : RecordId) : Prop :=
  ∃ record k, records id = some record ∧ index.extract record = .ok (some k)
    ∧ key = bucket.entryKey index k id

/-- No two records have the same key in a unique index. -/
def DistinctKeys (bucket : Bucket ρ) (records : RecordId → Option ρ) : Prop :=
  ∀ index ∈ bucket.indexes, index.unique = true → ∀ i j r s k,
    records i = some r → records j = some s →
    index.extract r = .ok (some k) → index.extract s = .ok (some k) → i = j

/-- The contents hold the records with this bucket's index entries, and nothing else under the
keys of records and entries. -/
structure Represents (bucket : Bucket ρ) (contents : Contents) (records : RecordId → Option ρ) :
    Prop where
  record_iff : ∀ key value, bucket.recordStart <+: key →
    (contents.get? key = some value ↔ ∃ id record, records id = some record
      ∧ key = bucket.recordKey id ∧ value = Record.codec.encode record)
  entry_iff : ∀ index ∈ bucket.indexes, ∀ key value, bucket.entryStart index <+: key →
    (contents.get? key = some value ↔
      ∃ id, bucket.HasEntry records index key id ∧ value = id.bytes)
  sound : ∀ id record, records id = some record → bucket.Sound id record
  distinct : bucket.DistinctKeys records

/-- The keys of the bucket's records and of the entries of its declared indexes. -/
def Covers (bucket : Bucket ρ) (key : Bytes) : Prop :=
  bucket.recordStart <+: key ∨ ∃ index ∈ bucket.indexes, bucket.entryStart index <+: key

omit [Record ρ] in
theorem Covers.owns {key : Bytes} (h : bucket.Covers key) : bucket.name.Owns key := by
  rcases h with h | ⟨index, -, h⟩
  · exact bucket.owns_of_recordStart h
  · exact bucket.owns_of_entryStart h

omit [Record ρ] in
theorem not_covers_counterKey : ¬ bucket.Covers bucket.counter.key := by
  rintro (h | ⟨index, -, h⟩)
  · exact bucket.not_recordStart_prefix_counterKey h
  · exact bucket.not_entryStart_prefix_counterKey index _ h

/-! ## Reading bytes -/

theorem decode_encode {id : RecordId} {record : ρ} (carries : Record.id record = some id)
    (readable : Record.Readable record) (key : Bytes) :
    Bucket.decode key (Record.codec.encode record) id = .ok record := by
  have hread : (Record.codec : Codec ρ).read (Record.codec.encode record) = .ok record := readable
  simp only [Bucket.decode, hread, carries, if_true]

theorem get_of_encoded {store : Store} (reliable : store.Reliable) {id : RecordId} {record : ρ}
    (encoded : store.contents.get? (bucket.recordKey id) = some (Record.codec.encode record))
    (carries : Record.id record = some id) (readable : Record.Readable record) :
    bucket.get store id = .ok (some record) := by
  rw [Bucket.get, Store.get_eq reliable, encoded]
  show some <$> Bucket.decode _ _ id = _
  rw [decode_encode carries readable]
  rfl

/-- What is read under an ID depends on the bytes under its key alone. -/
theorem get_congr {store store' : Store} (reliable : store.Reliable) (reliable' : store'.Reliable)
    {id : RecordId} (same : store'.contents.get? (bucket.recordKey id) =
      store.contents.get? (bucket.recordKey id)) :
    bucket.get store' id = bucket.get store id := by
  rw [Bucket.get, Bucket.get, Store.get_eq reliable, Store.get_eq reliable', same]

/-! ## Consequences -/

theorem represents_nothing (h : ∀ key, bucket.Covers key → contents.get? key = none) :
    bucket.Represents contents fun _ => none where
  record_iff key value hkey := by
    rw [h key (.inl hkey)]
    simp
  entry_iff index hindex key value hkey := by
    rw [h key (.inr ⟨index, hindex, hkey⟩)]
    simp [HasEntry]
  sound id record hrecord := by cases hrecord
  distinct index hindex hunique i j r s k hr := by cases hr

omit [Record ρ] in
theorem hasEntry_iff {index : Index ρ} {key : Bytes} {id : RecordId} :
    bucket.HasEntry records index key id ↔
      ∃ k, index.keyOf (records id) = .ok (some k) ∧ key = bucket.entryKey index k id := by
  constructor
  · rintro ⟨record, k, hrecord, hk, hkey⟩
    exact ⟨k, by rw [hrecord]; exact Index.keyOf_some_eq_ok.2 hk, hkey⟩
  · rintro ⟨k, hk, hkey⟩
    cases hrecord : records id with
    | none =>
      rw [hrecord] at hk
      cases hk
    | some record =>
      rw [hrecord] at hk
      exact ⟨record, k, hrecord, Index.keyOf_some_eq_ok.1 hk, hkey⟩

omit [Record ρ] in
/-- An entry belongs to one record. -/
theorem hasEntry_unique (h : bucket.DistinctKeys records) {index : Index ρ}
    (hindex : index ∈ bucket.indexes) {key : Bytes} {i j : RecordId}
    (hi : bucket.HasEntry records index key i) (hj : bucket.HasEntry records index key j) :
    i = j := by
  obtain ⟨r, k, hr, hrk, rfl⟩ := hi
  obtain ⟨s, k', hs, hsk, hkey⟩ := hj
  obtain ⟨rfl, hshared⟩ := bucket.entryKey_inj hkey
  -- the key of an entry that is not unique ends with the ID
  by_cases hunique : index.unique = true
  · exact h index hindex hunique i j r s k hr hs hrk hsk
  · exact hshared (by simpa using hunique)

namespace Represents

theorem get?_recordKey (h : bucket.Represents contents records) (id : RecordId) :
    contents.get? (bucket.recordKey id) = (records id).map Record.codec.encode := by
  have hiff := fun value => h.record_iff _ value (bucket.recordStart_prefix_recordKey id)
  cases hrecord : records id with
  | none =>
    rw [Option.map_none, Option.eq_none_iff_forall_ne_some]
    intro value hvalue
    obtain ⟨i, record, hi, hkey, -⟩ := (hiff value).1 hvalue
    rw [← bucket.recordKey_injective hkey, hrecord] at hi
    cases hi
  | some record => exact (hiff _).2 ⟨id, record, hrecord, rfl, rfl⟩

/-- Only the covered keys matter. -/
theorem congr (h : bucket.Represents contents records)
    (hsame : ∀ key, bucket.Covers key → contents'.get? key = contents.get? key) :
    bucket.Represents contents' records where
  record_iff key value hkey := by
    rw [hsame key (.inl hkey)]
    exact h.record_iff key value hkey
  entry_iff index hindex key value hkey := by
    rw [hsame key (.inr ⟨index, hindex, hkey⟩)]
    exact h.entry_iff index hindex key value hkey
  sound := h.sound
  distinct := h.distinct

/-- The records settle every covered key. -/
theorem eq_of_records (h : bucket.Represents contents records)
    (h' : bucket.Represents contents' records) {key : Bytes} (hkey : bucket.Covers key) :
    contents'.get? key = contents.get? key := by
  refine Option.ext fun value => ?_
  rcases hkey with hkey | ⟨index, hindex, hkey⟩
  · exact (h'.record_iff key value hkey).trans (h.record_iff key value hkey).symm
  · exact (h'.entry_iff index hindex key value hkey).trans
      (h.entry_iff index hindex key value hkey).symm

/-! ## Reading -/

/-- What is read from any store under an ID is the record, if the store does not refuse. -/
theorem eq_of_get {store : Store} (h : bucket.Represents store.contents records) {id : RecordId}
    {found : Option ρ} (hget : bucket.get store id = .ok found) : found = records id := by
  obtain ⟨raw, hraw, hfound⟩ := bind_eq_ok.1 hget
  have hcontents := Store.get?_of_get hraw
  rw [h.get?_recordKey] at hcontents
  cases hrecord : records id with
  | none =>
    rw [hrecord] at hcontents
    subst hcontents
    exact (Except.ok.inj hfound).symm
  | some record =>
    rw [hrecord] at hcontents
    subst hcontents
    simp only [Option.map_some] at hfound
    have sound := h.sound id record hrecord
    rw [decode_encode sound.carries sound.readable] at hfound
    exact (Except.ok.inj hfound).symm

theorem get_eq {store : Store} (reliable : store.Reliable)
    (h : bucket.Represents store.contents records) (id : RecordId) :
    bucket.get store id = .ok (records id) := by
  have encoded := h.get?_recordKey id
  cases hrecord : records id with
  | none =>
    rw [hrecord, Option.map_none] at encoded
    rw [Bucket.get, Store.get_eq reliable, encoded]
    rfl
  | some record =>
    rw [hrecord, Option.map_some] at encoded
    have sound := h.sound id record hrecord
    exact get_of_encoded reliable encoded sound.carries sound.readable

end Represents

/-- The records that a reader finds in the contents. -/
def stored (bucket : Bucket ρ) (contents : Contents) (id : RecordId) : Option ρ :=
  (bucket.get (.memory contents) id).toOption.join

theorem Represents.stored_eq (h : bucket.Represents contents records) :
    bucket.stored contents = records := by
  funext id
  rw [stored, get_eq (Store.reliable_memory contents) h]
  rfl

end Bucket

end Gazette
