import Gazette.Proofs.Bucket.Table

set_option autoImplicit false

/-! # What a deletion leaves in the store

A bucket keeps a record under its own key and under one key for each index that does not leave it
out (`Bucket.KeyOf`). Deleting the record empties these keys and leaves every other key, of this
bucket or of another, as it is (`Bucket.Represents.delete_empties`). A put under an ID that is free
fills the keys of the record, and it leaves every other key but that of the counter as it is
(`Bucket.Represents.get?_put_free`).
-/

namespace Gazette

/-! ## Emptied keys -/

/-- The second contents are the first with nothing under some keys. -/
structure Contents.Emptied (keys : Bytes → Prop) (contents contents' : Contents) : Prop where
  gone : ∀ key, keys key → contents'.get? key = none
  kept : ∀ key, ¬ keys key → contents'.get? key = contents.get? key

namespace Contents.Emptied

variable {keys keys' : Bytes → Prop} {contents mid last : Contents}

theorem refl (contents : Contents) : Emptied (fun _ => False) contents contents where
  gone _ h := h.elim
  kept _ _ := rfl

theorem trans (first : Emptied keys contents mid) (second : Emptied keys' mid last) :
    Emptied (fun key => keys key ∨ keys' key) contents last where
  gone key h := by
    by_cases later : keys' key
    · exact second.gone key later
    · exact (second.kept key later).trans (first.gone key (h.resolve_right later))
  kept key h := by
    rw [not_or] at h
    exact (second.kept key h.2).trans (first.kept key h.1)

theorem congr (h : Emptied keys contents last) (same : ∀ key, keys key ↔ keys' key) :
    Emptied keys' contents last where
  gone key hkey := h.gone key ((same key).2 hkey)
  kept key hkey := h.kept key fun hkeys => hkey ((same key).1 hkeys)

/-- Which keys are emptied settles the contents. -/
theorem unique (h : Emptied keys contents mid) (h' : Emptied keys contents last) : mid = last := by
  refine KeyMap.ext_get? fun key => ?_
  by_cases hkey : keys key
  · exact (h.gone key hkey).trans (h'.gone key hkey).symm
  · exact (h.kept key hkey).trans (h'.kept key hkey).symm

end Contents.Emptied

namespace Bucket

variable {ρ : Type} {bucket : Bucket ρ} {id : RecordId}

/-! ## The keys of a record -/

/-- The key is that of the record with this ID, or of one of its index entries. -/
def KeyOf (bucket : Bucket ρ) (id : RecordId) (record : ρ) (key : Bytes) : Prop :=
  key = bucket.recordKey id ∨ ∃ index ∈ bucket.indexes, ∃ k,
    index.extract record = .ok (some k) ∧ key = bucket.entryKey index k id

/-- The key is one of those of the record that is stored under an ID. -/
def HasKey (bucket : Bucket ρ) (records : RecordId → Option ρ) (id : RecordId) (key : Bytes) :
    Prop :=
  ∃ record, records id = some record ∧ bucket.KeyOf id record key

/-! ## Deletions -/

variable [Record ρ] {store : Store} {records : RecordId → Option ρ}

/-- The batch of a deletion empties the keys of the record. -/
theorem emptied_replacement {contents : Contents} {old : ρ} {changes : List (Index.Change ρ)}
    (hchanges : Index.changes bucket.indexes (some old) none = .ok changes) :
    Contents.Emptied (bucket.KeyOf id old) contents
      (contents.apply (bucket.replacement id none changes)) where
  gone key hkey := by
    rcases hkey with rfl | ⟨index, hindex, k, hk, rfl⟩
    · have removed := get?_of_mem_replacement contents hchanges
        (mem_replacement.2 (.inl (Eq.refl (bucket.recordWrite id none))))
      rwa [key_recordWrite, value_recordWrite] at removed
    · have held : index.keyOf (some old) = .ok (some k) := Index.keyOf_some_eq_ok.2 hk
      exact Represents.get?_oldEntry hchanges hindex held fun hnew => by cases hnew
  kept key hkey := by
    refine Contents.get?_apply_of_untouched _ fun op hop same => hkey ?_
    rcases mem_replacement.1 hop with rfl | hop | hop
    · exact .inl (same.symm.trans key_recordWrite)
    · obtain ⟨change, hchange, k, hk, rfl⟩ := mem_staleEntries.1 hop
      obtain ⟨hindex, hold, -, -⟩ := Index.mem_changesFrom hchanges hchange
      rw [hk] at hold
      exact .inr ⟨change.index, hindex, k, Index.keyOf_some_eq_ok.1 hold, same.symm⟩
    · rw [newEntries_of_delete hchanges] at hop
      cases hop

namespace Represents

/-- Deleting a stored record empties its keys. -/
theorem delete_stored (h : bucket.Represents store.contents records) (hstore : store.Reliable)
    {record : ρ} (hrecord : records id = some record) :
    ∃ after, store.perform (bucket.delete id) = (.ok true, after) ∧ after.Reliable
      ∧ Contents.Emptied (bucket.KeyOf id record) store.contents after.contents := by
  rcases h.planDelete_eq hstore id with ⟨absent, -⟩ | ⟨_, _, -, hplan⟩
  · rw [absent] at hrecord
    cases hrecord
  · obtain ⟨after, hdelete, hcontents, -⟩ := perform_delete hstore.acceptsWrites hplan
    obtain ⟨old, changes, hget, hchanges, hbatch⟩ := planDelete_eq_ok hplan
    obtain rfl : old = record := Option.some.inj ((h.eq_of_get hget).trans hrecord)
    refine ⟨after, hdelete, Store.reliable_of_perform hstore hdelete, ?_⟩
    rw [hcontents, hbatch]
    exact emptied_replacement hchanges

/-- Deleting a record, if it is there, empties its keys. -/
theorem delete_empties (h : bucket.Represents store.contents records) (hstore : store.Reliable)
    (id : RecordId) :
    Contents.Emptied (bucket.HasKey records id) store.contents
      (store.perform (bucket.delete id)).2.contents := by
  cases hrecord : records id with
  | none =>
    rw [h.delete_absent hstore hrecord]
    refine (Contents.Emptied.refl _).congr fun key => iff_of_false not_false ?_
    rintro ⟨record, found, -⟩
    rw [hrecord] at found
    cases found
  | some record =>
    obtain ⟨after, hdelete, -, emptied⟩ := h.delete_stored hstore hrecord
    rw [hdelete]
    refine emptied.congr fun key => ?_
    constructor
    · exact fun hkey => ⟨record, hrecord, hkey⟩
    · rintro ⟨other, found, hkey⟩
      rwa [Option.some.inj (hrecord.symm.trans found)]

/-! ## Insertions -/

/-- A put under an ID that is free has nothing to take away. -/
theorem key_of_mem_planPut (h : bucket.Represents store.contents records) {record : ρ}
    {plan : PutPlan ρ} (hplan : bucket.planPut store record = .ok plan)
    (free : records plan.id = none) {op : Operation} (hop : op ∈ plan.batch) :
    (Record.id record = none ∧ op.key = bucket.counter.key) ∨
      bucket.KeyOf plan.id plan.record op.key := by
  obtain ⟨bump, old, changes, hassign, -, -, hold, hchanges, -, hbatch⟩ := planPut_eq_ok hplan
  obtain rfl : old = none := (h.eq_of_get hold).trans free
  rw [hbatch] at hop
  rcases List.mem_append.1 hop with hop | hop
  · rcases assignId_eq_ok hassign with ⟨-, rfl⟩ | ⟨hnew, last, -, -, -, rfl⟩
    · cases hop
    · rw [List.mem_singleton.1 hop]
      exact .inl ⟨hnew, rfl⟩
  · rcases mem_replacement.1 hop with rfl | hop | hop
    · exact .inr (.inl key_recordWrite)
    · obtain ⟨change, hchange, k, hk, -⟩ := mem_staleEntries.1 hop
      obtain ⟨-, hnone, -, -⟩ := Index.mem_changesFrom hchanges hchange
      rw [hk] at hnone
      cases hnone
    · obtain ⟨change, hchange, k, hk, rfl⟩ := mem_newEntries.1 hop
      obtain ⟨hindex, -, hnew, -⟩ := Index.mem_changesFrom hchanges hchange
      rw [hk] at hnew
      exact .inr (.inr ⟨change.index, hindex, k, Index.keyOf_some_eq_ok.1 hnew, rfl⟩)

/-- A put under an ID that is free touches the keys of the record, and that of the counter if it
has issued the ID. -/
theorem get?_put_free (h : bucket.Represents store.contents records) (hstore : store.Reliable)
    {record : ρ} {answer : RecordId × ρ} {after : Store}
    (hput : store.perform (bucket.put record) = (.ok answer, after))
    (free : records answer.1 = none) {key : Bytes}
    (apart : ¬ bucket.KeyOf answer.1 (Record.identified record answer.1) key)
    (uncounted : Record.id record = none → key ≠ bucket.counter.key) :
    after.contents.get? key = store.contents.get? key := by
  rcases put_cases bucket hstore.acceptsWrites record with
    ⟨error, hrun⟩ | ⟨plan, last, hplan, hrun, hcontents, -⟩
  · rw [hrun] at hput
    cases hput
  · rw [hrun] at hput
    cases hput
    rw [hcontents]
    refine Contents.get?_apply_of_untouched _ fun op hop same => ?_
    rcases h.key_of_mem_planPut hplan free hop with ⟨hnew, counter⟩ | own
    · exact uncounted hnew (same.symm.trans counter)
    · obtain ⟨bump, old, changes, -, hrecord, -⟩ := planPut_eq_ok hplan
      rw [same, hrecord] at own
      exact apart own

end Represents

end Bucket

end Gazette
