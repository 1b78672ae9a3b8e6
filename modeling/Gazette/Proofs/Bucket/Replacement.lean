import Gazette.Proofs.Bucket.Representation

set_option autoImplicit false

/-! # Replacing one version of a record by another

A put and a delete make the same kind of batch: it writes or deletes the record, deletes the
entries under its old keys, and sets the entries under its new ones (`Bucket.replacement`). No
two writes of the batch touch the same key, so their order does not matter
(`eq_of_key_replacement`), and the contents afterwards represent the collection with the new
version in place of the old (`Represents.replace`).
-/

namespace Gazette

variable {ρ : Type} [Record ρ]

namespace Bucket

variable {bucket : Bucket ρ} {contents : Contents} {records : RecordId → Option ρ}
  {id : RecordId} {new : Option ρ} {changes : List (Index.Change ρ)}

/-- The write that stores a version of a record, or removes it. -/
def recordWrite (bucket : Bucket ρ) (id : RecordId) : Option ρ → Operation
  | some record => .set (bucket.recordKey id) (Record.codec.encode record)
  | none => .delete (bucket.recordKey id)

omit [Record ρ] in
/-- The entries under new keys. -/
def newEntries (bucket : Bucket ρ) (id : RecordId) (changes : List (Index.Change ρ)) :
    List Operation :=
  changes.filterMap fun change =>
    change.new.map fun key => .set (bucket.entryKey change.index key id) id.bytes

/-- The batch that puts `new` in the place of the version that the record has. -/
def replacement (bucket : Bucket ρ) (id : RecordId) (new : Option ρ)
    (changes : List (Index.Change ρ)) : List Operation :=
  bucket.recordWrite id new :: bucket.staleEntries id changes ++ bucket.newEntries id changes

/-! ## The writes of the batch -/

theorem key_recordWrite : (bucket.recordWrite id new).key = bucket.recordKey id := by
  cases new <;> rfl

theorem value_recordWrite :
    (bucket.recordWrite id new).value = new.map Record.codec.encode := by
  cases new <;> rfl

omit [Record ρ] in
theorem mem_staleEntries {op : Operation} : op ∈ bucket.staleEntries id changes ↔
    ∃ change ∈ changes, ∃ k, change.old = some k
      ∧ op = .delete (bucket.entryKey change.index k id) := by
  simp only [staleEntries, List.mem_filterMap, Option.map_eq_some_iff]
  exact exists_congr fun change => and_congr_right fun _ => exists_congr fun k =>
    and_congr_right fun _ => eq_comm

omit [Record ρ] in
theorem mem_newEntries {op : Operation} : op ∈ bucket.newEntries id changes ↔
    ∃ change ∈ changes, ∃ k, change.new = some k
      ∧ op = .set (bucket.entryKey change.index k id) id.bytes := by
  simp only [newEntries, List.mem_filterMap, Option.map_eq_some_iff]
  exact exists_congr fun change => and_congr_right fun _ => exists_congr fun k =>
    and_congr_right fun _ => eq_comm

theorem mem_replacement {op : Operation} : op ∈ bucket.replacement id new changes ↔
    op = bucket.recordWrite id new ∨ op ∈ bucket.staleEntries id changes
      ∨ op ∈ bucket.newEntries id changes := by
  rw [replacement, List.mem_append, List.mem_cons, or_assoc]

/-- Every write of the batch touches the record's key or an entry of the bucket. -/
theorem owns_of_mem_replacement {op : Operation} (h : op ∈ bucket.replacement id new changes) :
    bucket.name.Owns op.key := by
  rcases mem_replacement.1 h with rfl | h | h
  · rw [key_recordWrite]
    exact bucket.owns_recordKey id
  · obtain ⟨change, -, k, -, rfl⟩ := mem_staleEntries.1 h
    exact bucket.owns_entryKey change.index k id
  · obtain ⟨change, -, k, -, rfl⟩ := mem_newEntries.1 h
    exact bucket.owns_entryKey change.index k id

/-- The batch leaves the counter alone. -/
theorem ne_counterKey_of_mem_replacement {op : Operation}
    (h : op ∈ bucket.replacement id new changes) : op.key ≠ bucket.counter.key := by
  intro same
  rcases mem_replacement.1 h with rfl | h | h
  · rw [key_recordWrite] at same
    exact bucket.not_recordStart_prefix_counterKey
      (same ▸ bucket.recordStart_prefix_recordKey id)
  · obtain ⟨change, -, k, -, rfl⟩ := mem_staleEntries.1 h
    exact bucket.not_entryStart_prefix_counterKey change.index bucket.counter
      (same ▸ bucket.entryStart_prefix_entryKey change.index k id)
  · obtain ⟨change, -, k, -, rfl⟩ := mem_newEntries.1 h
    exact bucket.not_entryStart_prefix_counterKey change.index bucket.counter
      (same ▸ bucket.entryStart_prefix_entryKey change.index k id)

/-- The batch writes one record. -/
theorem eq_recordWrite_of_recordStart {op : Operation}
    (h : op ∈ bucket.replacement id new changes) (hstart : bucket.recordStart <+: op.key) :
    op = bucket.recordWrite id new := by
  rcases mem_replacement.1 h with written | stale | fresh
  · exact written
  · obtain ⟨change, -, k, -, rfl⟩ := mem_staleEntries.1 stale
    exact absurd hstart (bucket.not_recordStart_prefix_entryKey change.index k id)
  · obtain ⟨change, -, k, -, rfl⟩ := mem_newEntries.1 fresh
    exact absurd hstart (bucket.not_recordStart_prefix_entryKey change.index k id)

omit [Record ρ] in
/-- Two changes that touch the same entry are changes of one index, between the same keys. -/
theorem change_eq_of_entryKey {old : Option ρ}
    (hchanges : Index.changes bucket.indexes old new = .ok changes)
    {c d : Index.Change ρ} (hc : c ∈ changes) (hd : d ∈ changes) {k l : Bytes}
    (hkey : bucket.entryKey c.index k id = bucket.entryKey d.index l id) :
    c.index = d.index ∧ c.old = d.old ∧ c.new = d.new ∧ k = l ∧ c.old ≠ c.new := by
  obtain ⟨hcindex, hcold, hcnew, hdiffer⟩ := Index.mem_changesFrom hchanges hc
  obtain ⟨hdindex, hdold, hdnew, -⟩ := Index.mem_changesFrom hchanges hd
  have hindex : c.index = d.index := bucket.index_eq_of_entryStart hcindex hdindex
    (bucket.entryStart_prefix_entryKey c.index k id)
    (hkey ▸ bucket.entryStart_prefix_entryKey d.index l id)
  rw [hindex] at hcold hcnew hkey
  rw [hcold] at hdold
  rw [hcnew] at hdnew
  exact ⟨hindex, Except.ok.inj hdold, Except.ok.inj hdnew, (bucket.entryKey_inj hkey).1, hdiffer⟩

/-- No two writes of the batch touch the same key. An old key and a new key of one index are
never the same, or there would be no change. -/
theorem eq_of_key_replacement {old : Option ρ}
    (hchanges : Index.changes bucket.indexes old new = .ok changes) {a b : Operation}
    (ha : a ∈ bucket.replacement id new changes) (hb : b ∈ bucket.replacement id new changes)
    (hkey : a.key = b.key) : a = b := by
  have hrecord : ∀ index k, bucket.recordKey id ≠ bucket.entryKey index k id := by
    intro index k heq
    exact bucket.not_recordStart_prefix_entryKey index k id
      (heq ▸ bucket.recordStart_prefix_recordKey id)
  rcases mem_replacement.1 ha with rfl | ha | ha
  · rw [key_recordWrite] at hkey
    rcases mem_replacement.1 hb with rfl | hb | hb
    · rfl
    · obtain ⟨d, hd, l, hl, rfl⟩ := mem_staleEntries.1 hb
      exact absurd hkey (hrecord _ _)
    · obtain ⟨d, hd, l, hl, rfl⟩ := mem_newEntries.1 hb
      exact absurd hkey (hrecord _ _)
  · obtain ⟨c, hc, k, hk, rfl⟩ := mem_staleEntries.1 ha
    rcases mem_replacement.1 hb with rfl | hb | hb
    · rw [key_recordWrite] at hkey
      exact absurd hkey.symm (hrecord _ _)
    · obtain ⟨d, hd, l, hl, rfl⟩ := mem_staleEntries.1 hb
      exact congrArg Operation.delete hkey
    · -- a key that is old and new at once has not changed
      obtain ⟨d, hd, l, hl, rfl⟩ := mem_newEntries.1 hb
      obtain ⟨-, -, hnew, rfl, hdiffer⟩ := change_eq_of_entryKey hchanges hc hd hkey
      exact absurd (hk.trans (hnew.trans hl).symm) hdiffer
  · obtain ⟨c, hc, k, hk, rfl⟩ := mem_newEntries.1 ha
    rcases mem_replacement.1 hb with rfl | hb | hb
    · rw [key_recordWrite] at hkey
      exact absurd hkey.symm (hrecord _ _)
    · obtain ⟨d, hd, l, hl, rfl⟩ := mem_staleEntries.1 hb
      obtain ⟨-, hold, -, rfl, hdiffer⟩ := change_eq_of_entryKey hchanges hc hd hkey
      exact absurd ((hold.trans hl).trans hk.symm) hdiffer
    · obtain ⟨d, hd, l, hl, rfl⟩ := mem_newEntries.1 hb
      exact congrArg (Operation.set · id.bytes) hkey

/-! ## The contents afterwards -/

theorem get?_of_mem_replacement {old : Option ρ} (contents : Contents)
    (hchanges : Index.changes bucket.indexes old new = .ok changes) {op : Operation}
    (h : op ∈ bucket.replacement id new changes) :
    (contents.apply (bucket.replacement id new changes)).get? op.key = op.value :=
  Contents.get?_apply_of_mem contents h fun _ ho hkey =>
    eq_of_key_replacement hchanges ho h hkey

/-- Under the keys of records, the batch changes what is under the one that it writes. -/
theorem get?_recordKey_replacement {old : Option ρ} (contents : Contents)
    (hchanges : Index.changes bucket.indexes old new = .ok changes) (i : RecordId) :
    (contents.apply (bucket.replacement id new changes)).get? (bucket.recordKey i) =
      if i = id then new.map Record.codec.encode
      else contents.get? (bucket.recordKey i) := by
  by_cases own : i = id
  · have written := get?_of_mem_replacement contents hchanges
      (mem_replacement.2 (.inl (Eq.refl (bucket.recordWrite id new))))
    rw [key_recordWrite, value_recordWrite] at written
    rw [own, if_pos rfl, written]
  · rw [if_neg own]
    refine Contents.get?_apply_of_untouched contents fun op hop hkey => own ?_
    have hstart : bucket.recordStart <+: op.key := hkey ▸ bucket.recordStart_prefix_recordKey i
    rw [eq_recordWrite_of_recordStart hop hstart, key_recordWrite] at hkey
    exact bucket.recordKey_injective hkey.symm

/-- A write of the batch to an entry of an index moves the record from one key to another. -/
theorem mem_replacement_entry {old : Option ρ}
    (hchanges : Index.changes bucket.indexes old new = .ok changes) {op : Operation}
    (h : op ∈ bucket.replacement id new changes) {index : Index ρ}
    (hindex : index ∈ bucket.indexes) (hstart : bucket.entryStart index <+: op.key) :
    ∃ a b k, index.keyOf old = .ok a ∧ index.keyOf new = .ok b ∧ a ≠ b
      ∧ (a = some k ∨ b = some k) ∧ op.key = bucket.entryKey index k id := by
  have touched : ∀ change ∈ changes, ∀ k, op.key = bucket.entryKey change.index k id →
      change.index = index := fun change hchange k hkey =>
    bucket.index_eq_of_entryStart (Index.mem_changesFrom hchanges hchange).1 hindex
      (hkey ▸ bucket.entryStart_prefix_entryKey change.index k id) hstart
  rcases mem_replacement.1 h with rfl | h | h
  · rw [key_recordWrite] at hstart
    exact absurd hstart (bucket.not_entryStart_prefix_recordKey bucket index id)
  · obtain ⟨change, hchange, k, hk, rfl⟩ := mem_staleEntries.1 h
    obtain rfl := touched change hchange k rfl
    obtain ⟨-, hold, hnew, hdiffer⟩ := Index.mem_changesFrom hchanges hchange
    exact ⟨_, _, k, hold, hnew, hdiffer, .inl hk, rfl⟩
  · obtain ⟨change, hchange, k, hk, rfl⟩ := mem_newEntries.1 h
    obtain rfl := touched change hchange k rfl
    obtain ⟨-, hold, hnew, hdiffer⟩ := Index.mem_changesFrom hchanges hchange
    exact ⟨_, _, k, hold, hnew, hdiffer, .inr hk, rfl⟩

namespace Represents

/-- After the batch the record has the entries that its new version calls for. -/
theorem get?_newEntry (h : bucket.Represents contents records)
    (hchanges : Index.changes bucket.indexes (records id) new = .ok changes) {index : Index ρ}
    (hindex : index ∈ bucket.indexes) {k : Bytes} (hk : index.keyOf new = .ok (some k)) :
    (contents.apply (bucket.replacement id new changes)).get? (bucket.entryKey index k id) =
      some id.bytes := by
  obtain ⟨a, b, ha, hb, listed⟩ := Index.exists_mem_changesFrom hchanges hindex
  obtain rfl : b = some k := Except.ok.inj (hb.symm.trans hk)
  have hstart := bucket.entryStart_prefix_entryKey index k id
  by_cases hsame : a = some k
  · -- the key is the same as before, so the entry is there and the batch leaves it alone
    rw [Contents.get?_apply_of_untouched, (h.entry_iff index hindex _ _ hstart).2]
    · exact ⟨id, hasEntry_iff.2 ⟨k, hsame ▸ ha, rfl⟩, rfl⟩
    · intro op hop hkey
      obtain ⟨a', b', -, ha', hb', hdiffer, -⟩ :=
        mem_replacement_entry hchanges hop hindex (hkey ▸ hstart)
      rw [← Except.ok.inj (ha.symm.trans ha'), ← Except.ok.inj (hb.symm.trans hb')] at hdiffer
      exact hdiffer hsame
  · obtain ⟨change, hchange, rfl, -, hnew⟩ := listed hsame
    exact get?_of_mem_replacement contents hchanges
      (mem_replacement.2 (.inr (.inr (mem_newEntries.2 ⟨change, hchange, k, hnew, rfl⟩))))

/-- After the batch the entries of the old version are gone, but for those that the new version
calls for as well. -/
theorem get?_oldEntry {old : Option ρ}
    (hchanges : Index.changes bucket.indexes old new = .ok changes) {index : Index ρ}
    (hindex : index ∈ bucket.indexes) {k : Bytes} (hold : index.keyOf old = .ok (some k))
    (hnew : index.keyOf new ≠ .ok (some k)) :
    (contents.apply (bucket.replacement id new changes)).get? (bucket.entryKey index k id) =
      none := by
  obtain ⟨a, b, ha, hb, listed⟩ := Index.exists_mem_changesFrom hchanges hindex
  obtain rfl : a = some k := Except.ok.inj (ha.symm.trans hold)
  obtain ⟨change, hchange, rfl, hk, -⟩ := listed fun hsame => hnew (hsame ▸ hb)
  exact get?_of_mem_replacement contents hchanges
    (mem_replacement.2 (.inr (.inl (mem_staleEntries.2 ⟨change, hchange, k, hk, rfl⟩))))

/-- After the batch the contents represent the collection with the new version. -/
theorem replace (h : bucket.Represents contents records)
    (hchanges : Index.changes bucket.indexes (records id) new = .ok changes)
    (hsound : ∀ record, new = some record → bucket.Sound id record)
    (hdistinct : bucket.DistinctKeys (Function.update records id new)) :
    bucket.Represents (contents.apply (bucket.replacement id new changes))
      (Function.update records id new) where
  record_iff key value hstart := by
    by_cases hkey : key = bucket.recordKey id
    · subst hkey
      rw [get?_recordKey_replacement contents hchanges, if_pos rfl, Option.map_eq_some_iff]
      constructor
      · rintro ⟨record, rfl, rfl⟩
        exact ⟨id, record, Function.update_self .., rfl, rfl⟩
      · rintro ⟨i, record, hrecord, hkey, rfl⟩
        obtain rfl := bucket.recordKey_injective hkey
        rw [Function.update_self] at hrecord
        exact ⟨record, hrecord, rfl⟩
    · -- the batch leaves the keys of other records alone
      rw [Contents.get?_apply_of_untouched, h.record_iff key value hstart]
      · refine exists_congr fun i => exists_congr fun record => ?_
        by_cases hi : i = id
        · subst hi
          simp [hkey]
        · rw [Function.update_of_ne hi]
      · rintro op hop rfl
        rw [eq_recordWrite_of_recordStart hop hstart] at hkey
        exact hkey key_recordWrite
  entry_iff index hindex key value hstart := by
    by_cases hafter : bucket.HasEntry (Function.update records id new) index key id
    · -- the entry is the record's, now
      obtain ⟨k, hk, rfl⟩ := hasEntry_iff.1 hafter
      rw [Function.update_self] at hk
      rw [h.get?_newEntry hchanges hindex hk]
      constructor
      · rintro ⟨⟩
        exact ⟨id, hafter, rfl⟩
      · rintro ⟨i, hi, rfl⟩
        rw [hasEntry_unique hdistinct hindex hi hafter]
    · have hothers : ∀ i, bucket.HasEntry (Function.update records id new) index key i ↔
          i ≠ id ∧ bucket.HasEntry records index key i := by
        intro i
        by_cases hi : i = id
        · subst hi
          exact ⟨fun hentry => absurd hentry hafter, fun hentry => absurd rfl hentry.1⟩
        · simp only [HasEntry, Function.update_of_ne hi, hi, ne_eq, not_false_eq_true, true_and]
      by_cases hbefore : bucket.HasEntry records index key id
      · -- the entry was the record's, and no other record can have it
        obtain ⟨k, hk, rfl⟩ := hasEntry_iff.1 hbefore
        rw [get?_oldEntry hchanges hindex hk fun hnew =>
          hafter (hasEntry_iff.2 ⟨k, by rw [Function.update_self]; exact hnew, rfl⟩)]
        constructor
        · intro hnone
          cases hnone
        · rintro ⟨i, hi, -⟩
          obtain ⟨hne, hentry⟩ := (hothers i).1 hi
          exact absurd (hasEntry_unique h.distinct hindex hentry hbefore) hne
      · -- the entry has nothing to do with the record
        rw [Contents.get?_apply_of_untouched, h.entry_iff index hindex key value hstart]
        · refine exists_congr fun i => and_congr_left fun _ => ?_
          rw [hothers]
          exact ⟨fun hentry => ⟨fun hi => hbefore (hi ▸ hentry), hentry⟩, And.right⟩
        · rintro op hop rfl
          obtain ⟨a, b, k, ha, hb, -, hk | hk, hkey⟩ :=
            mem_replacement_entry hchanges hop hindex hstart
          · exact hbefore (hasEntry_iff.2 ⟨k, hk ▸ ha, hkey⟩)
          · exact hafter (hasEntry_iff.2 ⟨k, by rw [Function.update_self, hb, hk], hkey⟩)
  sound i record hrecord := by
    by_cases hi : i = id
    · subst hi
      rw [Function.update_self] at hrecord
      exact hsound record hrecord
    · rw [Function.update_of_ne hi] at hrecord
      exact h.sound i record hrecord
  distinct := hdistinct

end Represents

end Bucket

end Gazette
