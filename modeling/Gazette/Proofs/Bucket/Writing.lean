import Gazette.Proofs.Bucket.Replacement
import Gazette.Proofs.Store.Counter

set_option autoImplicit false

/-! # Putting and deleting records

A put or a delete that fails leaves the store as it was, and one that succeeds makes the batch
that was worked out before (`put_cases`, `delete_cases`). That batch replaces one version of the
record by another, so the contents afterwards represent the records with the new version
(`Represents.planPut`, `Represents.planDelete`).

The search for taken keys of unique indexes looks only at keys that change. That is enough:
a key that the record had before is not another record's.
-/

namespace Gazette

variable {ρ : Type} [Record ρ]

namespace Bucket

variable {bucket : Bucket ρ} {store : Store} {record : ρ} {id : RecordId}
  {records : RecordId → Option ρ}

/-! ## What a batch is worked out from -/

omit [Record ρ] in
theorem changes_eq_ok {old new : Option ρ} {changes : List (Index.Change ρ)} :
    bucket.changes old new = .ok changes ↔
      Index.changes bucket.indexes old new = .ok changes := by
  unfold Bucket.changes
  cases Index.changes bucket.indexes old new with
  | ok found =>
    constructor
    · intro h
      exact congrArg Except.ok (Except.ok.inj h)
    · intro h
      exact congrArg Except.ok (Except.ok.inj h)
  | error fault =>
    constructor
    · intro h
      cases h
    · intro h
      cases h

/-- The ID that a record is put under: its own, or the next one of the bucket. -/
theorem assignId_eq_ok {bump : List Operation}
    (h : bucket.assignId store record = .ok (id, bump)) :
    (Record.id record = some id ∧ bump = []) ∨
      (Record.id record = none ∧ ∃ last, bucket.counter.current store = .ok last
        ∧ last.toNat + 1 < UInt64.size ∧ id = ⟨last + 1⟩
        ∧ bump = [.set bucket.counter.key (Counter.valueOf (last + 1))]) := by
  unfold assignId at h
  split at h
  · rename_i own
    cases h
    exact .inl ⟨own, rfl⟩
  · rename_i none_yet
    obtain ⟨⟨next, write⟩, hreserve, heq⟩ := map_eq_ok.1 h
    cases heq
    obtain ⟨last, hlast, hfits, rfl, rfl⟩ := Counter.reserve_eq_ok hreserve
    exact .inr ⟨none_yet, last, hlast, hfits, rfl, rfl⟩

/-- To find an ID at most the counter is written. -/
theorem key_of_mem_assignId {bump : List Operation}
    (h : bucket.assignId store record = .ok (id, bump)) {op : Operation} (hop : op ∈ bump) :
    op.key = bucket.counter.key := by
  rcases assignId_eq_ok h with ⟨-, rfl⟩ | ⟨-, last, -, -, -, rfl⟩
  · cases hop
  · rw [List.mem_singleton.1 hop]
    rfl

omit [Record ρ] in
theorem checkUnique_eq_ok {index : Index ρ} {key raw : Bytes}
    (h : bucket.checkUnique store index key id = .ok ())
    (hraw : store.contents.get? (bucket.entryKey index key id) = some raw) :
    RecordId.ofBytes raw = .ok id := by
  obtain ⟨found, hfound, hcheck⟩ := bind_eq_ok.1 h
  obtain rfl := (Store.get?_of_get hfound).symm.trans hraw
  dsimp only at hcheck
  split at hcheck
  · cases hcheck
  · rename_i owner howner
    split at hcheck
    · rename_i same
      rw [howner, same]
    · cases hcheck

omit [Record ρ] in
theorem freshEntries_eq_ok {changes : List (Index.Change ρ)} {fresh : List Operation}
    (h : bucket.freshEntries store id changes = .ok fresh) :
    fresh = bucket.newEntries id changes ∧ ∀ change ∈ changes, ∀ k, change.new = some k →
      change.index.unique = true → bucket.checkUnique store change.index k id = .ok () := by
  induction changes generalizing fresh with
  | nil =>
    cases h
    refine ⟨rfl, ?_⟩
    intro change hchange
    cases hchange
  | cons first rest ih =>
    unfold freshEntries at h
    split at h
    · rename_i no_key
      obtain ⟨hfresh, hchecked⟩ := ih h
      refine ⟨by rw [hfresh, newEntries, newEntries, List.filterMap_cons, no_key]; rfl, ?_⟩
      intro change hchange k hk
      rcases List.mem_cons.1 hchange with rfl | hchange
      · rw [no_key] at hk
        cases hk
      · exact hchecked change hchange k hk
    · rename_i key has_key
      have hparts : (first.index.unique = true →
            bucket.checkUnique store first.index key id = .ok ()) ∧
          ∃ later, bucket.freshEntries store id rest = .ok later
            ∧ fresh = .set (bucket.entryKey first.index key id) id.bytes :: later := by
        dsimp only at h
        split at h
        · obtain ⟨⟨⟩, hcheck, hrest⟩ := bind_eq_ok.1 h
          obtain ⟨later, hlater, hcons⟩ := bind_eq_ok.1 hrest
          exact ⟨fun _ => hcheck, later, hlater, (Except.ok.inj hcons).symm⟩
        · rename_i not_unique
          obtain ⟨later, hlater, hcons⟩ := bind_eq_ok.1 h
          exact ⟨fun hunique => absurd hunique not_unique, later, hlater,
            (Except.ok.inj hcons).symm⟩
      obtain ⟨hcheck, later, hlater, rfl⟩ := hparts
      obtain ⟨rfl, hchecked⟩ := ih hlater
      refine ⟨by rw [newEntries, newEntries, List.filterMap_cons, has_key]; rfl, ?_⟩
      intro change hchange k hk hunique
      rcases List.mem_cons.1 hchange with rfl | hchange
      · obtain rfl := Option.some.inj (has_key.symm.trans hk)
        exact hcheck hunique
      · exact hchecked change hchange k hk hunique

/-- What a put was worked out from. -/
theorem planPut_eq_ok {plan : PutPlan ρ} (h : bucket.planPut store record = .ok plan) :
    ∃ bump old changes, bucket.assignId store record = .ok (plan.id, bump)
      ∧ plan.record = Record.identified record plan.id ∧ Record.validate plan.record = .ok ()
      ∧ bucket.get store plan.id = .ok old
      ∧ Index.changes bucket.indexes old (some plan.record) = .ok changes
      ∧ (∀ change ∈ changes, ∀ k, change.new = some k → change.index.unique = true →
          bucket.checkUnique store change.index k plan.id = .ok ())
      ∧ plan.batch = bump ++ bucket.replacement plan.id (some plan.record) changes := by
  obtain ⟨⟨id, bump⟩, hassign, h⟩ := bind_eq_ok.1 h
  obtain ⟨⟨⟩, hvalid, h⟩ := bind_eq_ok.1 h
  obtain ⟨old, hold, h⟩ := bind_eq_ok.1 h
  obtain ⟨changes, hchanges, h⟩ := bind_eq_ok.1 h
  obtain ⟨fresh, hfresh, h⟩ := bind_eq_ok.1 h
  obtain ⟨rfl, hchecked⟩ := freshEntries_eq_ok hfresh
  cases h
  exact ⟨bump, old, changes, hassign, rfl, mapError_eq_ok.1 hvalid, hold,
    changes_eq_ok.1 hchanges, hchecked, List.append_assoc ..⟩

omit [Record ρ] in
theorem newEntries_of_delete {old : Option ρ} {changes : List (Index.Change ρ)}
    (h : Index.changes bucket.indexes old none = .ok changes) :
    bucket.newEntries id changes = [] := by
  refine List.filterMap_eq_nil_iff.2 fun change hchange => ?_
  obtain ⟨-, -, hnew, -⟩ := Index.mem_changesFrom h hchange
  rw [← Except.ok.inj hnew]
  rfl

/-- What a removal was worked out from. -/
theorem planDelete_eq_ok {batch : List Operation}
    (h : bucket.planDelete store id = .ok (some batch)) :
    ∃ old changes, bucket.get store id = .ok (some old)
      ∧ Index.changes bucket.indexes (some old) none = .ok changes
      ∧ batch = bucket.replacement id none changes := by
  obtain ⟨found, hfound, h⟩ := bind_eq_ok.1 h
  cases found with
  | none => cases h
  | some old =>
    obtain ⟨changes, hchanges, h⟩ := bind_eq_ok.1 h
    rw [changes_eq_ok] at hchanges
    cases h
    refine ⟨old, changes, hfound, hchanges, ?_⟩
    rw [replacement, newEntries_of_delete hchanges, List.append_nil]
    rfl

/-! ## The batch keeps the representation -/

/-- The batch of a put touches keys of the bucket alone. -/
theorem owns_of_mem_planPut {plan : PutPlan ρ} (h : bucket.planPut store record = .ok plan)
    {op : Operation} (hop : op ∈ plan.batch) : bucket.name.Owns op.key := by
  obtain ⟨bump, old, changes, hassign, -, -, -, -, -, hbatch⟩ := planPut_eq_ok h
  rw [hbatch] at hop
  rcases List.mem_append.1 hop with hop | hop
  · rw [key_of_mem_assignId hassign hop]
    exact bucket.owns_counterKey
  · exact owns_of_mem_replacement hop

/-- Under the keys of records, the batch of a put changes what is under the one that it writes. -/
theorem get?_recordKey_planPut {plan : PutPlan ρ} (h : bucket.planPut store record = .ok plan)
    (i : RecordId) :
    (store.contents.apply plan.batch).get? (bucket.recordKey i) =
      if i = plan.id then some (Record.codec.encode plan.record)
      else store.contents.get? (bucket.recordKey i) := by
  obtain ⟨bump, old, changes, hassign, -, -, -, hchanges, -, hbatch⟩ := planPut_eq_ok h
  have untouched : (store.contents.apply bump).get? (bucket.recordKey i) =
      store.contents.get? (bucket.recordKey i) := by
    refine Contents.get?_apply_of_untouched _ fun op hop same => ?_
    rw [key_of_mem_assignId hassign hop] at same
    exact bucket.not_recordStart_prefix_counterKey
      (same ▸ bucket.recordStart_prefix_recordKey i)
  rw [hbatch, Contents.apply_append, get?_recordKey_replacement _ hchanges, untouched]
  rfl

namespace Represents

/-- No other record holds a key of the new version in a unique index. -/
theorem distinctKeys_put (h : bucket.Represents store.contents records)
    {changes : List (Index.Change ρ)}
    (hchanges : Index.changes bucket.indexes (records id) (some record) = .ok changes)
    (hchecked : ∀ change ∈ changes, ∀ k, change.new = some k → change.index.unique = true →
      bucket.checkUnique store change.index k id = .ok ()) :
    bucket.DistinctKeys (Function.update records id (some record)) := by
  intro index hindex hunique
  -- the new version has no key in common with another record
  have hfree : ∀ j s k, j ≠ id → records j = some s → index.extract record = .ok (some k) →
      index.extract s ≠ .ok (some k) := by
    intro j s k hj hs hk hsk
    obtain ⟨a, b, ha, hb, listed⟩ := Index.exists_mem_changesFrom hchanges hindex
    obtain rfl : b = some k := Except.ok.inj (hb.symm.trans (Index.keyOf_some_eq_ok.2 hk))
    have hentry : bucket.HasEntry records index (bucket.entryKey index k id) j :=
      ⟨s, k, hs, hsk, by rw [entryKey_unique _ hunique, entryKey_unique _ hunique]⟩
    by_cases hsame : a = some k
    · -- the key has not changed, and was the record's alone before
      have hown : bucket.HasEntry records index (bucket.entryKey index k id) id :=
        hasEntry_iff.2 ⟨k, hsame ▸ ha, rfl⟩
      exact hj (hasEntry_unique h.distinct hindex hentry hown)
    · -- the key is new, so the search would have found the entry of the other record
      obtain ⟨change, hchange, rfl, -, hnew⟩ := listed hsame
      have hstored := (h.entry_iff change.index hindex _ _
        (bucket.entryStart_prefix_entryKey change.index k id)).2 ⟨j, hentry, rfl⟩
      have howner := checkUnique_eq_ok (hchecked change hchange k hnew hunique) hstored
      rw [RecordId.ofBytes_bytes] at howner
      exact hj (Except.ok.inj howner)
  intro i j r s k hr hs hrk hsk
  -- at most one of the two is the new version
  by_cases hi : i = id
  · by_cases hj : j = id
    · rw [hi, hj]
    · rw [hi, Function.update_self] at hr
      rw [Function.update_of_ne hj] at hs
      cases hr
      exact absurd hsk (hfree j s k hj hs hrk)
  · rw [Function.update_of_ne hi] at hr
    by_cases hj : j = id
    · rw [hj, Function.update_self] at hs
      cases hs
      exact absurd hrk (hfree i r k hi hr hsk)
    · rw [Function.update_of_ne hj] at hs
      exact h.distinct index hindex hunique i j r s k hr hs hrk hsk

theorem planPut [LawfulRecord ρ] (h : bucket.Represents store.contents records)
    {plan : PutPlan ρ} (hplan : bucket.planPut store record = .ok plan)
    (hstorable : Record.Storable record) :
    bucket.Represents (store.contents.apply plan.batch)
      (Function.update records plan.id (some plan.record)) := by
  obtain ⟨bump, old, changes, hassign, hrecord, hvalid, hold, hchanges, hchecked, hbatch⟩ :=
    planPut_eq_ok hplan
  obtain rfl := h.eq_of_get hold
  have hbump : bucket.Represents (store.contents.apply bump) records := by
    -- the counter is no covered key
    refine h.congr fun key hkey => Contents.get?_apply_of_untouched _ ?_
    rintro op hop rfl
    rw [key_of_mem_assignId hassign hop] at hkey
    exact not_covers_counterKey hkey
  have hindexed : ∀ index ∈ bucket.indexes, ∃ key, index.extract plan.record = .ok key := by
    intro index hindex
    obtain ⟨-, b, -, hb, -⟩ := Index.exists_mem_changesFrom hchanges hindex
    exact ⟨b, Index.keyOf_some_eq_ok.1 hb⟩
  have hcarries : Record.id plan.record = some plan.id := by
    rw [hrecord]
    refine Record.id_identified fun own hown => ?_
    rcases assignId_eq_ok hassign with ⟨hid, -⟩ | ⟨hnew, -⟩
    · exact Option.some.inj (hown.symm.trans hid)
    · cases hown.symm.trans hnew
  have happly : store.contents.apply plan.batch =
      (store.contents.apply bump).apply
        (bucket.replacement plan.id (some plan.record) changes) := by
    rw [hbatch, Contents.apply_append]
  rw [happly]
  refine hbump.replace hchanges ?_ (h.distinctKeys_put hchanges hchecked)
  have hreadable : Record.Readable plan.record := by
    rw [hrecord] at hvalid ⊢
    exact hstorable plan.id hvalid
  rintro _ ⟨⟩
  exact ⟨hcarries, hvalid, hindexed, hreadable⟩

theorem planDelete (h : bucket.Represents store.contents records) {batch : List Operation}
    (hplan : bucket.planDelete store id = .ok (some batch)) :
    bucket.Represents (store.contents.apply batch) (Function.update records id none) := by
  obtain ⟨old, changes, hold, hchanges, rfl⟩ := planDelete_eq_ok hplan
  rw [h.eq_of_get hold] at hchanges
  have hkept : ∀ i r, Function.update records id none i = some r → records i = some r := by
    intro i r hr
    by_cases hi : i = id
    · rw [hi, Function.update_self] at hr
      cases hr
    · rwa [Function.update_of_ne hi] at hr
  refine h.replace hchanges ?_ ?_
  · intro record hnone
    cases hnone
  · intro index hindex hunique i j r s k hr hs
    exact h.distinct index hindex hunique i j r s k (hkept i r hr) (hkept j s hs)

/-- On a reliable store a removal is worked out without fail: no index refuses a record that is
stored. -/
theorem planDelete_eq (h : bucket.Represents store.contents records) (hstore : store.Reliable)
    (id : RecordId) :
    (records id = none ∧ bucket.planDelete store id = .ok none) ∨
      ∃ old changes, records id = some old
        ∧ bucket.planDelete store id = .ok (some (bucket.replacement id none changes)) := by
  rw [Bucket.planDelete, h.get_eq hstore]
  cases hrecord : records id with
  | none => exact .inl ⟨rfl, rfl⟩
  | some old =>
    have refused_by_none : ∀ index ∈ bucket.indexes,
        (∃ a, index.keyOf (some old) = .ok a) ∧ ∃ b, index.keyOf none = .ok b := by
      intro index hindex
      obtain ⟨key, hkey⟩ := (h.sound id old hrecord).indexed index hindex
      exact ⟨⟨key, Index.keyOf_some_eq_ok.2 hkey⟩, none, rfl⟩
    obtain ⟨changes, hchanges⟩ := Index.changesFrom_ok 0 refused_by_none
    refine .inr ⟨old, changes, rfl, ?_⟩
    refine bind_eq_ok.2 ⟨some old, rfl, bind_eq_ok.2 ⟨changes, changes_eq_ok.2 hchanges, ?_⟩⟩
    rw [replacement, newEntries_of_delete hchanges, List.append_nil]
    rfl

end Represents

/-! ## Steps -/

/-- A put fails and changes nothing, or makes the batch that it worked out. -/
theorem put_cases (bucket : Bucket ρ) (hwrites : store.AcceptsWrites) (record : ρ) :
    (∃ error, store.perform (bucket.put record) = (.error error, store)) ∨
      ∃ plan after, bucket.planPut store record = .ok plan
        ∧ store.perform (bucket.put record) = (.ok (plan.id, Record.withId record plan.id), after)
        ∧ after.contents = store.contents.apply plan.batch ∧ after.AcceptsWrites := by
  rw [put, Store.perform_bind, Store.perform_read]
  cases hplan : bucket.planPut store record with
  | error error => exact .inl ⟨error, rfl⟩
  | ok plan =>
    obtain ⟨after, hrun, hcontents, haccepts, -⟩ :=
      Store.apply_of_acceptsWrites hwrites plan.batch
    refine .inr ⟨plan, after, rfl, ?_, hcontents, haccepts⟩
    simp only [Store.perform_bind, Store.perform_write, hrun, Store.perform_pure]

theorem perform_delete (hwrites : store.AcceptsWrites) {batch : List Operation}
    (hplan : bucket.planDelete store id = .ok (some batch)) :
    ∃ after, store.perform (bucket.delete id) = (.ok true, after)
      ∧ after.contents = store.contents.apply batch ∧ after.AcceptsWrites := by
  obtain ⟨after, hrun, hcontents, haccepts, -⟩ := Store.apply_of_acceptsWrites hwrites batch
  refine ⟨after, ?_, hcontents, haccepts⟩
  rw [delete, Store.perform_bind, Store.perform_read, hplan]
  simp only [Store.perform_bind, Store.perform_write, hrun, Store.perform_pure]

/-- A delete fails or finds nothing, and changes nothing, or makes the batch that it worked
out. -/
theorem delete_cases (bucket : Bucket ρ) (hwrites : store.AcceptsWrites) (id : RecordId) :
    (∃ error, store.perform (bucket.delete id) = (.error error, store)) ∨
      (bucket.planDelete store id = .ok none
        ∧ store.perform (bucket.delete id) = (.ok false, store)) ∨
      ∃ batch after, bucket.planDelete store id = .ok (some batch)
        ∧ store.perform (bucket.delete id) = (.ok true, after)
        ∧ after.contents = store.contents.apply batch ∧ after.AcceptsWrites := by
  cases hplan : bucket.planDelete store id with
  | error error =>
    refine .inl ⟨error, ?_⟩
    rw [delete, Store.perform_bind, Store.perform_read, hplan]
  | ok plan =>
    cases plan with
    | none =>
      refine .inr (.inl ⟨rfl, ?_⟩)
      rw [delete, Store.perform_bind, Store.perform_read, hplan]
      rfl
    | some batch =>
      obtain ⟨after, hrun, hcontents, haccepts⟩ := perform_delete hwrites hplan
      exact .inr (.inr ⟨batch, after, rfl, hrun, hcontents, haccepts⟩)

end Bucket

end Gazette
