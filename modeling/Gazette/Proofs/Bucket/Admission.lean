import Gazette.Proofs.Bucket.Table
import Gazette.Proofs.Harmless

set_option autoImplicit false

/-! # What a bucket takes

A bucket *admits* a record under an ID if the record is valid, no index refuses it, and no other
record has its key in a unique index. On a reliable store these are the only reasons to refuse a
record, besides a counter that has issued its last number (`Holds.put_iff`), and the error says
which of them it was (`Rejects`, `Holds.perform_put_cases`). None of them is fatal
(`Holds.put_harmless`).
-/

namespace Gazette

variable {ρ : Type} [Record ρ]

/-! ## Counters -/

namespace Counter

variable {counter : Counter} {store : Store} {last : UInt64}

theorem current_eq (hstore : store.Reliable) (h : counter.HasIssued store.contents last) :
    counter.current store = .ok last :=
  current_of_get h (Store.get_eq hstore counter.key)

/-- A reliable counter refuses for one reason: it has issued its last number. -/
theorem reserve_cases (hstore : store.Reliable) (h : counter.HasIssued store.contents last) :
    (last.toNat + 1 < UInt64.size
        ∧ counter.reserve store =
          .ok (⟨last + 1⟩, .set counter.key (valueOf (last + 1)))) ∨
      (¬ last.toNat + 1 < UInt64.size
        ∧ counter.reserve store = .error (.exhausted counter.name.text)) := by
  rw [reserve, current_eq hstore h]
  by_cases fits : last.toNat + 1 < UInt64.size
  · exact .inl ⟨fits, if_pos fits⟩
  · exact .inr ⟨fits, if_neg fits⟩

end Counter

namespace Bucket

variable {bucket : Bucket ρ} {store : Store} {record : ρ} {id : RecordId}
  {records : RecordId → Option ρ}

/-- The bucket takes the record under this ID. -/
structure Admits (bucket : Bucket ρ) (records : RecordId → Option ρ) (id : RecordId)
    (record : ρ) : Prop where
  valid : Record.validate record = .ok ()
  indexed : ∀ index ∈ bucket.indexes, ∃ key, index.extract record = .ok key
  free : ∀ index ∈ bucket.indexes, index.unique = true → ∀ j s k, records j = some s →
    index.extract record = .ok (some k) → index.extract s = .ok (some k) → j = id

/-- Another record than the one under this ID has the record's key in a unique index. -/
def KeyTaken (bucket : Bucket ρ) (records : RecordId → Option ρ) (id : RecordId) (record : ρ) :
    Prop :=
  ∃ index ∈ bucket.indexes, index.unique = true ∧ ∃ key, index.extract record = .ok (some key)
    ∧ ∃ j s, j ≠ id ∧ records j = some s ∧ index.extract s = .ok (some key)

/-- The record is not admitted under this ID, and the error says why. Rules for fields come before
index functions, and these before keys that are taken. -/
inductive Rejects (bucket : Bucket ρ) (records : RecordId → Option ρ) (id : RecordId)
    (record : ρ) : StoreError → Prop
  | invalid (faults : ValidationErrors) (hfaults : Record.validate record = .error faults) :
    Rejects bucket records id record (.validation faults)
  | refused (index : Index ρ) (reason : String) (hindex : index ∈ bucket.indexes)
      (valid : Record.validate record = .ok ()) (hreason : index.extract record = .error reason) :
    Rejects bucket records id record
      (.invalidIndexKey bucket.name.text index.name.text reason)
  | taken (index : Index ρ) (key : Bytes) (hindex : index ∈ bucket.indexes)
      (hunique : index.unique = true) (valid : Record.validate record = .ok ())
      (indexed : ∀ index ∈ bucket.indexes, ∃ key, index.extract record = .ok key)
      (hkey : index.extract record = .ok (some key))
      (held : ∃ j s, j ≠ id ∧ records j = some s ∧ index.extract s = .ok (some key)) :
    Rejects bucket records id record (.conflict bucket.name.text index.name.text key)

namespace Rejects

variable {error : StoreError}

theorem not_admits (h : bucket.Rejects records id record error) :
    ¬ bucket.Admits records id record := by
  intro admits
  cases h with
  | invalid faults hfaults =>
    have valid := admits.valid
    rw [hfaults] at valid
    cases valid
  | refused index reason hindex valid hreason =>
    obtain ⟨key, hkey⟩ := admits.indexed index hindex
    rw [hreason] at hkey
    cases hkey
  | taken index key hindex hunique valid indexed hkey held =>
    obtain ⟨j, s, other, hs, hsk⟩ := held
    exact other (admits.free index hindex hunique j s key hs hkey hsk)

theorem isFatal_eq (h : bucket.Rejects records id record error) : error.isFatal = false := by
  cases h <;> rfl

/-- A conflict is given as the reason exactly if a key is taken and nothing else is wrong. -/
theorem conflict_iff (h : bucket.Rejects records id record error) :
    (∃ name index key, error = .conflict name index key) ↔
      Record.validate record = .ok ()
        ∧ (∀ index ∈ bucket.indexes, ∃ key, index.extract record = .ok key)
        ∧ bucket.KeyTaken records id record := by
  cases h with
  | invalid faults hfaults => simp [hfaults]
  | refused index reason hindex valid hreason =>
    constructor
    · rintro ⟨name, i, key, no_conflict⟩
      cases no_conflict
    · rintro ⟨-, indexed, -⟩
      obtain ⟨key, hkey⟩ := indexed index hindex
      rw [hreason] at hkey
      cases hkey
  | taken index key hindex hunique valid indexed hkey held =>
    exact ⟨fun _ => ⟨valid, indexed, index, hindex, hunique, key, hkey, held⟩,
      fun _ => ⟨_, _, _, rfl⟩⟩

end Rejects

/-! ## Keys of unique indexes -/

namespace Represents

/-- The search for a taken key finds the record that has it, if it is another one. -/
theorem checkUnique_cases (h : bucket.Represents store.contents records)
    (hstore : store.Reliable) {index : Index ρ} (hindex : index ∈ bucket.indexes)
    (hunique : index.unique = true) (k : Bytes) (id : RecordId) :
    (bucket.checkUnique store index k id = .ok ()) ∨
      (bucket.checkUnique store index k id =
          .error (.conflict bucket.name.text index.name.text k)
        ∧ ∃ j s, j ≠ id ∧ records j = some s ∧ index.extract s = .ok (some k)) := by
  have hiff := fun value => h.entry_iff index hindex (bucket.entryKey index k id) value
    (bucket.entryStart_prefix_entryKey index k id)
  rw [checkUnique, Store.get_eq hstore]
  cases hraw : store.contents.get? (bucket.entryKey index k id) with
  | none => exact .inl rfl
  | some raw =>
    -- an entry under this key is that of a record with this key
    obtain ⟨j, ⟨s, k', hs, hk', hkey⟩, rfl⟩ := (hiff raw).1 hraw
    rw [entryKey_unique _ hunique, entryKey_unique _ hunique] at hkey
    obtain rfl : k = k' := List.append_cancel_left hkey
    by_cases same : j = id
    · refine .inl (bind_eq_ok.2 ⟨_, rfl, ?_⟩)
      simp only [RecordId.ofBytes_bytes, same, if_true]
    · refine .inr ⟨?_, j, s, same, hs, hk'⟩
      simp only [bind, Except.bind, RecordId.ofBytes_bytes, same, if_false]

end Represents

omit [Record ρ] in
/-- The new entries are worked out unless the search for some key fails. -/
theorem freshEntries_cases (bucket : Bucket ρ) (store : Store) (id : RecordId)
    (changes : List (Index.Change ρ)) :
    (∃ fresh, bucket.freshEntries store id changes = .ok fresh) ∨
      ∃ error, bucket.freshEntries store id changes = .error error
        ∧ ∃ change ∈ changes, ∃ k, change.index.unique = true ∧ change.new = some k
          ∧ bucket.checkUnique store change.index k id = .error error := by
  induction changes with
  | nil => exact .inl ⟨[], rfl⟩
  | cons change rest ih =>
    have later : ∀ error, (∃ c ∈ rest, ∃ k, c.index.unique = true ∧ c.new = some k
          ∧ bucket.checkUnique store c.index k id = .error error) →
        ∃ c ∈ change :: rest, ∃ k, c.index.unique = true ∧ c.new = some k
          ∧ bucket.checkUnique store c.index k id = .error error := by
      rintro error ⟨c, hc, fails⟩
      exact ⟨c, List.mem_cons_of_mem _ hc, fails⟩
    unfold freshEntries
    split
    · rcases ih with fresh | ⟨error, hrest, fails⟩
      · exact .inl fresh
      · exact .inr ⟨error, hrest, later error fails⟩
    · rename_i k hk
      dsimp only
      split
      · rename_i hunique
        cases hcheck : bucket.checkUnique store change.index k id with
        | error error =>
          exact .inr ⟨error, rfl, change, List.mem_cons_self, k, hunique, hk, hcheck⟩
        | ok _ =>
          rcases ih with ⟨fresh, hrest⟩ | ⟨error, hrest, fails⟩
          · exact .inl ⟨_, bind_eq_ok.2 ⟨(), rfl, bind_eq_ok.2 ⟨fresh, hrest, rfl⟩⟩⟩
          · exact .inr ⟨error, bind_eq_error.2 (.inr ⟨(), rfl, bind_eq_error.2 (.inl hrest)⟩),
              later error fails⟩
      · rcases ih with ⟨fresh, hrest⟩ | ⟨error, hrest, fails⟩
        · exact .inl ⟨_, bind_eq_ok.2 ⟨fresh, hrest, rfl⟩⟩
        · exact .inr ⟨error, bind_eq_error.2 (.inl hrest), later error fails⟩

/-! ## Plans -/

omit [Record ρ] in
theorem changes_eq_error {old new : Option ρ} {error : StoreError}
    (h : bucket.changes old new = .error error) :
    ∃ fault, Index.changes bucket.indexes old new = .error fault
      ∧ error = .invalidIndexKey bucket.name.text fault.index fault.reason := by
  unfold Bucket.changes at h
  split at h
  · cases h
  · rename_i fault hfault
    exact ⟨fault, hfault, (Except.error.inj h).symm⟩

namespace Represents

/-- Under the ID that it is given, a record is planned to be stored, or rejected. -/
theorem planPut_cases (h : bucket.Represents store.contents records) (hstore : store.Reliable)
    {bump : List Operation} (hassign : bucket.assignId store record = .ok (id, bump)) :
    (∃ plan, bucket.planPut store record = .ok plan) ∨
      ∃ error, bucket.planPut store record = .error error
        ∧ bucket.Rejects records id (Record.identified record id) error := by
  have hget := h.get_eq hstore id
  cases hvalid : Record.validate (Record.identified record id) with
  | error faults =>
    refine .inr ⟨.validation faults, ?_, .invalid faults hvalid⟩
    refine bind_eq_error.2 (.inr ⟨(id, bump), hassign, bind_eq_error.2 (.inl ?_)⟩)
    rw [hvalid]
    rfl
  | ok _ =>
  have hvalidated : (Record.validate (Record.identified record id)).mapError StoreError.validation =
      .ok () := mapError_eq_ok.2 hvalid
  cases hchanges : bucket.changes (records id) (some (Record.identified record id)) with
  | error error =>
    refine .inr ⟨error, ?_, ?_⟩
    · exact bind_eq_error.2 (.inr ⟨(id, bump), hassign, bind_eq_error.2 (.inr ⟨(), hvalidated,
        bind_eq_error.2 (.inr ⟨records id, hget, bind_eq_error.2 (.inl hchanges)⟩)⟩)⟩)
    · -- the stored version is sound, so it is the new one that is refused
      obtain ⟨fault, hfault, rfl⟩ := changes_eq_error hchanges
      obtain ⟨index, hindex, hold | hnew⟩ := Index.changesFrom_eq_error hfault
      · cases hrecord : records id with
        | none =>
          rw [hrecord] at hold
          cases hold
        | some old =>
          rw [hrecord, Index.keyOf_some_eq_error] at hold
          obtain ⟨reason, hreason, -⟩ := hold
          obtain ⟨key, hkey⟩ := (h.sound id old hrecord).indexed index hindex
          rw [hreason] at hkey
          cases hkey
      · obtain ⟨reason, hreason, rfl⟩ := Index.keyOf_some_eq_error.1 hnew
        exact .refused index reason hindex hvalid hreason
  | ok changes =>
  rcases freshEntries_cases bucket store id changes with
    ⟨fresh, hfresh⟩ | ⟨error, hfresh, change, hchange, k, hunique, hk, hcheck⟩
  · exact .inl ⟨_, bind_eq_ok.2 ⟨(id, bump), hassign, bind_eq_ok.2 ⟨(), hvalidated,
      bind_eq_ok.2 ⟨records id, hget, bind_eq_ok.2 ⟨changes, hchanges,
        bind_eq_ok.2 ⟨fresh, hfresh, rfl⟩⟩⟩⟩⟩⟩
  · have hlisted := changes_eq_ok.1 hchanges
    obtain ⟨hindex, -, hnew, -⟩ := Index.mem_changesFrom hlisted hchange
    rw [hk] at hnew
    have hkey : change.index.extract (Record.identified record id) = .ok (some k) :=
      Index.keyOf_some_eq_ok.1 hnew
    have indexed : ∀ index ∈ bucket.indexes,
        ∃ key, index.extract (Record.identified record id) = .ok key := by
      intro index hi
      obtain ⟨-, b, -, hb, -⟩ := Index.exists_mem_changesFrom hlisted hi
      exact ⟨b, Index.keyOf_some_eq_ok.1 hb⟩
    refine .inr ⟨error, ?_, ?_⟩
    · exact bind_eq_error.2 (.inr ⟨(id, bump), hassign, bind_eq_error.2 (.inr ⟨(), hvalidated,
        bind_eq_error.2 (.inr ⟨records id, hget, bind_eq_error.2 (.inr ⟨changes, hchanges,
          bind_eq_error.2 (.inl hfresh)⟩)⟩)⟩)⟩)
    · rcases h.checkUnique_cases hstore hindex hunique k id with hfree | ⟨hconflict, held⟩
      · rw [hfree] at hcheck
        cases hcheck
      · obtain rfl := Except.error.inj (hconflict.symm.trans hcheck)
        exact .taken change.index k hindex hunique hvalid indexed hkey held

/-- A record that is admitted under the ID that it is given can be put. -/
theorem exists_planPut (h : bucket.Represents store.contents records) (hstore : store.Reliable)
    {bump : List Operation} (hassign : bucket.assignId store record = .ok (id, bump))
    (hadmits : bucket.Admits records id (Record.identified record id)) :
    ∃ plan, bucket.planPut store record = .ok plan := by
  rcases h.planPut_cases hstore hassign with planned | ⟨error, -, rejects⟩
  · exact planned
  · exact absurd hadmits rejects.not_admits

theorem admits_of_planPut (h : bucket.Represents store.contents records) {plan : PutPlan ρ}
    (hplan : bucket.planPut store record = .ok plan) :
    bucket.Admits records plan.id plan.record := by
  obtain ⟨bump, old, changes, -, -, hvalid, hold, hchanges, hchecked, -⟩ := planPut_eq_ok hplan
  obtain rfl := h.eq_of_get hold
  have distinct := h.distinctKeys_put hchanges hchecked
  refine ⟨hvalid, fun index hindex => ?_, fun index hindex hunique j s k hs hk hsk => ?_⟩
  · obtain ⟨-, b, -, hb, -⟩ := Index.exists_mem_changesFrom hchanges hindex
    exact ⟨b, Index.keyOf_some_eq_ok.1 hb⟩
  · by_cases same : j = plan.id
    · exact same
    · exact distinct index hindex hunique j plan.id s plan.record k
        ((Function.update_of_ne same ..).trans hs) (Function.update_self ..) hsk hk

end Represents

/-! ## Puts -/

theorem put_ok_iff (hwrites : store.AcceptsWrites) :
    (∃ answer after, store.perform (bucket.put record) = (.ok answer, after)) ↔
      ∃ plan, bucket.planPut store record = .ok plan := by
  constructor
  · rintro ⟨answer, after, hput⟩
    rcases put_cases bucket hwrites record with ⟨error, hrun⟩ | ⟨plan, last, hplan, -, -, -⟩
    · rw [hrun] at hput
      cases hput
    · exact ⟨plan, hplan⟩
  · rintro ⟨plan, hplan⟩
    rcases put_cases bucket hwrites record with ⟨error, hrun⟩ | ⟨plan', last, -, hrun, -, -⟩
    · rw [put, Store.perform_bind, Store.perform_read, hplan] at hrun
      obtain ⟨after, hwrite, -⟩ := Store.apply_of_acceptsWrites hwrites plan.batch
      simp only [Store.perform_bind, Store.perform_write, hwrite, Store.perform_pure] at hrun
      cases hrun
    · exact ⟨_, last, hrun⟩

namespace Holds

variable {table : Table ρ}

/-- An ID is found for a record as long as there is room for it. -/
theorem assignId_cases (h : bucket.Holds store.contents table) (hstore : store.Reliable)
    (record : ρ) :
    (table.RoomFor record ∧ ∃ bump, bucket.assignId store record = .ok (table.idFor record, bump)) ∨
      (¬ table.RoomFor record
        ∧ bucket.assignId store record = .error (.exhausted bucket.name.text)) := by
  unfold assignId
  cases hid : Record.id record with
  | some id => exact .inl ⟨Table.roomFor_own hid, [], by rw [Table.idFor_own hid]⟩
  | none =>
    rw [Table.roomFor_new hid, Table.idFor_new hid]
    rcases Counter.reserve_cases hstore h.issued with ⟨room, hreserve⟩ | ⟨full, hreserve⟩
    · exact .inl ⟨room, [_], by rw [hreserve]; rfl⟩
    · exact .inr ⟨full, by rw [hreserve]; rfl⟩

/-- A put succeeds, or there is no room for the record, or the bucket rejects it under its ID. One
that fails changes nothing. -/
theorem perform_put_cases (h : bucket.Holds store.contents table) (hstore : store.Reliable)
    (record : ρ) :
    (∃ answer after, store.perform (bucket.put record) = (.ok answer, after)) ∨
      (¬ table.RoomFor record
        ∧ store.perform (bucket.put record) = (.error (.exhausted bucket.name.text), store)) ∨
      ∃ error, store.perform (bucket.put record) = (.error error, store)
        ∧ table.RoomFor record
        ∧ bucket.Rejects table.records (table.idFor record) (table.numbered record) error := by
  rcases h.assignId_cases hstore record with ⟨room, bump, hassign⟩ | ⟨full, hassign⟩
  · rcases h.represents.planPut_cases hstore hassign with planned | ⟨error, hplan, rejects⟩
    · exact .inl ((put_ok_iff hstore.acceptsWrites).2 planned)
    · exact .inr (.inr ⟨error, Store.perform_read_bind_of_error hplan _, room, rejects⟩)
  · have hplan : bucket.planPut store record = .error (.exhausted bucket.name.text) :=
      bind_eq_error.2 (.inl hassign)
    exact .inr (.inl ⟨full, Store.perform_read_bind_of_error hplan _⟩)

/-- A record is stored exactly if there is room for it and the bucket admits it under its ID. -/
theorem put_iff (h : bucket.Holds store.contents table) (hstore : store.Reliable) :
    (∃ answer after, store.perform (bucket.put record) = (.ok answer, after)) ↔
      table.RoomFor record
        ∧ bucket.Admits table.records (table.idFor record) (table.numbered record) := by
  rw [put_ok_iff hstore.acceptsWrites]
  rcases h.assignId_cases hstore record with ⟨room, bump, hassign⟩ | ⟨full, hassign⟩
  · constructor
    · rintro ⟨plan, hplan⟩
      obtain ⟨bump', old, changes, hassign', hrecord, -⟩ := planPut_eq_ok hplan
      have hid : table.idFor record = plan.id :=
        congrArg Prod.fst (Except.ok.inj (hassign.symm.trans hassign'))
      have admits := h.represents.admits_of_planPut hplan
      rw [hrecord, ← hid] at admits
      exact ⟨room, admits⟩
    · rintro ⟨-, admits⟩
      exact h.represents.exists_planPut hstore hassign admits
  · refine iff_of_false ?_ fun takes => full takes.1
    rintro ⟨plan, hplan⟩
    obtain ⟨bump, old, changes, hassign', -⟩ := planPut_eq_ok hplan
    rw [hassign] at hassign'
    cases hassign'

/-- A new record is stored exactly if there is a next ID and the bucket admits the record
under it. -/
theorem put_new_iff (h : bucket.Holds store.contents table) (hstore : store.Reliable)
    (hnew : Record.id record = none) :
    (∃ answer after, store.perform (bucket.put record) = (.ok answer, after)) ↔
      table.HasRoom ∧ bucket.Admits table.records table.next (Record.withId record table.next) := by
  rw [h.put_iff hstore, Table.roomFor_new hnew, Table.idFor_new hnew, Table.numbered_new hnew]

/-- A record with an ID is stored exactly if the bucket admits it under this ID. -/
theorem put_own_iff (h : bucket.Holds store.contents table) (hstore : store.Reliable)
    (hown : Record.id record = some id) :
    (∃ answer after, store.perform (bucket.put record) = (.ok answer, after)) ↔
      bucket.Admits table.records id record := by
  rw [h.put_iff hstore, Table.idFor_own hown, Table.numbered_own hown,
    and_iff_right (Table.roomFor_own hown)]

/-- Nothing new is stored once the counter is at its greatest number. -/
theorem put_exhausted (h : bucket.Holds store.contents table) (hstore : store.Reliable)
    (hnew : Record.id record = none) (full : ¬ table.HasRoom) :
    store.perform (bucket.put record) = (.error (.exhausted bucket.name.text), store) := by
  rw [← Table.roomFor_new hnew] at full
  rcases h.perform_put_cases hstore record with succeeded | ⟨-, refused⟩ | ⟨-, -, room, -⟩
  · exact absurd ((h.put_iff hstore).1 succeeded).1 full
  · exact refused
  · exact absurd room full

theorem put_harmless (h : bucket.Holds store.contents table) (hstore : store.Reliable)
    (record : ρ) : Harmless StoreError.isFatal (store.perform (bucket.put record)).1 := by
  rcases h.perform_put_cases hstore record with
    ⟨answer, after, hput⟩ | ⟨-, hput⟩ | ⟨error, hput, -, rejects⟩
  · rw [hput]
    exact .ok answer
  · rw [hput]
    exact .error rfl
  · rw [hput]
    exact .error rejects.isFatal_eq

end Holds

end Bucket

end Gazette
