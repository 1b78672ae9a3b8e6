import Gazette.Proofs.Bucket.Query
import Gazette.Proofs.Bucket.Writing
import Gazette.Proofs.Store.Alike
import Gazette.Sample.Note
import Mathlib.Logic.Relation

set_option autoImplicit false

/-! # Buckets that share a store

Every write of a bucket or a counter is made under a key that its name owns, and no key has two
owners. So what other buckets and counters do on the way is not to be seen from a bucket: neither
in its keys nor in anything that is read through it, on any store, also on one that refuses some
of the accesses (`Bucket.names_isolated`).

A query of an index comes to entries of this index alone, wherever its bounds are and whatever
happens to the store while it is under way.
-/

namespace Gazette

/-! ## Walks through an index -/

namespace IndexScan

variable {keys : Bytes → Prop} {store store' : Store}

theorem next_eq (scan : IndexScan) (store : Store) :
    scan.next store =
      match scan.entries.next store with
      | (none, entries) => (none, { scan with entries })
      | (some (.error error), entries) => (some (.error error), { scan with entries })
      | (some (.ok entry), entries) =>
        if scan.skips entry then next { scan with entries } store
        else (some (idOf entry), { scan with entries }) := by
  rw [next]
  split <;> simp_all

theorem next_congr (scan : IndexScan) (h : scan.entries.Within keys)
    (halike : store.Alike keys store') : scan.next store' = scan.next store := by
  fun_induction IndexScan.next scan store with
  | case1 scan entries hnext => rw [next_eq, h.next_congr halike, hnext]
  | case2 scan error entries hnext => rw [next_eq, h.next_congr halike, hnext]
  | case3 scan entry entries hnext skipped ih =>
    rw [next_eq, h.next_congr halike, hnext]
    simp only [skipped, if_true]
    exact ih (h.next hnext).1
  | case4 scan entry entries hnext taken =>
    rw [next_eq, h.next_congr halike, hnext]
    simp only [taken, if_false, Bool.false_eq_true]

end IndexScan

namespace Bucket

variable {ρ : Type} {bucket : Bucket ρ} {index : Index ρ} {scan : IndexScan}

/-- A query of an index, as it is made or after it has been under way for some entries. The store
may be another one each time. -/
inductive Queries (bucket : Bucket ρ) (index : Index ρ) : IndexScan → Prop
  | exact {name : String} {key : Bytes} {scan : IndexScan}
      (named : bucket.indexNamed name = .ok index) (made : bucket.query name key = .ok scan) :
      Queries bucket index scan
  | startingWith {name : String} {start : Bytes} {scan : IndexScan}
      (named : bucket.indexNamed name = .ok index)
      (made : bucket.queryPrefix name start = .ok scan) : Queries bucket index scan
  | range {name : String} {start : Bytes} {upper : Option Bytes} {scan : IndexScan}
      (named : bucket.indexNamed name = .ok index)
      (made : bucket.queryRange name start upper = .ok scan) : Queries bucket index scan
  | after {scan : IndexScan} {store : Store} {item : Option (Except StoreError Entry)}
      {entries : RangeScan} (h : Queries bucket index scan)
      (step : scan.entries.next store = (item, entries)) :
      Queries bucket index { scan with entries }

theorem within_startingWith (bucket : Bucket ρ) (index : Index ρ) (key : Bytes)
    (pageSize : Nat) :
    (RangeScan.startingWith (bucket.boundKey index key) pageSize).Within
      (bucket.entryStart index <+: ·) :=
  RangeScan.within_ofRange (fun e first last =>
    (bucket.entryStart_prefix_boundKey index key).trans
      ((Bytes.prefix_iff _ e).2 ⟨first, last⟩)) pageSize

/-- A query comes to entries of its index alone. -/
theorem Queries.within (h : bucket.Queries index scan) :
    scan.entries.Within (bucket.entryStart index <+: ·) := by
  induction h with
  | exact named made =>
    rw [query, named] at made
    cases made
    exact bucket.within_startingWith index _ _
  | startingWith named made =>
    rw [queryPrefix, named] at made
    cases made
    exact bucket.within_startingWith index _ _
  | range named made =>
    rw [queryRange_eq named] at made
    cases made
    exact RangeScan.within_ofRange (fun e => entryStart_prefix_of_range _) _
  | after h step ih => exact (ih.next step).1

/-- Nor does it matter that an exact query passes over some of the entries. -/
theorem Queries.next (h : bucket.Queries index scan) (store : Store) :
    bucket.Queries index (scan.next store).2 := by
  fun_induction IndexScan.next scan store with
  | case1 scan entries step => exact h.after step
  | case2 scan error entries step => exact h.after step
  | case3 scan entry entries step skipped ih => exact ih (h.after step)
  | case4 scan entry entries step taken => exact h.after step

/-! ## Steps under other names -/

/-- What may happen to a store that is shared, without the name coming into it: a put or a delete
of another bucket, or a number issued by another counter. -/
inductive Foreign (name : Name) : Store → Store → Prop
  | put {σ : Type} [Record σ] (other : Bucket σ) (apart : other.name ≠ name) (record : σ)
      (store : Store) : Foreign name store (store.perform (other.put record)).2
  | delete {σ : Type} [Record σ] (other : Bucket σ) (apart : other.name ≠ name) (id : RecordId)
      (store : Store) : Foreign name store (store.perform (other.delete id)).2
  | next (counter : Counter) (apart : counter.name ≠ name) (store : Store) :
      Foreign name store (store.perform counter.next).2

section

variable {name : Name}

theorem put_writesOutside {σ : Type} [Record σ] (other : Bucket σ) (apart : other.name ≠ name)
    (record : σ) : (other.put record).WritesOutside name.Owns := by
  refine .read_bind fun store plan hplan => .write_bind (fun write hwrite owned => ?_) trivial
  exact apart (Name.owner_unique (owns_of_mem_planPut hplan hwrite) owned)

theorem delete_writesOutside {σ : Type} [Record σ] (other : Bucket σ) (apart : other.name ≠ name)
    (id : RecordId) : (other.delete id).WritesOutside name.Owns := by
  refine .read_bind fun store batch hplan => ?_
  cases batch with
  | none => trivial
  | some batch =>
    refine .write_bind (fun write hwrite owned => ?_) trivial
    obtain ⟨old, changes, -, -, rfl⟩ := planDelete_eq_ok hplan
    exact apart (Name.owner_unique (owns_of_mem_replacement hwrite) owned)

theorem next_writesOutside (counter : Counter) (apart : counter.name ≠ name) :
    counter.next.WritesOutside name.Owns := by
  refine .read_bind fun store reserved hreserve => .write_bind ?_ trivial
  obtain ⟨id, bump⟩ := reserved
  obtain ⟨last, -, -, -, rfl⟩ := Counter.reserve_eq_ok hreserve
  intro write hwrite owned
  rw [List.mem_singleton.1 hwrite] at owned
  exact apart (Name.owner_unique counter.owns_key owned)

/-- Nothing that is read under the keys of a name tells of what happened under others. -/
theorem Foreign.alike {store store' : Store} (h : Foreign name store store') :
    store.Alike name.Owns store' := by
  cases h with
  | put other apart record => exact store.alike_perform (put_writesOutside other apart record)
  | delete other apart id => exact store.alike_perform (delete_writesOutside other apart id)
  | next counter apart => exact store.alike_perform (next_writesOutside counter apart)

theorem alike_of_foreign {store store' : Store}
    (h : Relation.ReflTransGen (Foreign name) store store') : store.Alike name.Owns store' := by
  induction h with
  | refl => exact .refl store
  | tail _ last ih => exact ih.trans last.alike

end

/-! ## A bucket that nothing has happened to -/

/-- Nothing in the bucket tells the two stores apart: not its record keys, the entries of its
indexes and its counter, and not what is read through it, by a query under way also. -/
structure Undisturbed [Record ρ] (bucket : Bucket ρ) (store store' : Store) : Prop where
  record : ∀ id, store'.contents.get? (bucket.recordKey id) =
    store.contents.get? (bucket.recordKey id)
  entry : ∀ index k id, store'.contents.get? (bucket.entryKey index k id) =
    store.contents.get? (bucket.entryKey index k id)
  counter : store'.contents.get? bucket.counter.key = store.contents.get? bucket.counter.key
  get : ∀ id, bucket.get store' id = bucket.get store id
  has : ∀ id, bucket.has store' id = bucket.has store id
  one : ∀ id, bucket.one store' id = bucket.one store id
  current : bucket.counter.current store' = bucket.counter.current store
  next : ∀ index scan, bucket.Queries index scan → scan.next store' = scan.next store
  items : ∀ index scan, bucket.Queries index scan → scan.items store' = scan.items store
  load : ∀ index scan, bucket.Queries index scan → bucket.load store' scan = bucket.load store scan

theorem undisturbed_of_alike [Record ρ] {store store' : Store}
    (h : store.Alike bucket.name.Owns store') : bucket.Undisturbed store store' := by
  have get : ∀ id, bucket.get store' id = bucket.get store id := fun id => by
    rw [Bucket.get, Bucket.get, h.get _ (bucket.owns_recordKey id)]
  have within : ∀ index scan, bucket.Queries index scan →
      scan.entries.Within bucket.name.Owns := fun index scan hscan =>
    hscan.within.imp fun _ => bucket.owns_of_entryStart
  have items : ∀ index scan, bucket.Queries index scan → scan.items store' = scan.items store :=
    fun index scan hscan => by
      rw [IndexScan.items, IndexScan.items, (within index scan hscan).items_congr h]
  constructor
  case record => exact fun id => h.contents _ (bucket.owns_recordKey id)
  case entry => exact fun index k id => h.contents _ (bucket.owns_entryKey index k id)
  case counter => exact h.contents _ bucket.owns_counterKey
  case get => exact get
  case has => exact fun id => by rw [Bucket.has, Bucket.has, Store.has, Store.has,
    h.get _ (bucket.owns_recordKey id)]
  case one => exact fun id => by rw [Bucket.one, Bucket.one, get]
  case current => rw [Counter.current, Counter.current, h.get _ bucket.owns_counterKey]
  case next => exact fun index scan hscan => scan.next_congr (within index scan hscan) h
  case items => exact items
  case load =>
    intro index scan hscan
    simp only [Bucket.load, items index scan hscan, get]

/-! ## Entries of one index -/

/-- The key is that of an entry of this index, of no other entry, of no record and no counter. -/
structure EntryOf (bucket : Bucket ρ) (index : Index ρ) (key : Bytes) : Prop where
  starts : bucket.entryStart index <+: key
  no_record : ∀ {σ : Type} (other : Bucket σ) (id : RecordId), key ≠ other.recordKey id
  no_counter : ∀ counter : Counter, key ≠ counter.key
  no_other : ∀ {σ : Type} (other : Bucket σ) (index' : Index σ) (k : Bytes) (id : RecordId),
    key = other.entryKey index' k id → other.name = bucket.name ∧ index'.name = index.name

theorem entryOf_of_starts {key : Bytes} (h : bucket.entryStart index <+: key) :
    bucket.EntryOf index key where
  starts := h
  no_record other id same := bucket.not_entryStart_prefix_recordKey other index id (same ▸ h)
  no_counter counter same := bucket.not_entryStart_prefix_counterKey index counter (same ▸ h)
  no_other other index' k id same :=
    bucket.entryStart_names_eq other h (same ▸ other.entryStart_prefix_entryKey index' k id)

/-- What happens to a store under other names does not show in a bucket. The entries of its
indexes have no keys in common, and a query of an index comes to entries of this index alone, of
no other bucket and of no other kind. -/
theorem names_isolated [Record ρ] (bucket : Bucket ρ) :
    (∀ store store', Relation.ReflTransGen (Foreign bucket.name) store store' →
        bucket.Undisturbed store store')
      ∧ (∀ (index index' : Index ρ) (k k' : Bytes) (i j : RecordId), index.name ≠ index'.name →
          bucket.entryKey index k i ≠ bucket.entryKey index' k' j)
      ∧ ∀ index scan store e entries, bucket.Queries index scan →
          scan.entries.next store = (some (.ok e), entries) → bucket.EntryOf index e.1 := by
  refine ⟨fun store store' h => undisturbed_of_alike (alike_of_foreign h), ?_, ?_⟩
  · intro index index' k k' i j apart same
    have entry := entryOf_of_starts (bucket.entryStart_prefix_entryKey index' k' j)
    exact apart (entry.no_other bucket index k i same.symm).2
  · intro index scan store e entries hscan step
    exact entryOf_of_starts ((hscan.within.next step).2 e rfl)

/-! ## Neighbours, for example -/

/-- Notes whose bucket and index have names that run into those of `long`. -/
def short : Bucket Note where
  name := { text := "n" }
  indexes :=
    [{ name := { text := "writer" }, unique := true, extract := Note.authorKey },
     { name := { text := "writertopic" }, unique := false, extract := Note.topicKey }]

def long : Bucket Note where
  name := { text := "nwriter" }
  indexes := [{ name := { text := "theme" }, unique := false, extract := Note.topicKey }]

/-- A note is put into each of the two buckets. -/
theorem names_isolated_neighbours :
    let store := (Store.memory.perform (short.put ⟨none, "ada", 1, 5⟩)).2
    let store' := (store.perform (long.put ⟨none, "bob", 1, 5⟩)).2
    short.Undisturbed store store'
      ∧ short.entryKey short.indexes[0] [0x3a] ⟨1⟩ ≠ short.entryKey short.indexes[1] [] ⟨1⟩
      ∧ ∃ scan e entries, short.queryRange "writer" [] none = .ok scan
        ∧ scan.entries.next store' = (some (.ok e), entries)
        ∧ short.EntryOf short.indexes[0] e.1 := by
  intro store store'
  obtain ⟨undisturbed, disjoint, own⟩ := names_isolated short
  let scan : IndexScan :=
    ⟨RangeScan.ofRange (short.boundKey short.indexes[0] [])
      (short.rangeBound short.indexes[0] none) short.pageSize, none⟩
  have made : short.queryRange "writer" [] none = .ok scan := rfl
  let e : Entry := (short.entryKey short.indexes[0] (Utf8.encode "ada") ⟨1⟩, RecordId.bytes ⟨1⟩)
  have first : (scan.entries.next store').1 = some (.ok e) := by decide +kernel
  have step : scan.entries.next store' = (some (.ok e), (scan.entries.next store').2) :=
    Prod.ext first rfl
  exact ⟨undisturbed store store' (.single (.put long (by decide) _ store)),
    disjoint _ _ _ _ _ _ (by decide), scan, e, _, made, step,
    own _ scan store' e _ (.range rfl made) step⟩

end Bucket

end Gazette
