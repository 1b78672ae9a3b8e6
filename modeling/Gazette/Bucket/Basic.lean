import Gazette.Bucket.Index
import Gazette.Store.Counter

set_option autoImplicit false

/-! # Buckets

A bucket holds the records of one type together with their index entries. In the store below,
with `name` for the name of the bucket and `id` for the eight octets of an ID:

    name ":" id                          the record
    "_i." name "_" index ":" key         an entry of a unique index
    "_i." name "_" index ":" key id      an entry of any other index
    "_s." name                           the counter that issues IDs

The value of an entry is the ID of the record. A record and all of its entries are written by
one batch. The batch is worked out first, by reading alone (`planPut`, `planDelete`), so a
refused record leaves the store as it was.
-/

namespace Gazette

variable {ρ : Type}

/-- A named collection of records with its declared indexes, no two of the same name. -/
structure Bucket (ρ : Type) where
  name : Name
  indexes : List (Index ρ) := []
  /-- How many entries a query fetches at a time. -/
  pageSize : Nat := 64
  distinct : (indexes.map (·.name)).Nodup := by decide

namespace Bucket

/-! ## Declaration -/

/-- Read a name, naming the store's error for a text that is none. -/
def nameOf (s : String) : Except StoreError Name :=
  match Name.ofString s with
  | .ok name => .ok name
  | .error fault => .error (.invalidName s fault)

/-- A bucket without indexes. -/
def ofName (s : String) : Except StoreError (Bucket ρ) := do
  let name ← nameOf s
  .ok { name, indexes := [], distinct := List.nodup_nil }

/-- The bucket with one more index. -/
def withIndex (bucket : Bucket ρ) (s : String) (unique : Bool)
    (extract : ρ → Except String (Option Bytes)) : Except StoreError (Bucket ρ) := do
  let name ← nameOf s
  if h : name ∈ bucket.indexes.map (·.name) then
    .error (.duplicateIndex bucket.name.text s)
  else
    .ok { bucket with
      indexes := bucket.indexes ++ [{ name, unique, extract }]
      distinct := by
        simp only [List.map_append, List.map_cons, List.map_nil]
        refine List.nodup_append.2 ⟨bucket.distinct, by simp, fun a ha b hb same => h ?_⟩
        rwa [← List.mem_singleton.1 hb, ← same] }

/-- The bucket with another page size; a page holds at least one entry. -/
def withPageSize (bucket : Bucket ρ) (pageSize : Nat) : Bucket ρ :=
  { bucket with pageSize := max pageSize 1 }

/-! ## Keys -/

/-- The counter that issues the bucket's IDs. -/
def counter (bucket : Bucket ρ) : Counter := ⟨bucket.name⟩

/-- The common start of the keys of all records. -/
def recordStart (bucket : Bucket ρ) : Bytes := bucket.name.bytes ++ Utf8.encode ":"

/-- The key of the record with this ID. -/
def recordKey (bucket : Bucket ρ) (id : RecordId) : Bytes := bucket.recordStart ++ id.bytes

/-- The common start of the entries of an index. -/
def entryStart (bucket : Bucket ρ) (index : Index ρ) : Bytes :=
  Utf8.encode "_i." ++ bucket.name.bytes ++ Utf8.encode "_" ++ index.name.bytes ++ Utf8.encode ":"

/-- Where the entries for `key` start. -/
def boundKey (bucket : Bucket ρ) (index : Index ρ) (key : Bytes) : Bytes :=
  bucket.entryStart index ++ key

/-- The key of the entry of a record under `key`. -/
def entryKey (bucket : Bucket ρ) (index : Index ρ) (key : Bytes) (id : RecordId) : Bytes :=
  bucket.boundKey index key ++ if index.unique then [] else id.bytes

/-! ## Reading records -/

variable [Record ρ]

/-- Read the stored record with this ID from the bytes under `key`. -/
def decode (key raw : Bytes) (id : RecordId) : Except StoreError ρ :=
  match (Record.codec : Codec ρ).read raw with
  | .error fault => .error (.corrupt key (.unreadable fault))
  | .ok record =>
    if Record.id record = some id then .ok record else .error (.corrupt key .foreignId)

/-- The record with this ID, if there is one. -/
def get (bucket : Bucket ρ) (store : Store) (id : RecordId) : Except StoreError (Option ρ) := do
  match ← store.get (bucket.recordKey id) with
  | none => .ok none
  | some raw => some <$> decode (bucket.recordKey id) raw id

/-- The record with this ID, which must be there. -/
def one (bucket : Bucket ρ) (store : Store) (id : RecordId) : Except StoreError ρ := do
  match ← bucket.get store id with
  | some record => .ok record
  | none => .error (.notFound bucket.name.text id)

omit [Record ρ] in
/-- Whether there is a record with this ID. -/
def has (bucket : Bucket ρ) (store : Store) (id : RecordId) : Except StoreError Bool :=
  store.has (bucket.recordKey id)

/-! ## Writing records -/

/-- The changes of the index keys between two versions of a record. -/
def changes (bucket : Bucket ρ) (old new : Option ρ) :
    Except StoreError (List (Index.Change ρ)) :=
  match Index.changes bucket.indexes old new with
  | .ok changes => .ok changes
  | .error fault => .error (.invalidIndexKey bucket.name.text fault.index fault.reason)

/-- The ID of a record, with the write that issues it if the record has none yet. -/
def assignId (bucket : Bucket ρ) (store : Store) (record : ρ) :
    Except StoreError (RecordId × List Operation) :=
  match Record.id record with
  | some id => .ok (id, [])
  | none => (fun (id, bump) => (id, [bump])) <$> bucket.counter.reserve store

omit [Record ρ] in
/-- Check that no other record holds `key` in a unique index. -/
def checkUnique (bucket : Bucket ρ) (store : Store) (index : Index ρ) (key : Bytes)
    (id : RecordId) : Except StoreError Unit := do
  let entry := bucket.entryKey index key id
  match ← store.get entry with
  | none => .ok ()
  | some raw =>
    match RecordId.ofBytes raw with
    | .error fault => .error (.corrupt entry (.entryWidth fault))
    | .ok owner =>
      if owner = id then .ok ()
      else .error (.conflict bucket.name.text index.name.text key)

omit [Record ρ] in
/-- The deletions of the entries under old keys. -/
def staleEntries (bucket : Bucket ρ) (id : RecordId) (changes : List (Index.Change ρ)) :
    List Operation :=
  changes.filterMap fun change =>
    change.old.map fun key => .delete (bucket.entryKey change.index key id)

omit [Record ρ] in
/-- The entries under new keys, once it is known that no unique one is taken. -/
def freshEntries (bucket : Bucket ρ) (store : Store) (id : RecordId) :
    List (Index.Change ρ) → Except StoreError (List Operation)
  | [] => .ok []
  | change :: rest =>
    match change.new with
    | none => bucket.freshEntries store id rest
    | some key => do
      if change.index.unique then bucket.checkUnique store change.index key id
      let later ← bucket.freshEntries store id rest
      .ok (.set (bucket.entryKey change.index key id) id.bytes :: later)

/-- What a put comes down to: the record with its ID, and the writes that store it. -/
structure PutPlan (ρ : Type) where
  id : RecordId
  record : ρ
  batch : List Operation

/-- Work out a put: assign an ID if the record has none, validate the record, compare it with the
stored version, and look for keys of unique indexes that are taken. -/
def planPut (bucket : Bucket ρ) (store : Store) (record : ρ) :
    Except StoreError (PutPlan ρ) := do
  let (id, bump) ← bucket.assignId store record
  let record := Record.identified record id
  (Record.validate record).mapError .validation
  let old ← bucket.get store id
  let changes ← bucket.changes old (some record)
  let fresh ← bucket.freshEntries store id changes
  let write := .set (bucket.recordKey id) (Record.codec.encode record)
  .ok ⟨id, record, bump ++ write :: bucket.staleEntries id changes ++ fresh⟩

/-- Store a record and all of its index entries. A record without an ID is given the next one of
the bucket. The answer is the ID, and the caller's record with the ID written into it. -/
def put (bucket : Bucket ρ) (record : ρ) : Tx StoreError (RecordId × ρ) := do
  let plan ← Tx.read (bucket.planPut · record)
  Tx.write plan.batch
  return (plan.id, Record.withId record plan.id)

/-- Work out a removal: none if there is no such record. -/
def planDelete (bucket : Bucket ρ) (store : Store) (id : RecordId) :
    Except StoreError (Option (List Operation)) := do
  match ← bucket.get store id with
  | none => .ok none
  | some old =>
    let changes ← bucket.changes (some old) none
    .ok (some (.delete (bucket.recordKey id) :: bucket.staleEntries id changes))

/-- Remove a record and all of its index entries. The answer says whether there was one. -/
def delete (bucket : Bucket ρ) (id : RecordId) : Tx StoreError Bool := do
  match ← Tx.read (bucket.planDelete · id) with
  | none => return false
  | some batch =>
    Tx.write batch
    return true

end Bucket

end Gazette
