import Gazette.Proofs.Bucket.Writing
import Gazette.Proofs.Wire
import Gazette.Sample.Note

set_option autoImplicit false

/-! # A bucket over a whole history

A history is a list of puts and deletes that starts on a store with nothing of the bucket's in
it. Whatever fails on the way, the store ends up holding the records that a reader finds, their
index entries, and nothing else (`History.represents`). How the records came about leaves no
trace: two histories that end with the same records end with the same bytes.
-/

namespace Gazette.Bucket

variable {ρ : Type} [Record ρ]

/-- A call that may change a bucket. -/
inductive Call (ρ : Type) where
  | put (record : ρ)
  | delete (id : RecordId)

/-- The store after a call, whether it fails or not. -/
def call (bucket : Bucket ρ) (store : Store) : Call ρ → Store
  | .put record => (store.perform (bucket.put record)).2
  | .delete id => (store.perform (bucket.delete id)).2

/-- The store after some calls. -/
def callAll (bucket : Bucket ρ) (store : Store) (calls : List (Call ρ)) : Store :=
  calls.foldl bucket.call store

/-- What the call puts can be read back from its bytes. -/
def Call.Storable : Call ρ → Prop
  | .put record => Record.Storable record
  | .delete _ => True

/-! ## One call, all calls -/

variable {bucket : Bucket ρ} {store : Store} {records : RecordId → Option ρ}

theorem Represents.call [LawfulRecord ρ] (h : bucket.Represents store.contents records)
    (haccepts : store.AcceptsWrites) {call : Call ρ} (hstorable : call.Storable) :
    (bucket.call store call).AcceptsWrites ∧
      ∃ records', bucket.Represents (bucket.call store call).contents records' := by
  cases call with
  | put record =>
    rcases put_cases bucket haccepts record with
      ⟨error, hrun⟩ | ⟨plan, after, hplan, hrun, hcontents, hafter⟩
    · simp only [Bucket.call, hrun]
      exact ⟨haccepts, records, h⟩
    · simp only [Bucket.call, hrun, hcontents]
      exact ⟨hafter, _, h.planPut hplan hstorable⟩
  | delete id =>
    rcases delete_cases bucket haccepts id with
      ⟨error, hrun⟩ | ⟨-, hrun⟩ | ⟨batch, after, hplan, hrun, hcontents, hafter⟩
    · simp only [Bucket.call, hrun]
      exact ⟨haccepts, records, h⟩
    · simp only [Bucket.call, hrun]
      exact ⟨haccepts, records, h⟩
    · simp only [Bucket.call, hrun, hcontents]
      exact ⟨hafter, _, h.planDelete hplan⟩

theorem Represents.callAll [LawfulRecord ρ] (h : bucket.Represents store.contents records)
    (haccepts : store.AcceptsWrites) {calls : List (Call ρ)}
    (hstorable : ∀ call ∈ calls, call.Storable) :
    ∃ records', bucket.Represents (bucket.callAll store calls).contents records' := by
  induction calls generalizing store records with
  | nil => exact ⟨records, h⟩
  | cons call rest ih =>
    obtain ⟨hafter, records', h'⟩ := h.call haccepts (hstorable call List.mem_cons_self)
    exact ih h' hafter fun a ha => hstorable a (List.mem_cons_of_mem _ ha)

/-! ## Histories -/

/-- Calls on a bucket, made on a store that accepts its batches and starts without any of its
records and entries. Reads may be refused. -/
structure History (bucket : Bucket ρ) where
  start : Store
  calls : List (Call ρ)
  accepts : start.AcceptsWrites
  vacant : ∀ key, bucket.Covers key → start.contents.get? key = none
  storable : ∀ call ∈ calls, call.Storable

/-- The store at the end. -/
def History.final (history : bucket.History) : Store :=
  bucket.callAll history.start history.calls

/-- At the end of a history the record keys and entry keys hold exactly the records that a
reader finds, with their index entries, and these records alone settle every byte there. -/
theorem History.represents [LawfulRecord ρ] (history : bucket.History) :
    bucket.Represents history.final.contents (bucket.stored history.final.contents)
      ∧ (∀ id found, bucket.get history.final id = .ok found →
          found = bucket.stored history.final.contents id)
      ∧ ∀ other : bucket.History,
          bucket.stored other.final.contents = bucket.stored history.final.contents →
          ∀ key, bucket.Covers key →
            other.final.contents.get? key = history.final.contents.get? key := by
  have settled : ∀ h : bucket.History,
      bucket.Represents h.final.contents (bucket.stored h.final.contents) := by
    intro h
    obtain ⟨records, represents⟩ :=
      (represents_nothing h.vacant).callAll h.accepts h.storable
    exact represents.stored_eq.symm ▸ represents
  refine ⟨settled history, fun id found hget => (settled history).eq_of_get hget, ?_⟩
  intro other hsame key hkey
  exact (settled history).eq_of_records (hsame ▸ settled other) hkey

/-! ## Notes, for example -/

instance : LawfulRecord Note where
  id_withId _ _ := rfl

theorem readable_note {note : Note} (valid : Record.validate note = .ok ()) :
    Record.Readable note := by
  have checked := ValidationErrors.result_ofChecks.1 valid
  simp only [List.forall_mem_cons] at checked
  have reads : Note.codec.ReadsBack note := by
    refine Codec.ReadsBack.map ?_ rfl
    exact (Codec.readsBack_optionalId _).pair
      ((Codec.readsBack_of_check checked.1 (by decide)).pair
        ((Codec.readsBack_word8 _).pair (Codec.readsBack_int64 _)))
  exact reads.read_encode

theorem storable_note (note : Note) : Record.Storable note :=
  fun _ valid => readable_note valid

theorem storable_notes (calls : List (Call Note)) : ∀ call ∈ calls, call.Storable := by
  intro call _
  cases call with
  | put note => exact storable_note note
  | delete id => trivial

/-- A store that holds what some calls leave of any notes represents them. -/
theorem exists_represents_notes (bucket : Bucket Note) (calls : List (Call Note)) :
    ∃ records, bucket.Represents
      (Store.memory (bucket.callAll .memory calls).contents).contents records := by
  have empty : bucket.Represents Store.memory.contents fun _ => none :=
    represents_nothing fun _ _ => rfl
  have accepts : Store.memory.AcceptsWrites := (Store.reliable_memory .empty).acceptsWrites
  rw [Store.contents_memory]
  exact empty.callAll accepts (storable_notes calls)

/-- Notes by author, one for each, and by topic. -/
def notes : Bucket Note where
  name := { text := "note" }
  indexes :=
    [{ name := { text := "author" }, unique := true, extract := Note.authorKey },
     { name := { text := "topic" }, unique := false, extract := Note.topicKey }]

/-- The second note is refused, the third has its own ID and goes again, and the first loses its
topic. -/
def noteHistory : notes.History where
  start := .memory
  calls :=
    [.put ⟨none, "ada", 1, 5⟩, .put ⟨none, "ada", 2, 6⟩, .put ⟨some ⟨7⟩, "bob", 2, 7⟩,
     .put ⟨some ⟨1⟩, "ada", 0, 8⟩, .delete ⟨7⟩, .delete ⟨9⟩]
  accepts := fun _ => rfl
  vacant _ _ := rfl
  storable := storable_notes _

theorem History.represents_notes :
    noteHistory.final.contents.entries =
        [(notes.entryKey notes.indexes[0] (Utf8.encode "ada") ⟨1⟩, RecordId.bytes ⟨1⟩),
         (notes.counter.key, Counter.valueOf 1),
         (notes.recordKey ⟨1⟩, Note.codec.encode ⟨some ⟨1⟩, "ada", 0, 8⟩)]
      ∧ notes.Represents noteHistory.final.contents (notes.stored noteHistory.final.contents) :=
  ⟨by decide +kernel, noteHistory.represents.1⟩

end Gazette.Bucket
