import Gazette.Bucket.Basic
import Gazette.Proofs.Identifier
import Gazette.Proofs.Text.Utf8
import Mathlib.Data.List.Nodup

set_option autoImplicit false

/-! # The layout of keys

A name holds none of the marks `:`, `_` and `.`, so it ends at the first mark of a key and the
key says whose it is: `Name.Owns` lists the three shapes that a key of a bucket can have, and no
key has two owners (`Name.owner_unique`). Within a bucket the record keys, the entries of each
index and the counter are kept apart in the same way. A record key gives back its ID, and an
entry key its index and extracted key, and, if the index is not unique, its ID.
-/

namespace Gazette

/-! ## Names -/

namespace Name

/-- A name is not empty and holds no marks. -/
theorem bytes_spec (name : Name) : name.bytes ≠ [] ∧ ∀ octet ∈ name.bytes, isNameByte octet := by
  have valid := name.valid
  unfold fault? at valid
  split at valid
  · cases valid
  · rename_i notEmpty
    split at valid
    · cases valid
    · split at valid
      · rename_i all
        exact ⟨fun empty => notEmpty (List.isEmpty_iff.2 empty), List.all_eq_true.1 all⟩
      · cases valid

theorem bytes_injective {n m : Name} (h : n.bytes = m.bytes) : n = m := by
  obtain ⟨text, valid⟩ := n
  obtain ⟨text', valid'⟩ := m
  obtain rfl : text = text' := Utf8.encode_injective h
  rfl

/-- Two strings that are cut at their first mark agree in both parts. -/
theorem cut_inj {xs ys : Bytes} {a b : UInt8} {s t : Bytes} (hx : ∀ x ∈ xs, isNameByte x)
    (hy : ∀ y ∈ ys, isNameByte y) (ha : isNameByte a = false) (hb : isNameByte b = false)
    (h : xs ++ a :: s = ys ++ b :: t) : xs = ys ∧ a = b ∧ s = t := by
  induction xs generalizing ys with
  | nil =>
    cases ys with
    | nil => exact ⟨rfl, List.cons.inj h⟩
    | cons y ys =>
      -- the mark that ends the first string stands inside the second
      obtain ⟨rfl, -⟩ := List.cons.inj h
      exact absurd ((hy a List.mem_cons_self).symm.trans ha) (by decide)
  | cons x xs ih =>
    cases ys with
    | nil =>
      obtain ⟨rfl, -⟩ := List.cons.inj h
      exact absurd ((hx x List.mem_cons_self).symm.trans hb) (by decide)
    | cons y ys =>
      obtain ⟨rfl, rests⟩ := List.cons.inj h
      obtain ⟨rfl, marks⟩ := ih (fun z hz => hx z (List.mem_cons_of_mem _ hz))
        (fun z hz => hy z (List.mem_cons_of_mem _ hz)) rests
      exact ⟨rfl, marks⟩

/-- A name ends at the first mark. -/
theorem append_mark_inj {n m : Name} {a b : UInt8} {s t : Bytes} (ha : isNameByte a = false)
    (hb : isNameByte b = false) (h : n.bytes ++ a :: s = m.bytes ++ b :: t) :
    n = m ∧ a = b ∧ s = t := by
  obtain ⟨names, rest⟩ := cut_inj n.bytes_spec.2 m.bytes_spec.2 ha hb h
  exact ⟨bytes_injective names, rest⟩

/-- No name starts with a mark. -/
theorem append_ne_mark_cons (name : Name) {mark : UInt8} (s t : Bytes)
    (h : isNameByte mark = false) : name.bytes ++ s ≠ mark :: t := by
  obtain ⟨notEmpty, all⟩ := name.bytes_spec
  cases first : name.bytes with
  | nil => exact absurd first notEmpty
  | cons octet rest =>
    intro same
    have octetIsMark : octet = mark := (List.cons.inj same).1
    have isName := all octet (first ▸ List.mem_cons_self)
    rw [octetIsMark, h] at isName
    cases isName

theorem encode_colon : Utf8.encode ":" = [0x3a] := by decide
theorem encode_underscore : Utf8.encode "_" = [0x5f] := by decide
theorem encode_entryMark : Utf8.encode "_i." = [0x5f, 0x69, 0x2e] := by decide
theorem encode_counterMark : Utf8.encode "_s." = [0x5f, 0x73, 0x2e] := by decide

/-- The keys of what goes by a name: records, index entries, and the counter. -/
inductive Owns (name : Name) (key : Bytes) : Prop where
  | record (rest : Bytes) (shape : key = name.bytes ++ 0x3a :: rest)
  | entry (rest : Bytes) (shape : key = 0x5f :: 0x69 :: 0x2e :: (name.bytes ++ 0x5f :: rest))
  | counter (shape : key = 0x5f :: 0x73 :: 0x2e :: name.bytes)

/-- No key has two owners. -/
theorem owner_unique {n m : Name} {key : Bytes} (hn : n.Owns key) (hm : m.Owns key) : n = m := by
  have underscore : isNameByte 0x5f = false := by decide
  have colon : isNameByte 0x3a = false := by decide
  have apart : (0x69 : UInt8) ≠ 0x73 := by decide
  -- keys of one shape are cut at the mark, and keys of two shapes do not begin alike
  rcases hn with ⟨s, rfl⟩ | ⟨s, rfl⟩ | rfl
  · rcases hm with ⟨t, shape⟩ | ⟨t, shape⟩ | shape
    · exact (append_mark_inj colon colon shape).1
    · exact absurd shape (append_ne_mark_cons n _ _ underscore)
    · exact absurd shape (append_ne_mark_cons n _ _ underscore)
  · rcases hm with ⟨t, shape⟩ | ⟨t, shape⟩ | shape
    · exact absurd shape.symm (append_ne_mark_cons m _ _ underscore)
    · simp only [List.cons.injEq, true_and] at shape
      exact (append_mark_inj underscore underscore shape).1
    · simp only [List.cons.injEq, true_and] at shape
      exact absurd shape.1 apart
  · rcases hm with ⟨t, shape⟩ | ⟨t, shape⟩ | shape
    · exact absurd shape.symm (append_ne_mark_cons m _ _ underscore)
    · simp only [List.cons.injEq, true_and] at shape
      exact absurd shape.1 apart.symm
    · simp only [List.cons.injEq, true_and] at shape
      exact bytes_injective shape

end Name

theorem Counter.key_eq (counter : Counter) :
    counter.key = 0x5f :: 0x73 :: 0x2e :: counter.name.bytes := by
  rw [Counter.key, Name.encode_counterMark]
  rfl

theorem Counter.owns_key (counter : Counter) : counter.name.Owns counter.key :=
  .counter counter.key_eq

/-! ## Keys of a bucket -/

namespace Bucket

variable {ρ : Type} (bucket : Bucket ρ)

theorem recordStart_eq : bucket.recordStart = bucket.name.bytes ++ [0x3a] := by
  rw [recordStart, Name.encode_colon]

theorem recordKey_eq (id : RecordId) :
    bucket.recordKey id = bucket.name.bytes ++ 0x3a :: id.bytes := by
  rw [recordKey, recordStart_eq, List.append_assoc]
  rfl

theorem counterKey_eq : bucket.counter.key = 0x5f :: 0x73 :: 0x2e :: bucket.name.bytes :=
  bucket.counter.key_eq

theorem entryStart_eq (index : Index ρ) :
    bucket.entryStart index =
      0x5f :: 0x69 :: 0x2e :: (bucket.name.bytes ++ 0x5f :: (index.name.bytes ++ [0x3a])) := by
  simp [entryStart, Name.encode_entryMark, Name.encode_underscore, Name.encode_colon]

theorem owns_recordKey (id : RecordId) : bucket.name.Owns (bucket.recordKey id) :=
  .record id.bytes (bucket.recordKey_eq id)

theorem owns_counterKey : bucket.name.Owns bucket.counter.key :=
  bucket.counter.owns_key

theorem owns_of_recordStart {key : Bytes} (h : bucket.recordStart <+: key) :
    bucket.name.Owns key := by
  obtain ⟨rest, rfl⟩ := h
  exact .record rest (by rw [recordStart_eq, List.append_assoc]; rfl)

theorem owns_of_entryStart {index : Index ρ} {key : Bytes} (h : bucket.entryStart index <+: key) :
    bucket.name.Owns key := by
  obtain ⟨rest, rfl⟩ := h
  exact .entry (index.name.bytes ++ 0x3a :: rest) (by simp [entryStart_eq])

theorem recordStart_prefix_recordKey (id : RecordId) :
    bucket.recordStart <+: bucket.recordKey id :=
  List.prefix_append _ _

theorem entryStart_prefix_entryKey (index : Index ρ) (key : Bytes) (id : RecordId) :
    bucket.entryStart index <+: bucket.entryKey index key id := by
  rw [entryKey, boundKey, List.append_assoc]
  exact List.prefix_append _ _

theorem owns_entryKey (index : Index ρ) (key : Bytes) (id : RecordId) :
    bucket.name.Owns (bucket.entryKey index key id) :=
  bucket.owns_of_entryStart (bucket.entryStart_prefix_entryKey index key id)

/-! ## Keys of different kinds -/

theorem recordKey_injective {i j : RecordId} (h : bucket.recordKey i = bucket.recordKey j) :
    i = j :=
  RecordId.bytes_injective (List.append_cancel_left h)

/-- Record keys do not begin like the keys of entries and counters. -/
theorem not_recordStart_prefix_mark {rest : Bytes} :
    ¬ bucket.recordStart <+: 0x5f :: rest := by
  rintro ⟨t, shape⟩
  rw [recordStart_eq, List.append_assoc] at shape
  exact Name.append_ne_mark_cons bucket.name _ _ (by decide) shape

theorem not_recordStart_prefix_entryKey (index : Index ρ) (key : Bytes) (id : RecordId) :
    ¬ bucket.recordStart <+: bucket.entryKey index key id := by
  rw [entryKey, boundKey, entryStart_eq]
  exact bucket.not_recordStart_prefix_mark

theorem not_recordStart_prefix_counterKey : ¬ bucket.recordStart <+: bucket.counter.key := by
  rw [counterKey_eq]
  exact bucket.not_recordStart_prefix_mark

section

variable {σ : Type} (other : Bucket σ)

theorem not_entryStart_prefix_recordKey (index : Index ρ) (id : RecordId) :
    ¬ bucket.entryStart index <+: other.recordKey id := by
  rintro ⟨t, shape⟩
  rw [entryStart_eq, recordKey_eq] at shape
  exact Name.append_ne_mark_cons other.name _ _ (by decide) shape.symm

theorem not_entryStart_prefix_counterKey (index : Index ρ) (counter : Counter) :
    ¬ bucket.entryStart index <+: counter.key := by
  rintro ⟨t, shape⟩
  rw [entryStart_eq, counter.key_eq] at shape
  simp at shape

/-- A key is an entry of one bucket at most, and of one index there. -/
theorem entryStart_names_eq {index : Index ρ} {index' : Index σ} {key : Bytes}
    (h : bucket.entryStart index <+: key) (h' : other.entryStart index' <+: key) :
    other.name = bucket.name ∧ index'.name = index.name := by
  obtain ⟨s, rfl⟩ := h
  obtain ⟨t, shape⟩ := h'
  simp only [entryStart_eq, List.cons_append, List.append_assoc, List.cons.injEq, true_and,
    List.nil_append] at shape
  -- the name of the bucket is cut at the first mark, that of the index at the second
  obtain ⟨names, -, rest⟩ := Name.append_mark_inj (by decide) (by decide) shape
  exact ⟨names, (Name.append_mark_inj (by decide) (by decide) rest).1⟩

end

/-- The indexes of a bucket are told apart by their names. -/
theorem index_eq_of_entryStart {index index' : Index ρ} {key : Bytes}
    (mem : index ∈ bucket.indexes) (mem' : index' ∈ bucket.indexes)
    (h : bucket.entryStart index <+: key) (h' : bucket.entryStart index' <+: key) :
    index = index' :=
  List.inj_on_of_nodup_map bucket.distinct mem mem' (bucket.entryStart_names_eq bucket h' h).2

theorem entryKey_unique {index : Index ρ} (h : index.unique = true) (key : Bytes) (id : RecordId) :
    bucket.entryKey index key id = bucket.boundKey index key := by
  simp [entryKey, h]

/-- Entries of a unique index differ in their extracted keys; entries of any other index also
differ in their IDs. -/
theorem entryKey_inj {index : Index ρ} {k k' : Bytes} {i j : RecordId}
    (h : bucket.entryKey index k i = bucket.entryKey index k' j) :
    k = k' ∧ (index.unique = false → i = j) := by
  simp only [entryKey, boundKey, List.append_assoc] at h
  have tails := List.append_cancel_left h
  by_cases unique : index.unique
  · simp only [unique, if_true, List.append_nil] at tails
    exact ⟨tails, fun shared => absurd (unique.symm.trans shared) (by decide)⟩
  · -- the ID at the end has a fixed width, so the extracted key ends where it begins
    simp only [unique, Bool.false_eq_true, if_false] at tails
    obtain ⟨keys, ids⟩ := List.append_inj' tails (by simp)
    exact ⟨keys, fun _ => RecordId.bytes_injective ids⟩

end Bucket

end Gazette
