import Gazette.Bytes

set_option autoImplicit false

/-! # Maps with ordered keys

A finite map from byte strings, held as the list of its entries in ascending order of their
keys. The order is part of the type, so two maps with the same lookups are the same map.

The list functions `insertEntry` and `eraseEntry` work on any list of entries. They change the
lookup of one key only (`lookup_insertEntry`, `lookup_eraseEntry`) and keep an ascending list
ascending. An ascending list is known by its lookups (`eq_of_lookup_eq`).
-/

namespace Gazette

variable {β : Type}

/-! ## Lists of entries -/

/-- The list with `value` under `key`, put before the first greater key. -/
def insertEntry (key : Bytes) (value : β) : List (Bytes × β) → List (Bytes × β)
  | [] => [(key, value)]
  | entry :: rest =>
    if key < entry.1 then (key, value) :: entry :: rest
    else if key = entry.1 then (key, value) :: rest
    else entry :: insertEntry key value rest

/-- The list without the entries under `key`. -/
def eraseEntry (key : Bytes) (entries : List (Bytes × β)) : List (Bytes × β) :=
  entries.filter (·.1 ≠ key)

/-- The entries are in strictly ascending order of their keys. -/
def Ascending (entries : List (Bytes × β)) : Prop := entries.Pairwise (fun a b => a.1 < b.1)

theorem mem_insertEntry {key : Bytes} {value : β} {entries : List (Bytes × β)} {e : Bytes × β}
    (h : e ∈ insertEntry key value entries) : e = (key, value) ∨ e ∈ entries := by
  induction entries with
  | nil => simpa [insertEntry] using h
  | cons entry rest ih =>
    unfold insertEntry at h
    split at h
    · simpa using h
    · split at h
      · rcases List.mem_cons.1 h with h | h
        · exact .inl h
        · exact .inr (List.mem_cons_of_mem _ h)
      · rcases List.mem_cons.1 h with h | h
        · exact .inr (h ▸ List.mem_cons_self)
        · exact (ih h).imp id (List.mem_cons_of_mem _)

theorem insertEntry_ascending (key : Bytes) (value : β) {entries : List (Bytes × β)}
    (h : Ascending entries) : Ascending (insertEntry key value entries) := by
  induction entries with
  | nil => simp [insertEntry, Ascending]
  | cons entry rest ih =>
    obtain ⟨first, tail⟩ := List.pairwise_cons.1 h
    unfold insertEntry
    split
    · rename_i less
      refine List.pairwise_cons.2 ⟨fun e he => ?_, h⟩
      rcases List.mem_cons.1 he with rfl | he
      · exact less
      · exact List.lt_trans less (first e he)
    · split
      · rename_i same
        exact List.pairwise_cons.2 ⟨fun e he => same ▸ first e he, tail⟩
      · rename_i notLess notSame
        refine List.pairwise_cons.2 ⟨fun e he => ?_, ih tail⟩
        rcases mem_insertEntry he with rfl | he
        · rcases Std.lt_trichotomy entry.1 key with lt | eq | gt
          · exact lt
          · exact absurd eq.symm notSame
          · exact absurd gt notLess
        · exact first e he

/-! ## Lookups -/

theorem lookup_entry (k key : Bytes) (value : β) (rest : List (Bytes × β)) :
    List.lookup k ((key, value) :: rest) = if k = key then some value else rest.lookup k := by
  by_cases same : k = key
  · simp [same]
  · rw [List.lookup_cons, beq_false_of_ne same]
    simp [same]

/-- Inserting changes the lookup of one key only. -/
theorem lookup_insertEntry (key : Bytes) (value : β) (entries : List (Bytes × β)) (k : Bytes) :
    (insertEntry key value entries).lookup k =
      if k = key then some value else entries.lookup k := by
  induction entries with
  | nil => exact lookup_entry k key value []
  | cons entry rest ih =>
    obtain ⟨first, v⟩ := entry
    unfold insertEntry
    by_cases less : key < first
    · rw [if_pos less, lookup_entry]
    · by_cases same : key = first
      · rw [if_neg less, if_pos same, lookup_entry, lookup_entry, ← same]
        split <;> rfl
      · rw [if_neg less, if_neg same, lookup_entry, lookup_entry, ih]
        by_cases found : k = first
        · rw [if_pos found, if_pos found, if_neg (found ▸ Ne.symm same)]
        · rw [if_neg found, if_neg found]

/-- Erasing changes the lookup of one key only. -/
theorem lookup_eraseEntry (key : Bytes) (entries : List (Bytes × β)) (k : Bytes) :
    (eraseEntry key entries).lookup k = if k = key then none else entries.lookup k := by
  induction entries with
  | nil => exact (ite_self none).symm
  | cons entry rest ih =>
    obtain ⟨first, v⟩ := entry
    by_cases gone : first = key
    · have step : eraseEntry key ((first, v) :: rest) = eraseEntry key rest := by
        simp [eraseEntry, gone]
      rw [step, ih, lookup_entry, gone]
      split <;> rfl
    · have step : eraseEntry key ((first, v) :: rest) = (first, v) :: eraseEntry key rest := by
        simp [eraseEntry, gone]
      rw [step, lookup_entry, lookup_entry, ih]
      by_cases found : k = first
      · rw [if_pos found, if_pos found, if_neg (found ▸ gone)]
      · rw [if_neg found, if_neg found]

/-- Below its first key an ascending list has no entry. -/
theorem lookup_eq_none {entries : List (Bytes × β)} {key : Bytes}
    (h : ∀ e ∈ entries, key < e.1) : entries.lookup key = none := by
  induction entries with
  | nil => rfl
  | cons entry rest ih =>
    have less := h entry List.mem_cons_self
    have other : key ≠ entry.1 := fun same => List.lt_irrefl entry.1 (same ▸ less)
    rw [lookup_entry key entry.1 entry.2 rest, if_neg other]
    exact ih fun e he => h e (List.mem_cons_of_mem _ he)

/-- Two ascending lists with the same lookups are the same list. -/
theorem eq_of_lookup_eq {xs ys : List (Bytes × β)} (hx : Ascending xs) (hy : Ascending ys)
    (h : ∀ key, xs.lookup key = ys.lookup key) : xs = ys := by
  induction xs generalizing ys with
  | nil =>
    cases ys with
    | nil => rfl
    | cons y ys =>
      have := h y.1
      rw [lookup_entry y.1 y.1 y.2 ys, if_pos rfl] at this
      cases this
  | cons x xs ih =>
    obtain ⟨firstX, tailX⟩ := List.pairwise_cons.1 hx
    cases ys with
    | nil =>
      have := h x.1
      rw [lookup_entry x.1 x.1 x.2 xs, if_pos rfl] at this
      cases this
    | cons y ys =>
      obtain ⟨firstY, tailY⟩ := List.pairwise_cons.1 hy
      have hX := fun key => lookup_entry key x.1 x.2 xs
      have hY := fun key => lookup_entry key y.1 y.2 ys
      have sameKey : x.1 = y.1 := by
        rcases Std.lt_trichotomy x.1 y.1 with lt | eq | gt
        · have none_below : (y :: ys).lookup x.1 = none := lookup_eq_none fun e he => by
            rcases List.mem_cons.1 he with rfl | he
            · exact lt
            · exact List.lt_trans lt (firstY e he)
          have := h x.1
          rw [hX, if_pos rfl, none_below] at this
          cases this
        · exact eq
        · have none_below : (x :: xs).lookup y.1 = none := lookup_eq_none fun e he => by
            rcases List.mem_cons.1 he with rfl | he
            · exact gt
            · exact List.lt_trans gt (firstX e he)
          have := h y.1
          rw [hY, if_pos rfl, none_below] at this
          cases this
      have sameEntry : x = y := by
        have := h x.1
        rw [hX, hY, if_pos rfl, if_pos sameKey] at this
        exact Prod.ext sameKey (Option.some.inj this)
      subst sameEntry
      have rest : xs = ys := ih tailX tailY fun key => by
        by_cases same : key = x.1
        · rw [same, lookup_eq_none firstX, lookup_eq_none firstY]
        · have := h key
          rwa [hX, hY, if_neg same, if_neg same] at this
      rw [rest]

/-! ## Maps -/

/-- A finite map from byte strings. -/
structure KeyMap (β : Type) where
  entries : List (Bytes × β)
  ascending : Ascending entries

namespace KeyMap

/-- The map without entries. -/
def empty : KeyMap β := ⟨[], .nil⟩

instance : Inhabited (KeyMap β) := ⟨empty⟩

/-- The value under `key`. -/
def get? (m : KeyMap β) (key : Bytes) : Option β := m.entries.lookup key

/-- The map with `value` under `key`. -/
def insert (m : KeyMap β) (key : Bytes) (value : β) : KeyMap β :=
  ⟨insertEntry key value m.entries, insertEntry_ascending key value m.ascending⟩

/-- The map with nothing under `key`. -/
def erase (m : KeyMap β) (key : Bytes) : KeyMap β :=
  ⟨eraseEntry key m.entries, m.ascending.filter _⟩

@[simp] theorem get?_empty (key : Bytes) : (empty : KeyMap β).get? key = none := rfl

theorem get?_insert (m : KeyMap β) (key : Bytes) (value : β) (k : Bytes) :
    (m.insert key value).get? k = if k = key then some value else m.get? k :=
  lookup_insertEntry key value m.entries k

theorem get?_erase (m : KeyMap β) (key k : Bytes) :
    (m.erase key).get? k = if k = key then none else m.get? k :=
  lookup_eraseEntry key m.entries k

/-- Two maps with the same lookups are the same map. -/
theorem ext_get? {m n : KeyMap β} (h : ∀ key, m.get? key = n.get? key) : m = n := by
  obtain ⟨xs, hx⟩ := m
  obtain ⟨ys, hy⟩ := n
  obtain rfl : xs = ys := eq_of_lookup_eq hx hy h
  rfl

/-- The keys, in ascending order. -/
def keys (m : KeyMap β) : List Bytes := m.entries.map (·.1)

/-- The number of entries. -/
def size (m : KeyMap β) : Nat := m.entries.length

/-- Whether there is no entry. -/
def isEmpty (m : KeyMap β) : Bool := m.entries.isEmpty

/-- Whether a key lies in the range from `start` up to but not including `upper`; without an
upper end the range has none. -/
def inRange (start : Bytes) (upper : Option Bytes) (key : Bytes) : Bool :=
  start ≤ key && match upper with
    | none => true
    | some bound => key < bound

/-- The entries whose keys lie in a range, in order. -/
def range (m : KeyMap β) (start : Bytes) (upper : Option Bytes) : List (Bytes × β) :=
  m.entries.filter fun entry => inRange start upper entry.1

/-- The keys that start with `start`, in order: no key from `start` on comes before them. -/
def keysStartingWith (m : KeyMap β) (start : Bytes) : List Bytes :=
  ((m.range start none).map (·.1)).takeWhile (start.isPrefixOf ·)

end KeyMap

end Gazette
