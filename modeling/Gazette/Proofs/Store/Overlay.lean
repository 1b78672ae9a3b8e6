import Gazette.Proofs.Store.Contents

set_option autoImplicit false

/-! # Pages under pending writes

A scan of an overlay lays the pending writes of the range over a page of the entries below.
Over all entries of the range this gives the entries of the range above (`overlay_range`). Over
a page that was cut off it gives the first of them, if the page has as many entries more than
were asked for as there are pending writes (`take_overlay`): an insertion brings no entry
forward, and a deletion brings those behind it forward by one place.
-/

namespace Gazette

/-! ## Entries of a range -/

theorem lookup_filter {β : Type} (p : Bytes → Bool) (entries : List (Bytes × β)) (key : Bytes) :
    (entries.filter fun e => p e.1).lookup key =
      if p key then entries.lookup key else none := by
  induction entries with
  | nil => simp
  | cons entry rest ih =>
    obtain ⟨first, value⟩ := entry
    rw [List.filter_cons, lookup_entry]
    by_cases keep : p first = true
    · rw [if_pos keep, lookup_entry, ih]
      by_cases same : key = first
      · simp [same, keep]
      · simp [same]
    · rw [if_neg keep, ih]
      by_cases same : key = first
      · simp [same, keep]
      · simp [same]

theorem KeyMap.range_ascending {β : Type} (m : KeyMap β) (start : Bytes) (upper : Option Bytes) :
    Ascending (m.range start upper) :=
  m.ascending.filter _

/-- A range that ends where it starts, or before, is empty. -/
theorem KeyMap.range_eq_nil {β : Type} (m : KeyMap β) {start : Bytes} {upper : Option Bytes}
    (h : upper.any (· ≤ start) = true) : m.range start upper = [] := by
  cases upper with
  | none => cases h
  | some bound =>
    have ends : bound ≤ start := by simpa using h
    refine List.filter_eq_nil_iff.2 fun e _ inside => ?_
    simp only [inRange, Bool.and_eq_true, decide_eq_true_eq] at inside
    have first : bound ≤ e.1 := Std.le_trans ends inside.1
    exact Std.not_le.2 inside.2 first

/-! ## Laying writes over a page -/

theorem eraseEntry_ascending {β : Type} (key : Bytes) {entries : List (Bytes × β)}
    (h : Ascending entries) : Ascending (eraseEntry key entries) :=
  h.filter _

/-- Inserting does not bring an entry forward. -/
theorem take_insertEntry {β : Type} (key : Bytes) (value : β) (n : Nat)
    (entries : List (Bytes × β)) :
    (insertEntry key value entries).take n = (insertEntry key value (entries.take n)).take n := by
  induction entries generalizing n with
  | nil => simp
  | cons entry rest ih =>
    cases n with
    | zero => rfl
    | succ n =>
      rw [List.take_succ_cons]
      unfold insertEntry
      split
      -- the new entry comes before the page, in the place of its first entry, or further on
      · cases n with
        | zero => rfl
        | succ n => simp [List.take_take]
      · split
        · simp [List.take_take]
        · rw [List.take_succ_cons, List.take_succ_cons, ih]

/-- Erasing a key brings the entries after it forward by one place. -/
theorem take_eraseEntry {β : Type} (key : Bytes) (n : Nat) {entries : List (Bytes × β)}
    (h : Ascending entries) :
    (eraseEntry key entries).take n = (eraseEntry key (entries.take (n + 1))).take n := by
  induction entries generalizing n with
  | nil => simp
  | cons entry rest ih =>
    obtain ⟨first, tail⟩ := List.pairwise_cons.1 h
    rw [List.take_succ_cons]
    by_cases gone : entry.1 = key
    · -- the key is not among the later entries, so nothing else is erased
      have others : ∀ xs : List (Bytes × β), (∀ e ∈ xs, entry.1 < e.1) → eraseEntry key xs = xs := by
        intro xs later
        refine List.filter_eq_self.2 fun e he => ?_
        have less : key < e.1 := gone ▸ later e he
        have other : e.1 ≠ key := fun same => List.lt_irrefl key (same ▸ less)
        simpa using other
      have drop : ∀ xs : List (Bytes × β), eraseEntry key (entry :: xs) = eraseEntry key xs :=
        fun xs => List.filter_cons_of_neg (by simpa using gone)
      rw [drop, drop, others rest first,
        others (rest.take n) fun e he => first e (List.mem_of_mem_take he), List.take_take,
        Nat.min_self]
    · have keep : ∀ xs : List (Bytes × β),
          eraseEntry key (entry :: xs) = entry :: eraseEntry key xs :=
        fun xs => List.filter_cons_of_pos (by simpa using gone)
      rw [keep, keep]
      cases n with
      | zero => rfl
      | succ n => rw [List.take_succ_cons, List.take_succ_cons, ih n tail]

namespace WriteSet

/-- A page with one pending entry laid over it. -/
def lay (page : List Entry) (entry : Bytes × Option Bytes) : List Entry :=
  match entry.2 with
  | some value => insertEntry entry.1 value page
  | none => eraseEntry entry.1 page

theorem overlay_cons (page : List Entry) (entry : Bytes × Option Bytes)
    (pending : List (Bytes × Option Bytes)) :
    overlay page (entry :: pending) = overlay (lay page entry) pending := rfl

theorem lay_ascending {page : List Entry} (entry : Bytes × Option Bytes) (h : Ascending page) :
    Ascending (lay page entry) := by
  obtain ⟨key, _ | value⟩ := entry
  · exact eraseEntry_ascending key h
  · exact insertEntry_ascending key value h

theorem lookup_lay (page : List Entry) (entry : Bytes × Option Bytes) (key : Bytes) :
    (lay page entry).lookup key = if key = entry.1 then entry.2 else page.lookup key := by
  obtain ⟨k, _ | value⟩ := entry
  · exact lookup_eraseEntry k page key
  · exact lookup_insertEntry k value page key

/-- Two pages that agree on one entry more than are asked for agree after one write. -/
theorem take_lay {page page' : List Entry} {n : Nat} (entry : Bytes × Option Bytes)
    (h : Ascending page) (h' : Ascending page') (same : page.take (n + 1) = page'.take (n + 1)) :
    (lay page entry).take n = (lay page' entry).take n := by
  obtain ⟨key, _ | value⟩ := entry
  · show (eraseEntry key page).take n = (eraseEntry key page').take n
    rw [take_eraseEntry key n h, same, ← take_eraseEntry key n h']
  · show (insertEntry key value page).take n = (insertEntry key value page').take n
    -- the entry in excess is needed for deletions alone
    have shorter : page.take n = page'.take n := by
      have := congrArg (List.take n) same
      rwa [List.take_take, List.take_take, Nat.min_eq_left (Nat.le_succ n)] at this
    rw [take_insertEntry, shorter, ← take_insertEntry]

/-- The first entries of an overlaid page depend on as many entries more of the page as there
are pending writes. -/
theorem take_overlay {pending : List (Bytes × Option Bytes)} {page page' : List Entry} {n : Nat}
    (h : Ascending page) (h' : Ascending page')
    (same : page.take (n + pending.length) = page'.take (n + pending.length)) :
    (overlay page pending).take n = (overlay page' pending).take n := by
  induction pending generalizing page page' with
  | nil => exact same
  | cons entry rest ih =>
    rw [overlay_cons, overlay_cons]
    exact ih (lay_ascending entry h) (lay_ascending entry h') (take_lay entry h h' same)

theorem overlay_ascending {page : List Entry} (pending : List (Bytes × Option Bytes))
    (h : Ascending page) : Ascending (overlay page pending) := by
  induction pending generalizing page with
  | nil => exact h
  | cons entry rest ih => exact ih (lay_ascending entry h)

theorem lookup_overlay {pending : List (Bytes × Option Bytes)} (page : List Entry)
    (ascending : Ascending pending) (key : Bytes) :
    (overlay page pending).lookup key = (pending.lookup key).getD (page.lookup key) := by
  induction pending generalizing page with
  | nil => rfl
  | cons entry rest ih =>
    obtain ⟨first, tail⟩ := List.pairwise_cons.1 ascending
    rw [overlay_cons, ih _ tail, lookup_lay, lookup_entry key entry.1 entry.2 rest]
    by_cases same : key = entry.1
    · rw [if_pos same, if_pos same, same, lookup_eq_none first]
      rfl
    · rw [if_neg same, if_neg same]

/-- The entries of a range, once the pending writes are made. -/
theorem overlay_range (contents : Contents) (writes : WriteSet) (start : Bytes)
    (upper : Option Bytes) :
    overlay (contents.range start upper) (writes.range start upper) =
      (contents.apply writes.operations).range start upper := by
  -- both are ascending, so it is enough to look up each key
  refine eq_of_lookup_eq (overlay_ascending _ (contents.range_ascending start upper))
    (KeyMap.range_ascending _ start upper) fun key => ?_
  rw [lookup_overlay _ (writes.range_ascending start upper)]
  unfold KeyMap.range
  rw [lookup_filter, lookup_filter, lookup_filter]
  split
  · exact (get?_apply_operations contents writes key).symm
  · rfl

end WriteSet

end Gazette
