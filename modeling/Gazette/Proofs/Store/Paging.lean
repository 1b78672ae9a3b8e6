import Gazette.Proofs.Store.Alike
import Mathlib.Data.List.Nodup

set_option autoImplicit false

/-! # Walks through a store that changes

A walk asks the store only once in a while, and between two of its calls anything can happen there.
So each call is made on a store of its own: call `n` on `stores n`. The walk before the call is
`RangeScan.after`, and what the call gives is `RangeScan.given`.

What one call can come to is said once (`RangeScan.Step`). Three facts about a key are carried along
the calls: it is behind the walk (`Passed`), it is still before it (`Ahead`), or it is in a page
that was fetched at a known call (`RangeScan.given_from_page`). The main statement is
`RangeScan.walk_among_changes`: the walk gives no key twice, none out of order, and leaves out none
that was there all the time.
-/

namespace Gazette

/-- No entry of an ascending list comes after its last one. -/
theorem Ascending.le_getLast {β : Type} {entries : List (Bytes × β)} (h : Ascending entries)
    {last : Bytes × β} (hlast : entries.getLast? = some last) {e : Bytes × β} (he : e ∈ entries) :
    e.1 ≤ last.1 := by
  obtain ⟨front, rfl⟩ := List.getLast?_eq_some_iff.1 hlast
  have before := (List.pairwise_append.1 h).2.2
  rcases List.mem_append.1 he with he | he
  · exact Std.le_of_lt (before e he last List.mem_cons_self)
  · rw [List.mem_singleton.1 he]
    exact Std.le_refl _

namespace RangeScan

variable {scan scan' : RangeScan} {store : Store} {item : Option (Except StoreError Entry)}
  {key : Bytes} {e : Entry}

/-! ## One call -/

/-- The next call asks the store for a page. -/
structure Fetches (scan : RangeScan) : Prop where
  empty : scan.buffer = []
  unfinished : scan.exhausted = false

/-- The walk has nothing left, and will not ask for more. -/
structure Over (scan : RangeScan) : Prop where
  empty : scan.buffer = []
  finished : scan.exhausted = true

/-- What a call of a walk gives, and the walk after it. -/
inductive Step (store : Store) (scan : RangeScan) :
    Option (Except StoreError Entry) → RangeScan → Prop
  /-- The call takes an entry of the page that was fetched before. -/
  | pop {e : Entry} {rest : List Entry} (buffered : scan.buffer = e :: rest) :
      Step store scan (some (.ok e)) { scan with buffer := rest }
  /-- The walk had ended already. -/
  | drained (ended : scan.Over) : Step store scan none scan
  /-- The store refuses to give a page. -/
  | refused {error : StoreError} (fetches : scan.Fetches)
      (refusal : store.scan scan.nextStart scan.upper scan.pageSize = .error error) :
      Step store scan (some (.error error)) { scan with exhausted := true }
  /-- There is nothing left in the range. -/
  | dry (fetches : scan.Fetches)
      (nothing : store.contents.range scan.nextStart scan.upper = []) :
      Step store scan none { scan with exhausted := true }
  /-- The call fetches a page and takes its first entry. -/
  | page {e last : Entry} {rest : List Entry} (fetches : scan.Fetches)
      (fetched : (store.contents.range scan.nextStart scan.upper).take scan.pageSize = e :: rest)
      (hlast : (e :: rest).getLast? = some last) :
      Step store scan (some (.ok e)) { scan with
        nextStart := Bytes.successor last.1
        buffer := rest
        exhausted := decide ((e :: rest).length < scan.pageSize) }

theorem step_next (scan : RangeScan) (store : Store) :
    Step store scan (scan.next store).1 (scan.next store).2 := by
  unfold next
  by_cases idle : scan.buffer.isEmpty && !scan.exhausted
  · have fetches : scan.Fetches := by
      simp only [Bool.and_eq_true, List.isEmpty_iff, Bool.not_eq_true'] at idle
      exact ⟨idle.1, idle.2⟩
    rw [if_pos idle, fill]
    cases hpage : store.scan scan.nextStart scan.upper scan.pageSize with
    | error error => exact .refused fetches hpage
    | ok page =>
      have fetched := Store.page_of_scan hpage
      cases page with
      | nil =>
        have nothing : store.contents.range scan.nextStart scan.upper = [] := by
          have positive := scan.pageSize_pos
          rcases List.take_eq_nil_iff.1 fetched.symm with none_asked | nothing
          · omega
          · exact nothing
        have ended := Step.dry fetches nothing
        simpa [pop, fetches.empty, fetches.unfinished, scan.pageSize_pos] using ended
      | cons e rest =>
        obtain ⟨last, hlast⟩ : ∃ last, (e :: rest).getLast? = some last :=
          Option.isSome_iff_exists.1 (by simp)
        have taken := Step.page fetches fetched.symm hlast
        simpa [pop, fetches.empty, fetches.unfinished, hlast] using taken
  · rw [if_neg idle, pop]
    cases buffered : scan.buffer with
    | nil =>
      have finished : scan.exhausted = true := by simpa [buffered] using idle
      exact .drained ⟨buffered, finished⟩
    | cons e rest => exact .pop buffered

theorem Step.upper_eq (h : Step store scan item scan') : scan'.upper = scan.upper := by
  cases h <;> rfl

/-- What a call gives or leaves to be given was fetched before, or is in the store now. -/
theorem Step.origin (h : Step store scan item scan')
    (he : item = some (.ok e) ∨ e ∈ scan'.buffer) :
    (¬ scan.Fetches ∧ e ∈ scan.buffer) ∨
      (scan.Fetches ∧ store.contents.get? e.1 = some e.2) := by
  cases h with
  | @pop first rest buffered =>
    have buffered_before : e ∈ scan.buffer := by
      rw [buffered]
      rcases he with given | left
      · cases given
        exact List.mem_cons_self
      · exact List.mem_cons_of_mem _ left
    refine .inl ⟨fun fetches => ?_, buffered_before⟩
    rw [fetches.empty] at buffered
    cases buffered
  | drained ended => simp [ended.empty] at he
  | refused fetches => simp [fetches.empty] at he
  | dry fetches => simp [fetches.empty] at he
  | @page first last rest fetches fetched =>
    have paged : e ∈ first :: rest := by
      rcases he with given | left
      · cases given
        exact List.mem_cons_self
      · exact List.mem_cons_of_mem _ left
    rw [← fetched] at paged
    have inside := List.mem_of_mem_take paged
    exact .inr ⟨fetches, ((store.contents.mem_range_iff _ _ e).1 inside).1⟩

/-- A reliable store gives every page that it is asked for. -/
theorem Step.ne_error (h : Step store scan item scan') (hstore : store.Reliable)
    (error : StoreError) : item ≠ some (.error error) := by
  intro refused
  cases h with
  | refused fetches refusal =>
    rw [Store.scan_eq hstore] at refusal
    cases refusal
  | pop => cases refused
  | drained => cases refused
  | dry => cases refused
  | page => cases refused

/-! ## Keys behind the walk -/

/-- What is fetched is in order, and the next page starts after it. -/
structure Ordered (scan : RangeScan) : Prop where
  ascending : Ascending scan.buffer
  below : ∀ e ∈ scan.buffer, e.1 < scan.nextStart

/-- The walk has come past the key. -/
structure Passed (scan : RangeScan) (key : Bytes) : Prop where
  buffered : ∀ e ∈ scan.buffer, key < e.1
  next : key < scan.nextStart

/-- The entries of a page are in order, and the walk goes on after the last of them. -/
theorem ordered_page {n : Nat} {last : Entry} {rest : List Entry}
    (fetched : (store.contents.range scan.nextStart scan.upper).take n = e :: rest)
    (hlast : (e :: rest).getLast? = some last) :
    Ascending (e :: rest) ∧ ∀ x ∈ e :: rest, scan.nextStart ≤ x.1 ∧ x.1 < Bytes.successor last.1 := by
  have ascending : Ascending (e :: rest) := by
    rw [← fetched]
    exact (store.contents.range_ascending scan.nextStart scan.upper).take
  refine ⟨ascending, fun x hx => ⟨?_, ?_⟩⟩
  · have inside : x ∈ store.contents.range scan.nextStart scan.upper := by
      rw [← fetched] at hx
      exact List.mem_of_mem_take hx
    exact ((store.contents.mem_range_iff _ _ x).1 inside).2.1
  · exact Std.lt_of_le_of_lt (ascending.le_getLast hlast hx) (Bytes.lt_successor last.1)

theorem Ordered.step (h : scan.Ordered) (hstep : Step store scan item scan') :
    scan'.Ordered := by
  cases hstep with
  | pop buffered =>
    have ascending := h.ascending
    have below := h.below
    rw [buffered] at ascending below
    exact ⟨(List.pairwise_cons.1 ascending).2, fun x hx => below x (List.mem_cons_of_mem _ hx)⟩
  | drained => exact h
  | refused => exact ⟨h.ascending, h.below⟩
  | dry => exact ⟨h.ascending, h.below⟩
  | page fetches fetched hlast =>
    obtain ⟨ascending, bounds⟩ := ordered_page fetched hlast
    exact ⟨(List.pairwise_cons.1 ascending).2, fun x hx => (bounds x (List.mem_cons_of_mem _ hx)).2⟩

/-- A key that the walk has come past stays behind it, and comes before all that is given. -/
theorem Passed.step (h : scan.Passed key) (hstep : Step store scan item scan') :
    scan'.Passed key ∧ ∀ e, item = some (.ok e) → key < e.1 := by
  cases hstep with
  | pop buffered =>
    have before := h.buffered
    rw [buffered] at before
    refine ⟨⟨fun x hx => before x (List.mem_cons_of_mem _ hx), h.next⟩, fun x given => ?_⟩
    cases given
    exact before _ List.mem_cons_self
  | drained => exact ⟨h, fun x given => by cases given⟩
  | refused => exact ⟨⟨h.buffered, h.next⟩, fun x given => by cases given⟩
  | dry => exact ⟨⟨h.buffered, h.next⟩, fun x given => by cases given⟩
  | page fetches fetched hlast =>
    obtain ⟨ascending, bounds⟩ := ordered_page fetched hlast
    have before := fun x hx => Std.lt_of_lt_of_le h.next (bounds x hx).1
    refine ⟨⟨fun x hx => before x (List.mem_cons_of_mem _ hx), ?_⟩, fun x given => ?_⟩
    · exact List.lt_trans (before _ List.mem_cons_self) (bounds _ List.mem_cons_self).2
    · cases given
      exact before _ List.mem_cons_self

/-- The walk has come past the key that it has just given. -/
theorem Ordered.passed (h : scan.Ordered) (hstep : Step store scan (some (.ok e)) scan') :
    scan'.Passed e.1 := by
  cases hstep with
  | pop buffered =>
    have ascending := h.ascending
    have below := h.below
    rw [buffered] at ascending below
    exact ⟨(List.pairwise_cons.1 ascending).1, below e List.mem_cons_self⟩
  | page fetches fetched hlast =>
    obtain ⟨ascending, bounds⟩ := ordered_page fetched hlast
    exact ⟨(List.pairwise_cons.1 ascending).1, (bounds e List.mem_cons_self).2⟩

/-! ## Keys before the walk -/

/-- The walk has the key before it: it is fetched, or it is where the walk will look. -/
def Ahead (scan : RangeScan) (key : Bytes) : Prop :=
  (∃ e ∈ scan.buffer, e.1 = key) ∨ (scan.exhausted = false ∧ scan.nextStart ≤ key)

/-- If a key that is before the walk is there, the call does not end the walk. It gives the key, or
it gives another entry and leaves the key before the walk, unless the store refuses. -/
theorem Ahead.step (h : scan.Ahead key) (hupper : ∀ bound, scan.upper = some bound → key < bound)
    (present : (store.contents.get? key).isSome) (hstep : Step store scan item scan') :
    (∃ error, item = some (.error error)) ∨ (∃ value, item = some (.ok (key, value)))
      ∨ (item ≠ none ∧ scan'.Ahead key) := by
  obtain ⟨value, hvalue⟩ := Option.isSome_iff_exists.1 present
  have in_range : scan.nextStart ≤ key →
      (key, value) ∈ store.contents.range scan.nextStart scan.upper := fun from_start =>
    (store.contents.mem_range_iff _ _ (key, value)).2 ⟨hvalue, from_start, hupper⟩
  -- a walk that fetches has nothing in its page, so it has yet to look for the key
  have looks : scan.Fetches → scan.nextStart ≤ key := fun fetches => by
    rcases h with ⟨e, he, -⟩ | ⟨-, from_start⟩
    · rw [fetches.empty] at he
      cases he
    · exact from_start
  cases hstep with
  | @pop first rest buffered =>
    rcases h with ⟨e, he, same⟩ | later
    · rw [buffered] at he
      rcases List.mem_cons.1 he with rfl | he
      · exact .inr (.inl ⟨e.2, by rw [← same]⟩)
      · exact .inr (.inr ⟨Option.some_ne_none _, .inl ⟨e, he, same⟩⟩)
    · exact .inr (.inr ⟨Option.some_ne_none _, .inr later⟩)
  | drained ended =>
    rcases h with ⟨e, he, -⟩ | ⟨unfinished, -⟩
    · rw [ended.empty] at he
      cases he
    · rw [ended.finished] at unfinished
      cases unfinished
  | refused => exact .inl ⟨_, rfl⟩
  | dry fetches nothing =>
    have found := in_range (looks fetches)
    rw [nothing] at found
    cases found
  | @page first last rest fetches fetched hlast =>
    have found := in_range (looks fetches)
    have paged : (key, value) ∈ first :: rest ∨
        (¬ (first :: rest).length < scan.pageSize ∧ Bytes.successor last.1 ≤ key) := by
      rw [← List.take_append_drop scan.pageSize (store.contents.range _ _)] at found
      rcases List.mem_append.1 found with taken | left
      · exact .inl (fetched ▸ taken)
      · -- the page is full, and what it leaves comes after its last entry
        refine .inr ⟨fun short => ?_, ?_⟩
        · rw [← fetched, List.length_take] at short
          rw [List.drop_of_length_le (by omega)] at left
          cases left
        · rw [← fetched] at hlast
          rw [← store.contents.range_successor hlast] at left
          exact ((store.contents.mem_range_iff _ _ _).1 left).2.1
    rcases paged with taken | ⟨full, later⟩
    · rcases List.mem_cons.1 taken with rfl | taken
      · exact .inr (.inl ⟨value, rfl⟩)
      · exact .inr (.inr ⟨Option.some_ne_none _, .inl ⟨_, taken, rfl⟩⟩)
    · exact .inr (.inr ⟨Option.some_ne_none _, .inr ⟨decide_eq_false full, later⟩⟩)

/-! ## The end of a walk -/

theorem Step.over_of_none (hstep : Step store scan none scan') : scan'.Over := by
  cases hstep with
  | drained ended => exact ended
  | dry fetches nothing => exact ⟨fetches.empty, rfl⟩

theorem Over.step (h : scan.Over) (hstep : Step store scan item scan') :
    item = none ∧ scan' = scan := by
  have not_fetching : ¬ scan.Fetches := fun fetches => by
    have unfinished := fetches.unfinished
    rw [h.finished] at unfinished
    cases unfinished
  cases hstep with
  | pop buffered =>
    rw [h.empty] at buffered
    cases buffered
  | drained => exact ⟨rfl, rfl⟩
  | refused fetches => exact absurd fetches not_fetching
  | dry fetches => exact absurd fetches not_fetching
  | page fetches => exact absurd fetches not_fetching

/-! ## All calls -/

/-- The walk before its `n`-th call, if call `m` is made on `stores m`. -/
def after (scan : RangeScan) (stores : Nat → Store) : Nat → RangeScan
  | 0 => scan
  | n + 1 => ((scan.after stores n).next (stores n)).2

/-- What the `n`-th call gives. -/
def given (scan : RangeScan) (stores : Nat → Store) (n : Nat) :
    Option (Except StoreError Entry) :=
  ((scan.after stores n).next (stores n)).1

/-- Call `m` is the last one up to call `n` that fetches a page. -/
structure FetchedAt (scan : RangeScan) (stores : Nat → Store) (m n : Nat) : Prop where
  le : m ≤ n
  fetches : (scan.after stores m).Fetches
  last : ∀ k, m < k → k ≤ n → ¬ (scan.after stores k).Fetches

variable {stores : Nat → Store} {m n : Nat}

theorem step_after (scan : RangeScan) (stores : Nat → Store) (n : Nat) :
    Step (stores n) (scan.after stores n) (scan.given stores n) (scan.after stores (n + 1)) :=
  step_next _ _

theorem next_after (scan : RangeScan) (stores : Nat → Store) (n : Nat) :
    (scan.after stores n).next (stores n) = (scan.given stores n, scan.after stores (n + 1)) :=
  rfl

theorem after_const_succ (scan : RangeScan) (store : Store) (n : Nat) :
    scan.after (fun _ => store) (n + 1) = (scan.next store).2.after (fun _ => store) n := by
  induction n with
  | zero => rfl
  | succ n ih =>
    rw [after, ih]
    rfl

theorem upper_after (scan : RangeScan) (stores : Nat → Store) (n : Nat) :
    (scan.after stores n).upper = scan.upper := by
  induction n with
  | zero => rfl
  | succ n ih => exact (step_after scan stores n).upper_eq.trans ih

theorem ordered_after (h : scan.Ordered) (stores : Nat → Store) (n : Nat) :
    (scan.after stores n).Ordered := by
  induction n with
  | zero => exact h
  | succ n ih => exact ih.step (step_after scan stores n)

/-- Keys are given in strictly ascending order. -/
theorem given_lt_given (h : scan.Ordered) {a b : Entry} (less : m < n)
    (ha : scan.given stores m = some (.ok a)) (hb : scan.given stores n = some (.ok b)) :
    a.1 < b.1 := by
  have passed : ∀ k, m < k → (scan.after stores k).Passed a.1 := by
    intro k
    induction k with
    | zero => intro later; omega
    | succ k ih =>
      intro later
      rcases Nat.lt_succ_iff_lt_or_eq.1 later with before | rfl
      · exact ((ih before).step (step_after scan stores k)).1
      · exact (ordered_after h stores m).passed (ha ▸ step_after scan stores m)
  exact ((passed n less).step (step_after scan stores n)).2 b hb

/-- All that is given lies among the keys that the walk is confined to. -/
theorem Within.given {keys : Bytes → Prop} (h : scan.Within keys)
    (hgiven : scan.given stores n = some (.ok e)) : keys e.1 := by
  have within : ∀ k, (scan.after stores k).Within keys := by
    intro k
    induction k with
    | zero => exact h
    | succ k ih => exact (ih.next (scan.next_after stores k)).1
  exact ((within n).next (scan.next_after stores n)).2 e hgiven

/-- What is given or waits to be given is from the page that was fetched last, as it was then. -/
theorem given_from_page (hstart : scan.buffer = [])
    (he : scan.given stores n = some (.ok e) ∨ e ∈ (scan.after stores (n + 1)).buffer) :
    ∃ m, scan.FetchedAt stores m n ∧ (stores m).contents.get? e.1 = some e.2 := by
  induction n generalizing e with
  | zero =>
    rcases (step_after scan stores 0).origin he with ⟨-, buffered⟩ | ⟨fetches, found⟩
    · have buffered : e ∈ scan.buffer := buffered
      rw [hstart] at buffered
      cases buffered
    · exact ⟨0, ⟨Nat.le_refl 0, fetches, fun k later le => by omega⟩, found⟩
  | succ n ih =>
    rcases (step_after scan stores (n + 1)).origin he with ⟨idle, buffered⟩ | ⟨fetches, found⟩
    · obtain ⟨m, fetched, found⟩ := ih (.inr buffered)
      refine ⟨m, ⟨Nat.le_succ_of_le fetched.le, fetched.fetches, fun k later le => ?_⟩, found⟩
      rcases Nat.le_succ_iff.1 le with before | rfl
      · exact fetched.last k later before
      · exact idle
    · exact ⟨n + 1, ⟨Nat.le_refl _, fetches, fun k later le => by omega⟩, found⟩

/-- A key that is in the range and was there at every call has been given when the walk ends, if no
call was refused. -/
theorem given_of_present (hstart : scan.Ahead key)
    (hupper : ∀ bound, scan.upper = some bound → key < bound)
    (granted : ∀ m < n, ∀ error, scan.given stores m ≠ some (.error error))
    (present : ∀ m ≤ n, ((stores m).contents.get? key).isSome)
    (ended : scan.given stores n = none) :
    ∃ m < n, ∃ value, scan.given stores m = some (.ok (key, value)) := by
  have bounded : ∀ k bound, (scan.after stores k).upper = some bound → key < bound :=
    fun k bound hbound => hupper bound ((upper_after scan stores k).symm.trans hbound)
  have reached : ∀ k ≤ n, (∃ m < k, ∃ value, scan.given stores m = some (.ok (key, value)))
      ∨ (scan.after stores k).Ahead key := by
    intro k
    induction k with
    | zero => exact fun _ => .inr hstart
    | succ k ih =>
      intro le
      rcases ih (Nat.le_of_succ_le le) with ⟨m, less, found⟩ | ahead
      · exact .inl ⟨m, Nat.lt_succ_of_lt less, found⟩
      · have step := step_after scan stores k
        rcases ahead.step (bounded k) (present k (Nat.le_of_succ_le le)) step with
          ⟨error, refused⟩ | ⟨value, found⟩ | ⟨-, still⟩
        · exact absurd refused (granted k le error)
        · exact .inl ⟨k, Nat.lt_succ_self k, value, found⟩
        · exact .inr still
  rcases reached n (Nat.le_refl n) with found | ahead
  · exact found
  · have step := step_after scan stores n
    rw [ended] at step
    rcases ahead.step (bounded n) (present n (Nat.le_refl n)) step with
      ⟨error, refused⟩ | ⟨value, found⟩ | ⟨goes_on, -⟩
    · cases refused
    · cases found
    · exact absurd rfl goes_on

/-- A walk that has ended gives nothing more, whatever is written. -/
theorem given_of_ended (ended : scan.given stores n = none) (later : n ≤ m) :
    scan.given stores m = none := by
  have ended_after : ∀ k, n < k → (scan.after stores k).Over := by
    intro k
    induction k with
    | zero => intro less; omega
    | succ k ih =>
      intro less
      have step := step_after scan stores k
      rcases Nat.lt_succ_iff_lt_or_eq.1 less with before | rfl
      · have same := ((ih before).step step).2
        rw [same]
        exact ih before
      · rw [ended] at step
        exact step.over_of_none
  rcases Nat.lt_or_eq_of_le later with before | rfl
  · exact ((ended_after m before).step (step_after scan stores m)).1
  · exact ended

/-- On one store the calls give what is before the walk, entry by entry, and then nothing. -/
theorem given_const (hstore : store.Reliable) (scan : RangeScan) (n : Nat) :
    scan.given (fun _ => store) n = (scan.remaining store.contents)[n]?.map .ok := by
  induction n generalizing scan with
  | zero =>
    show (scan.next store).1 = _
    rcases next_eq hstore scan with ⟨scan', hnext, nothing⟩ | ⟨e, scan', hnext, hremaining⟩
    · rw [hnext, nothing]
      rfl
    · rw [hnext, hremaining]
      rfl
  | succ n ih =>
    rcases next_eq hstore scan with ⟨scan', hnext, nothing⟩ | ⟨e, scan', hnext, hremaining⟩
    · have ended : scan.given (fun _ => store) 0 = none := congrArg Prod.fst hnext
      rw [given_of_ended ended (Nat.zero_le _), nothing]
      rfl
    · calc scan.given (fun _ => store) (n + 1)
          = scan'.given (fun _ => store) n := by rw [given, after_const_succ, hnext]; rfl
        _ = (scan'.remaining store.contents)[n]?.map .ok := ih scan'
        _ = (scan.remaining store.contents)[n + 1]?.map .ok := by
            rw [hremaining, List.getElem?_cons_succ]

/-! ## What a walk gives among changes -/

/-- A walk through a range gives the keys of the range in strictly ascending order, each with a
value that it had when its page was fetched, whatever happens to the store between the calls. Once
the walk has ended, it has given every key of the range that was there all the time exactly once,
and it gives nothing more. This takes that no page was refused, and a reliable store refuses none.
On a store that stays the same the walk gives what one scan without a limit gives, and ends. -/
theorem walk_among_changes (start : Bytes) (upper : Option Bytes) (pageSize : Nat)
    (stores : Nat → Store) :
    let walk := ofRange start upper pageSize
    (∀ m n a b, m < n → walk.given stores m = some (.ok a) → walk.given stores n = some (.ok b) →
      a.1 < b.1)
    ∧ (∀ n e, walk.given stores n = some (.ok e) → KeyMap.inRange start upper e.1
        ∧ ∃ m, walk.FetchedAt stores m n ∧ (stores m).contents.get? e.1 = some e.2)
    ∧ (∀ n, walk.given stores n = none →
        (∀ m < n, ∀ error, walk.given stores m ≠ some (.error error)) →
        ∀ key, KeyMap.inRange start upper key →
        (∀ m ≤ n, ((stores m).contents.get? key).isSome) →
        ∃! m, m < n ∧ ∃ value, walk.given stores m = some (.ok (key, value)))
    ∧ (∀ n, walk.given stores n = none → ∀ m ≥ n, walk.given stores m = none)
    ∧ (∀ n, (stores n).Reliable → ∀ error, walk.given stores n ≠ some (.error error))
    ∧ (∀ store, store.Reliable → ∃ entries,
        (∀ limit ≥ store.contents.size, store.scan start upper limit = .ok entries)
        ∧ walk.items store = entries.map .ok
        ∧ ∀ n, walk.given (fun _ => store) n = entries[n]?.map .ok)
    ∧ ofRange start upper 0 = ofRange start upper 1 := by
  intro walk
  have ordered : walk.Ordered := ⟨.nil, List.forall_mem_nil _⟩
  have within : walk.Within (KeyMap.inRange start upper ·) :=
    within_ofRange (fun key first last => (KeyMap.inRange_iff _ _ _).2 ⟨first, last⟩) pageSize
  refine ⟨fun m n a b less => given_lt_given ordered less, fun n e given => ⟨within.given given,
    given_from_page rfl (.inl given)⟩, ?_, fun n ended m later => given_of_ended ended later,
    fun n hstore => (step_after walk stores n).ne_error hstore, ?_, rfl⟩
  · intro n ended granted key inside present
    obtain ⟨first, last⟩ := (KeyMap.inRange_iff start upper key).1 inside
    obtain ⟨m, before, value, found⟩ :=
      given_of_present (.inr ⟨rfl, first⟩) last granted present ended
    refine ⟨m, ⟨before, value, found⟩, ?_⟩
    rintro k ⟨-, value', found'⟩
    -- two calls that give one key would give it twice in ascending order
    rcases Nat.lt_trichotomy k m with less | same | greater
    · exact absurd (given_lt_given ordered less found' found) (List.lt_irrefl key)
    · exact same
    · exact absurd (given_lt_given ordered greater found found') (List.lt_irrefl key)
  · intro store hstore
    refine ⟨store.contents.range start upper, fun limit enough => ?_,
      items_ofRange hstore start upper pageSize, given_const hstore walk⟩
    have fewer : (store.contents.range start upper).length ≤ limit :=
      Nat.le_trans (List.length_filter_le _ _) enough
    rw [Store.scan_eq hstore, List.take_of_length_le fewer]

/-- A store with these keys, each of one octet. -/
def holding (keys : List UInt8) : Store :=
  .memory (keys.foldl (fun contents key => contents.insert [key] []) .empty)

/-- After the first call the second key is deleted and the third is written, and once the walk has
ended a fifth key is written. -/
def shifting : Nat → Store
  | 0 => holding [1, 2, 4]
  | 1 | 2 | 3 | 4 => holding [1, 3, 4]
  | _ => holding [1, 3, 4, 5]

/-- By pages of two entries the walk gives the deleted key, which it had fetched, and then the new
one. -/
theorem walk_among_changes_shifting :
    let walk := ofRange [1] none 2
    (List.range 6).map (walk.given shifting) =
        [some (.ok ([1], [])), some (.ok ([2], [])), some (.ok ([3], [])), some (.ok ([4], [])),
          none, none]
      ∧ (∃ m, walk.FetchedAt shifting m 1 ∧ (shifting m).contents.get? [2] = some [])
      ∧ (∃! m, m < 4 ∧ ∃ value, walk.given shifting m = some (.ok ([4], value)))
      ∧ walk.given shifting 9 = none := by
  intro walk
  have told : (List.range 6).map (walk.given shifting) =
      [some (.ok ([1], [])), some (.ok ([2], [])), some (.ok ([3], [])), some (.ok ([4], [])),
        none, none] := by
    decide +kernel
  have second : walk.given shifting 1 = some (.ok ([2], [])) := by decide +kernel
  have ended : walk.given shifting 4 = none := by decide +kernel
  obtain ⟨-, inside, complete, ends, -, -, -⟩ := walk_among_changes [1] none 2 shifting
  refine ⟨told, (inside 1 _ second).2, complete 4 ended ?_ [4] (by decide) ?_, ends 4 ended 9
    (by decide)⟩
  · intro m less error refused
    have reliable : (shifting m).Reliable := by
      match m, less with
      | 0, _ | 1, _ | 2, _ | 3, _ => exact fun _ => rfl
    exact (step_after walk shifting m).ne_error reliable error refused
  · intro m le
    match m, le with
    | 0, _ | 1, _ | 2, _ | 3, _ | 4, _ => rfl

end RangeScan

end Gazette
