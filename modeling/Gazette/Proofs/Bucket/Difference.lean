import Gazette.Proofs.Bucket.Changes
import Gazette.Proofs.Bucket.History
import Mathlib.Data.Finset.Image
import Mathlib.Data.Finset.Option

set_option autoImplicit false

/-! # From one version of a record to another

`Index.changes` goes through the declared indexes and compares the keys of two versions. The first
index to refuse a version ends it (`changesFrom_eq_error_iff`). If there is none, the changes are
known by their places, which ascend, and by their keys (`mem_changesFrom_iff`).

The keys of a version, each with the place of its index, are `placedKeys`. Making the changes on
those of the old version, one after the other, gives those of the new one
(`applyAll_placedKeys`), and the changes the other way round lead back (`changesFrom_swap`). The
main statement `changes_exact` puts this together.
-/

namespace Gazette.Index

variable {ρ : Type} {index : Index ρ} {indexes : List (Index ρ)} {old new version : Option ρ}
  {fault : ExtractFault} {position : Nat} {listed : List (Change ρ)} {change : Change ρ}

/-! ## Refusals -/

/-- The index refuses a version of a record; an absent version is not refused. -/
def Refuses (index : Index ρ) (version : Option ρ) (reason : String) : Prop :=
  ∃ record, version = some record ∧ index.extract record = .error reason

/-- The fault names the first index to refuse one of two versions, and says why. If it refuses
both, the reason is that for the old one. -/
def FirstRefusal (indexes : List (Index ρ)) (old new : Option ρ) (fault : ExtractFault) : Prop :=
  ∃ before index after, indexes = before ++ index :: after
    ∧ (∀ earlier ∈ before, ∀ reason, ¬ earlier.Refuses old reason ∧ ¬ earlier.Refuses new reason)
    ∧ fault.index = index.name.text
    ∧ (index.Refuses old fault.reason
      ∨ (∀ reason, ¬ index.Refuses old reason) ∧ index.Refuses new fault.reason)

theorem keyOf_eq_error_iff :
    index.keyOf version = .error fault ↔
      fault.index = index.name.text ∧ index.Refuses version fault.reason := by
  cases version with
  | none => simp [keyOf, Refuses]
  | some record =>
    rw [keyOf_some_eq_error]
    constructor
    · rintro ⟨reason, refused, rfl⟩
      exact ⟨rfl, record, rfl, refused⟩
    · rintro ⟨named, _, ⟨⟩, refused⟩
      exact ⟨fault.reason, refused, by rw [← named]⟩

/-- A version that is not refused has a key, or is left out. -/
theorem exists_keyOf_iff :
    (∃ key, index.keyOf version = .ok key) ↔ ∀ reason, ¬ index.Refuses version reason := by
  cases hkey : index.keyOf version with
  | ok key =>
    refine iff_of_true ⟨key, rfl⟩ fun reason refused => ?_
    have failed : index.keyOf version = .error ⟨index.name.text, reason⟩ :=
      keyOf_eq_error_iff.2 ⟨rfl, refused⟩
    rw [hkey] at failed
    cases failed
  | error fault =>
    obtain ⟨-, refused⟩ := keyOf_eq_error_iff.1 hkey
    refine iff_of_false ?_ fun accepted => accepted _ refused
    rintro ⟨key, ⟨⟩⟩

/-- The first refusal is by the first index, or by a later one if the first refuses neither
version. -/
theorem firstRefusal_cons :
    FirstRefusal (index :: indexes) old new fault ↔
      index.keyOf old = .error fault
      ∨ ∃ a, index.keyOf old = .ok a ∧ (index.keyOf new = .error fault
        ∨ ∃ b, index.keyOf new = .ok b ∧ FirstRefusal indexes old new fault) := by
  constructor
  · rintro ⟨before, refusing, after, split, accepted, named, refused⟩
    cases before with
    | nil =>
      obtain ⟨rfl, rfl⟩ := List.cons.inj split
      rcases refused with old_refused | ⟨old_accepted, new_refused⟩
      · exact .inl (keyOf_eq_error_iff.2 ⟨named, old_refused⟩)
      · obtain ⟨a, ha⟩ := exists_keyOf_iff.2 old_accepted
        exact .inr ⟨a, ha, .inl (keyOf_eq_error_iff.2 ⟨named, new_refused⟩)⟩
    | cons first before =>
      obtain ⟨rfl, rfl⟩ := List.cons.inj split
      have first_accepts := accepted index List.mem_cons_self
      obtain ⟨a, ha⟩ := exists_keyOf_iff.2 fun reason => (first_accepts reason).1
      obtain ⟨b, hb⟩ := exists_keyOf_iff.2 fun reason => (first_accepts reason).2
      refine .inr ⟨a, ha, .inr ⟨b, hb, before, refusing, after, rfl, ?_, named, refused⟩⟩
      exact fun earlier hearlier => accepted earlier (List.mem_cons_of_mem _ hearlier)
  · rintro (old_refused | ⟨a, ha, new_refused | ⟨b, hb, before, refusing, after, rfl, accepted, rest⟩⟩)
    · obtain ⟨named, refused⟩ := keyOf_eq_error_iff.1 old_refused
      exact ⟨[], index, indexes, rfl, by simp, named, .inl refused⟩
    · obtain ⟨named, refused⟩ := keyOf_eq_error_iff.1 new_refused
      exact ⟨[], index, indexes, rfl, by simp, named, .inr ⟨exists_keyOf_iff.1 ⟨a, ha⟩, refused⟩⟩
    · refine ⟨index :: before, refusing, after, rfl, fun earlier hearlier reason => ?_, rest⟩
      rcases List.mem_cons.1 hearlier with rfl | hearlier
      · exact ⟨exists_keyOf_iff.1 ⟨a, ha⟩ reason, exists_keyOf_iff.1 ⟨b, hb⟩ reason⟩
      · exact accepted earlier hearlier reason

theorem changesFrom_eq_error_iff :
    changesFrom position old new indexes = .error fault ↔ FirstRefusal indexes old new fault := by
  induction indexes generalizing position with
  | nil => simp [changesFrom, FirstRefusal]
  | cons index rest ih =>
    rw [changesFrom, firstRefusal_cons, bind_eq_error]
    simp only [bind_eq_error, ih]
    refine or_congr_right (exists_congr fun a => and_congr_right fun _ => or_congr_right
      (exists_congr fun b => and_congr_right fun _ => or_iff_left ?_))
    rintro ⟨later, -, ⟨⟩⟩

/-- Some index refuses a version just if one is the first to do so. -/
theorem exists_firstRefusal_iff :
    (∃ fault, FirstRefusal indexes old new fault) ↔
      ∃ index ∈ indexes, ∃ reason, index.Refuses old reason ∨ index.Refuses new reason := by
  constructor
  · rintro ⟨fault, before, index, after, rfl, -, -, refused⟩
    exact ⟨index, by simp, fault.reason, refused.imp id And.right⟩
  · rintro ⟨index, hindex, reason, refused⟩
    cases hchanges : changesFrom 0 old new indexes with
    | error fault => exact ⟨fault, changesFrom_eq_error_iff.1 hchanges⟩
    | ok listed =>
      obtain ⟨a, b, ha, hb, -⟩ := exists_mem_changesFrom hchanges hindex
      exact absurd refused (not_or.2 ⟨exists_keyOf_iff.1 ⟨a, ha⟩ _, exists_keyOf_iff.1 ⟨b, hb⟩ _⟩)

/-! ## What is listed -/

/-- The index is declared at this place, if the first one is at `position`. -/
def DeclaredAt (indexes : List (Index ρ)) (position place : Nat) (index : Index ρ) : Prop :=
  ∃ offset, place = position + offset ∧ indexes[offset]? = some index

theorem declaredAt_cons {first : Index ρ} {place : Nat} :
    DeclaredAt (first :: indexes) position place index ↔
      (place = position ∧ index = first) ∨ DeclaredAt indexes (position + 1) place index := by
  constructor
  · rintro ⟨offset, rfl, found⟩
    cases offset with
    | zero => exact .inl ⟨rfl, (Option.some.inj found).symm⟩
    | succ offset => exact .inr ⟨offset, by omega, found⟩
  · rintro (⟨rfl, rfl⟩ | ⟨offset, rfl, found⟩)
    · exact ⟨0, rfl, rfl⟩
    · exact ⟨offset + 1, by omega, found⟩

theorem DeclaredAt.le {place : Nat} (h : DeclaredAt indexes position place index) :
    position ≤ place := by
  obtain ⟨offset, rfl, -⟩ := h
  exact Nat.le_add_right position offset

/-- The keys of a change are those of the two versions, and they differ. -/
structure Change.Between (change : Change ρ) (old new : Option ρ) : Prop where
  old_key : change.index.keyOf old = .ok change.old
  new_key : change.index.keyOf new = .ok change.new
  differ : change.old ≠ change.new

/-- The changes that are listed are those of the declared indexes whose keys differ. -/
theorem mem_changesFrom_iff (h : changesFrom position old new indexes = .ok listed) :
    change ∈ listed ↔
      DeclaredAt indexes position change.position change.index ∧ change.Between old new := by
  induction indexes generalizing position listed with
  | nil =>
    cases h
    simp [DeclaredAt]
  | cons index rest ih =>
    obtain ⟨a, b, later, ha, hb, hlater, rfl⟩ := changesFrom_cons.1 h
    rw [declaredAt_cons, or_and_right, ← ih hlater]
    -- a change of the first index can only be the one that compares `a` with `b`
    have own : ((change.position = position ∧ change.index = index) ∧ change.Between old new) ↔
        a ≠ b ∧ change = ⟨position, index, a, b⟩ := by
      constructor
      · rintro ⟨⟨rfl, rfl⟩, between⟩
        obtain rfl := Except.ok.inj (ha.symm.trans between.old_key)
        obtain rfl := Except.ok.inj (hb.symm.trans between.new_key)
        exact ⟨between.differ, rfl⟩
      · rintro ⟨differ, rfl⟩
        exact ⟨⟨rfl, rfl⟩, ha, hb, differ⟩
    rw [own]
    split
    · rename_i same
      simp [same]
    · rename_i differ
      simp [differ]

theorem position_le_of_mem (h : changesFrom position old new indexes = .ok listed)
    (hchange : change ∈ listed) : position ≤ change.position :=
  ((mem_changesFrom_iff h).1 hchange).1.le

/-- The changes are listed in the order in which the indexes are declared. -/
theorem changesFrom_ascending (h : changesFrom position old new indexes = .ok listed) :
    listed.Pairwise fun c d => c.position < d.position := by
  induction indexes generalizing position listed with
  | nil =>
    cases h
    exact .nil
  | cons index rest ih =>
    obtain ⟨a, b, later, -, -, hlater, rfl⟩ := changesFrom_cons.1 h
    split
    · exact ih hlater
    · exact List.pairwise_cons.2 ⟨fun d hd => position_le_of_mem hlater hd, ih hlater⟩

/-! ## The other way round -/

/-- The change back. -/
def Change.swap (change : Change ρ) : Change ρ := { change with old := change.new, new := change.old }

theorem changesFrom_swap (h : changesFrom position old new indexes = .ok listed) :
    changesFrom position new old indexes = .ok (listed.map Change.swap) := by
  induction indexes generalizing position listed with
  | nil =>
    cases h
    rfl
  | cons index rest ih =>
    obtain ⟨a, b, later, ha, hb, hlater, rfl⟩ := changesFrom_cons.1 h
    refine changesFrom_cons.2 ⟨b, a, later.map Change.swap, hb, ha, ih hlater, ?_⟩
    by_cases same : a = b
    · rw [if_pos same, if_pos same.symm]
    · rw [if_neg same, if_neg (Ne.symm same), List.map_cons]
      rfl

/-! ## Making the changes -/

/-- The key of one index, if there is one, with the place of the index. -/
def placed (place : Nat) (key : Option Bytes) : Finset (Nat × Bytes) :=
  key.toFinset.image fun key => (place, key)

/-- All keys of a version, each with the place of its index; the first index is at `position`. -/
def placedKeysFrom (version : Option ρ) : (position : Nat) → List (Index ρ) → Finset (Nat × Bytes)
  | _, [] => ∅
  | position, index :: rest =>
    placed position ((index.keyOf version).toOption.join) ∪ placedKeysFrom version (position + 1) rest

/-- All keys of a version, each with the place of its index. -/
def placedKeys (indexes : List (Index ρ)) (version : Option ρ) : Finset (Nat × Bytes) :=
  placedKeysFrom version 0 indexes

/-- The keys after a change: without the old key of the index, and with the new one. -/
def Change.applyTo (change : Change ρ) (keys : Finset (Nat × Bytes)) : Finset (Nat × Bytes) :=
  (keys \ placed change.position change.old) ∪ placed change.position change.new

/-- The keys after changes that are made one after the other. -/
def applyAll (listed : List (Change ρ)) (keys : Finset (Nat × Bytes)) : Finset (Nat × Bytes) :=
  listed.foldl (fun keys change => change.applyTo keys) keys

theorem mem_placed {place : Nat} {key : Option Bytes} {e : Nat × Bytes} :
    e ∈ placed place key ↔ e.1 = place ∧ key = some e.2 := by
  obtain ⟨p, k⟩ := e
  simp only [placed, Finset.mem_image, Option.mem_toFinset, Option.mem_def, Prod.mk.injEq]
  constructor
  · rintro ⟨l, found, rfl, rfl⟩
    exact ⟨rfl, found⟩
  · rintro ⟨rfl, found⟩
    exact ⟨k, found, rfl, rfl⟩

theorem mem_placedKeysFrom {e : Nat × Bytes} :
    e ∈ placedKeysFrom version position indexes ↔
      ∃ index, DeclaredAt indexes position e.1 index ∧ index.keyOf version = .ok (some e.2) := by
  induction indexes generalizing position with
  | nil => simp [placedKeysFrom, DeclaredAt]
  | cons first rest ih =>
    have key_iff : (first.keyOf version).toOption.join = some e.2 ↔
        first.keyOf version = .ok (some e.2) := by
      cases first.keyOf version <;> simp [Except.toOption]
    rw [placedKeysFrom, Finset.mem_union, mem_placed, key_iff, ih]
    simp only [declaredAt_cons, or_and_right, exists_or, and_assoc, exists_and_left,
      exists_eq_left]

/-- What the changes leave: a key that one of them brings, or one that none of them takes away. -/
theorem mem_applyAll (ascending : listed.Pairwise fun c d => c.position < d.position)
    {keys : Finset (Nat × Bytes)} {e : Nat × Bytes} :
    e ∈ applyAll listed keys ↔
      (∃ c ∈ listed, e ∈ placed c.position c.new)
      ∨ e ∈ keys ∧ ∀ c ∈ listed, e ∉ placed c.position c.old := by
  induction listed generalizing keys with
  | nil => simp [applyAll]
  | cons change rest ih =>
    obtain ⟨before, tail⟩ := List.pairwise_cons.1 ascending
    -- what a change brings is not taken away later, for no later change is of the same index
    have kept : e ∈ placed change.position change.new →
        ∀ c ∈ rest, e ∉ placed c.position c.old := by
      intro brought c hc taken
      have less := before c hc
      rw [← (mem_placed.1 brought).1, ← (mem_placed.1 taken).1] at less
      exact Nat.lt_irrefl _ less
    show e ∈ applyAll rest (change.applyTo keys) ↔ _
    rw [ih tail, Change.applyTo, Finset.mem_union, Finset.mem_sdiff]
    simp only [List.mem_cons, exists_eq_or_imp, forall_eq_or_imp]
    constructor
    · rintro (later | ⟨⟨held, untaken⟩ | brought, untaken_later⟩)
      · exact .inl (.inr later)
      · exact .inr ⟨held, untaken, untaken_later⟩
      · exact .inl (.inl brought)
    · rintro ((brought | later) | ⟨held, untaken, untaken_later⟩)
      · exact .inr ⟨.inr brought, kept brought⟩
      · exact .inl later
      · exact .inr ⟨.inl ⟨held, untaken⟩, untaken_later⟩

theorem declaredAt_zero {place : Nat} :
    DeclaredAt indexes 0 place index ↔ indexes[place]? = some index := by
  simp [DeclaredAt]

theorem mem_placedKeys {e : Nat × Bytes} :
    e ∈ placedKeys indexes version ↔
      ∃ index, indexes[e.1]? = some index ∧ index.keyOf version = .ok (some e.2) := by
  simp only [placedKeys, mem_placedKeysFrom, declaredAt_zero]

/-- A change takes away and brings keys of the index that is declared at its place. -/
theorem change_eq_of_declared (h : changes indexes old new = .ok listed) (hchange : change ∈ listed)
    (declared : indexes[change.position]? = some index) :
    index.keyOf old = .ok change.old ∧ index.keyOf new = .ok change.new
      ∧ change.old ≠ change.new := by
  obtain ⟨own, between⟩ := (mem_changesFrom_iff h).1 hchange
  obtain rfl := Option.some.inj (declared.symm.trans (declaredAt_zero.1 own))
  exact ⟨between.old_key, between.new_key, between.differ⟩

/-- The changes between two versions make the keys of the new version out of those of the old. -/
theorem applyAll_placedKeys (h : changes indexes old new = .ok listed) :
    applyAll listed (placedKeys indexes old) = placedKeys indexes new := by
  ext e
  rw [mem_applyAll (changesFrom_ascending h)]
  constructor
  · rintro (⟨c, hc, brought⟩ | ⟨held, untaken⟩)
    · obtain ⟨own, between⟩ := (mem_changesFrom_iff h).1 hc
      obtain ⟨place, key⟩ := mem_placed.1 brought
      refine mem_placedKeys.2 ⟨c.index, ?_, key ▸ between.new_key⟩
      rw [place]
      exact declaredAt_zero.1 own
    · obtain ⟨index, declared, hold⟩ := mem_placedKeys.1 held
      obtain ⟨a, b, ha, hb, -⟩ := exists_mem_changesFrom h (List.mem_of_getElem? declared)
      obtain rfl := Except.ok.inj (hold.symm.trans ha)
      refine mem_placedKeys.2 ⟨index, declared, ?_⟩
      -- if the new key were another, a change would take the old one away
      by_contra changed
      have differ : some e.2 ≠ b := by
        rintro rfl
        exact changed hb
      have listed_here : (⟨e.1, index, some e.2, b⟩ : Change ρ) ∈ listed :=
        (mem_changesFrom_iff h).2 ⟨declaredAt_zero.2 declared, hold, hb, differ⟩
      exact untaken _ listed_here (mem_placed.2 ⟨rfl, rfl⟩)
  · intro held
    obtain ⟨index, declared, hnew⟩ := mem_placedKeys.1 held
    obtain ⟨a, b, ha, hb, -⟩ := exists_mem_changesFrom h (List.mem_of_getElem? declared)
    obtain rfl := Except.ok.inj (hnew.symm.trans hb)
    by_cases same : a = some e.2
    · refine .inr ⟨mem_placedKeys.2 ⟨index, declared, same ▸ ha⟩, fun c hc taken => ?_⟩
      -- a change at this place would have the same key on both sides
      obtain ⟨place, key⟩ := mem_placed.1 taken
      obtain ⟨hold, hnew', differ⟩ := change_eq_of_declared h hc (place ▸ declared)
      exact differ (key.trans (Except.ok.inj (hnew.symm.trans hnew')))
    · have listed_here : (⟨e.1, index, a, some e.2⟩ : Change ρ) ∈ listed :=
        (mem_changesFrom_iff h).2 ⟨declaredAt_zero.2 declared, ha, hnew, same⟩
      exact .inl ⟨_, listed_here, mem_placed.2 ⟨rfl, rfl⟩⟩

/-! ## All together -/

/-- Comparing two versions of a record, either of which may be absent, fails just if some index
refuses one of them, and names the first such index, with the reason for the old version if it
refuses both. Otherwise it lists, in the order of their places, one change for each index whose key
differs, with both keys, and no other. These make the keys of the new version out of those of the
old one, and the changes the other way round are the same with their keys exchanged. -/
theorem changes_exact (indexes : List (Index ρ)) (old new : Option ρ) :
    ((∃ fault, changes indexes old new = .error fault) ↔
        ∃ index ∈ indexes, ∃ reason, index.Refuses old reason ∨ index.Refuses new reason)
      ∧ (∀ fault, changes indexes old new = .error fault ↔ FirstRefusal indexes old new fault)
      ∧ ∀ listed, changes indexes old new = .ok listed →
          (listed.Pairwise fun c d => c.position < d.position)
          ∧ (∀ change, change ∈ listed ↔
              indexes[change.position]? = some change.index ∧ change.Between old new)
          ∧ applyAll listed (placedKeys indexes old) = placedKeys indexes new
          ∧ changes indexes new old = .ok (listed.map Change.swap) := by
  have failed_iff : ∀ fault, changes indexes old new = .error fault ↔
      FirstRefusal indexes old new fault := fun fault => changesFrom_eq_error_iff
  refine ⟨?_, failed_iff, fun listed h => ⟨changesFrom_ascending h, fun change => ?_,
    applyAll_placedKeys h, changesFrom_swap h⟩⟩
  · rw [← exists_firstRefusal_iff]
    exact exists_congr failed_iff
  · rw [mem_changesFrom_iff h, declaredAt_zero]

/-- A note is moved to another topic, and the index of authors has no part in it. At a negative
time the third index refuses it. -/
theorem changes_exact_moved :
    let timed : Index Note :=
      { name := { text := "topictime" }, unique := false, extract := Note.topicTimeKey }
    let note : Note := ⟨some ⟨1⟩, "ada", 1, 5⟩
    let moved : Note := { note with topic := 2 }
    let change : Change Note := ⟨1, Bucket.notes.indexes[1], some [1], some [2]⟩
    changes Bucket.notes.indexes (some note) (some moved) = .ok [change]
      ∧ changes Bucket.notes.indexes (some moved) (some note) = .ok [change.swap]
      ∧ applyAll [change] {(0, Utf8.encode "ada"), (1, [1])} = {(0, Utf8.encode "ada"), (1, [2])}
      ∧ changes (Bucket.notes.indexes ++ [timed]) (some note) (some { moved with time := -1 }) =
          .error ⟨"topictime", "negative time"⟩ := by
  intro timed note moved change
  have listed : changes Bucket.notes.indexes (some note) (some moved) = .ok [change] := by
    refine changesFrom_cons.2 ⟨_, _, [change], rfl, rfl, ?_, (if_pos rfl).symm⟩
    exact changesFrom_cons.2 ⟨_, _, [], rfl, rfl, rfl, (if_neg (by decide)).symm⟩
  obtain ⟨-, -, exact_ok⟩ := changes_exact Bucket.notes.indexes (some note) (some moved)
  obtain ⟨-, -, applied, swapped⟩ := exact_ok _ listed
  refine ⟨listed, swapped, applied, ?_⟩
  obtain ⟨-, failed_iff, -⟩ := changes_exact (Bucket.notes.indexes ++ [timed]) (some note)
    (some { moved with time := -1 })
  have accepts : ∀ version key, timed.keyOf version = .ok key →
      ∀ reason, ¬ timed.Refuses version reason := fun _ key hkey => exists_keyOf_iff.1 ⟨key, hkey⟩
  refine (failed_iff _).2 ⟨Bucket.notes.indexes, timed, [], rfl, ?_, rfl,
    .inr ⟨accepts _ (some [1, 0, 0, 0, 0, 0, 0, 0, 5]) (by decide), _, rfl, by decide⟩⟩
  -- the indexes by author and by topic refuse no note
  intro earlier hearlier reason
  have total : ∀ record, earlier.extract record ≠ .error reason := by
    rcases List.mem_pair.1 hearlier with rfl | rfl
    · exact fun _ => nofun
    · exact fun _ => nofun
  exact ⟨fun ⟨record, _, refused⟩ => total record refused,
    fun ⟨record, _, refused⟩ => total record refused⟩

end Gazette.Index
