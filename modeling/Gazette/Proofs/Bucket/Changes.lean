import Gazette.Bucket.Basic
import Gazette.Proofs.Outcome

set_option autoImplicit false

/-! # Changed index keys

What `Index.changes` lists, if no index refuses either version of the record: for each index
whose key differs one change with both keys (`exists_mem_changesFrom`), and nothing
else (`mem_changesFrom`). It is refused only if some index refuses a version (`changesFrom_ok`).
-/

namespace Gazette.Index

variable {ρ : Type}

theorem keyOf_some_eq_ok {index : Index ρ} {record : ρ} {key : Option Bytes} :
    index.keyOf (some record) = .ok key ↔ index.extract record = .ok key := by
  simp only [keyOf]
  constructor
  · intro h
    split at h
    · rename_i found
      cases h
      exact found
    · cases h
  · intro h
    rw [h]

theorem keyOf_some_eq_error {index : Index ρ} {record : ρ} {fault : ExtractFault} :
    index.keyOf (some record) = .error fault ↔
      ∃ reason, index.extract record = .error reason ∧ fault = ⟨index.name.text, reason⟩ := by
  rw [keyOf]
  cases index.extract record with
  | ok key => simp
  | error reason => simp [eq_comm]

theorem changesFrom_cons {index : Index ρ} {rest : List (Index ρ)} {position : Nat}
    {old new : Option ρ} {changes : List (Change ρ)} :
    changesFrom position old new (index :: rest) = .ok changes ↔
      ∃ a b later, index.keyOf old = .ok a ∧ index.keyOf new = .ok b
        ∧ changesFrom (position + 1) old new rest = .ok later
        ∧ changes = if a = b then later else ⟨position, index, a, b⟩ :: later := by
  rw [changesFrom]
  simp only [bind_eq_ok, Except.ok.injEq]
  constructor
  · rintro ⟨a, ha, b, hb, later, hlater, rfl⟩
    exact ⟨a, b, later, ha, hb, hlater, rfl⟩
  · rintro ⟨a, b, later, ha, hb, hlater, rfl⟩
    exact ⟨a, ha, b, hb, later, hlater, rfl⟩

/-- A listed change is a change of a declared index. -/
theorem mem_changesFrom {indexes : List (Index ρ)} {position : Nat} {old new : Option ρ}
    {changes : List (Change ρ)} (h : changesFrom position old new indexes = .ok changes)
    {change : Change ρ} (mem : change ∈ changes) :
    change.index ∈ indexes ∧ change.index.keyOf old = .ok change.old
      ∧ change.index.keyOf new = .ok change.new ∧ change.old ≠ change.new := by
  induction indexes generalizing position changes with
  | nil =>
    cases h
    cases mem
  | cons index rest ih =>
    obtain ⟨a, b, later, ha, hb, hlater, rfl⟩ := changesFrom_cons.1 h
    split at mem
    -- if the keys are the same, nothing is listed for this index
    · have := ih hlater mem
      exact ⟨List.mem_cons_of_mem _ this.1, this.2⟩
    · rename_i differ
      rcases List.mem_cons.1 mem with rfl | mem
      · exact ⟨List.mem_cons_self, ha, hb, differ⟩
      · have := ih hlater mem
        exact ⟨List.mem_cons_of_mem _ this.1, this.2⟩

/-- Every declared index has a key in both versions, and is listed if they differ. -/
theorem exists_mem_changesFrom {indexes : List (Index ρ)} {position : Nat} {old new : Option ρ}
    {changes : List (Change ρ)} (h : changesFrom position old new indexes = .ok changes)
    {index : Index ρ} (mem : index ∈ indexes) :
    ∃ a b, index.keyOf old = .ok a ∧ index.keyOf new = .ok b
      ∧ (a ≠ b → ∃ change ∈ changes, change.index = index ∧ change.old = a ∧ change.new = b) := by
  induction indexes generalizing position changes with
  | nil => cases mem
  | cons first rest ih =>
    obtain ⟨a, b, later, ha, hb, hlater, rfl⟩ := changesFrom_cons.1 h
    rcases List.mem_cons.1 mem with rfl | mem
    · refine ⟨a, b, ha, hb, fun differ => ?_⟩
      rw [if_neg differ]
      exact ⟨_, List.mem_cons_self, rfl, rfl, rfl⟩
    · obtain ⟨a', b', ha', hb', listed⟩ := ih hlater mem
      refine ⟨a', b', ha', hb', fun differ => ?_⟩
      obtain ⟨change, hchange, spec⟩ := listed differ
      refine ⟨change, ?_, spec⟩
      split
      · exact hchange
      · exact List.mem_cons_of_mem _ hchange

/-- If no index refuses a version, the changes are worked out. -/
theorem changesFrom_ok {indexes : List (Index ρ)} {old new : Option ρ} (position : Nat)
    (h : ∀ index ∈ indexes, (∃ a, index.keyOf old = .ok a) ∧ ∃ b, index.keyOf new = .ok b) :
    ∃ changes, changesFrom position old new indexes = .ok changes := by
  induction indexes generalizing position with
  | nil => exact ⟨[], rfl⟩
  | cons index rest ih =>
    obtain ⟨⟨a, ha⟩, b, hb⟩ := h index List.mem_cons_self
    obtain ⟨later, hlater⟩ := ih (position + 1) fun i hi => h i (List.mem_cons_of_mem _ hi)
    exact ⟨_, changesFrom_cons.2 ⟨a, b, later, ha, hb, hlater, rfl⟩⟩

/-- If the changes are not worked out, some index refuses a version. -/
theorem changesFrom_eq_error {indexes : List (Index ρ)} {position : Nat} {old new : Option ρ}
    {fault : ExtractFault} (h : changesFrom position old new indexes = .error fault) :
    ∃ index ∈ indexes, index.keyOf old = .error fault ∨ index.keyOf new = .error fault := by
  induction indexes generalizing position with
  | nil => cases h
  | cons index rest ih =>
    rw [changesFrom] at h
    rcases bind_eq_error.1 h with refused | ⟨a, -, h⟩
    · exact ⟨index, List.mem_cons_self, .inl refused⟩
    rcases bind_eq_error.1 h with refused | ⟨b, -, h⟩
    · exact ⟨index, List.mem_cons_self, .inr refused⟩
    rcases bind_eq_error.1 h with later | ⟨changes, -, h⟩
    · obtain ⟨i, hi, refused⟩ := ih later
      exact ⟨i, List.mem_cons_of_mem _ hi, refused⟩
    · cases h

end Gazette.Index
