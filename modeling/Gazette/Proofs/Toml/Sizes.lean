import Gazette.Toml.Reader

set_option autoImplicit false

/-! # The size of integers

A value *fits* if every integer in it, at any depth, fits into a signed 64-bit word. Every value
that a reader yields fits, and neither a dotted key nor a header puts anything else into a table.
So all of a document fits (`fit_of_read`).
-/

namespace Gazette.Toml

/-- Every integer in the value fits into a signed 64-bit word. -/
inductive Item.Fits : Item → Prop
  | string (s : String) : Fits (.string s)
  | integer {n : Int} (least : Int64.minValue.toInt ≤ n) (most : n ≤ Int64.maxValue.toInt) :
      Fits (.integer n)
  | float (literal : String) : Fits (.float literal)
  | boolean (b : Bool) : Fits (.boolean b)
  | dateTime (literal : String) : Fits (.dateTime literal)
  | array {items : List Item} (each : ∀ item ∈ items, Fits item) : Fits (.array items)
  | table {origin : Origin} {fields : Fields} (each : ∀ field ∈ fields, Fits field.2) :
      Fits (.table origin fields)
  | tables {rows : List Fields} (each : ∀ row ∈ rows, ∀ field ∈ row, Fits field.2) :
      Fits (.tables rows)

/-- Every value under a key fits. -/
def Fields.Fit (fields : Fields) : Prop := ∀ field ∈ fields, field.2.Fits

/-! ## Changes to a table -/

namespace Fields

variable {key : String} {item : Item} {fields : Fields}

theorem fit_nil : Fit [] := fun _ h => absurd h List.not_mem_nil

theorem Fit.set (h : Fit fields) (fits : item.Fits) : Fit (Fields.set key item fields) := by
  induction fields with
  | nil =>
    rintro field hf
    rw [List.mem_singleton.1 hf]
    exact fits
  | cons first rest ih =>
    have first_fits : first.2.Fits := h first List.mem_cons_self
    have rest_fits : Fit rest := fun field hf => h field (List.mem_cons_of_mem _ hf)
    rw [Fields.set]
    split
    · exact List.forall_mem_cons.2 ⟨fits, rest_fits⟩
    · exact List.forall_mem_cons.2 ⟨first_fits, ih rest_fits⟩

theorem Fit.lookup (h : Fit fields) (found : fields.lookup key = some item) : item.Fits := by
  obtain ⟨before, after, rfl, -⟩ := List.lookup_eq_some_iff.1 found
  exact h (key, item) (by simp)

end Fields

/-- The change leaves nothing in a table that does not fit, if there was no such thing before. -/
def KeepsFit (change : Origin → Fields → Option Fields) : Prop :=
  ∀ ⦃origin fields after⦄, Fields.Fit fields → change origin fields = some after → Fields.Fit after

section Changes

variable {change : Origin → Fields → Option Fields}

/-- A change deep inside fits if it fits where it is made: along the path each table is put back
in its place. -/
theorem KeepsFit.alter (h : KeepsFit change) (dotted : Bool) (path : List String) :
    KeepsFit (alter dotted change path) := by
  induction path with
  | nil => exact h
  | cons key path ih =>
    intro origin fields after fit altered
    rw [Toml.alter] at altered
    split at altered
    · obtain ⟨inner, made, same⟩ := Option.bind_eq_some_iff.1 altered
      cases same
      exact fit.set (.table (ih Fields.fit_nil made))
    · rename_i origin inner found
      cases fit.lookup found with
      | table each =>
        split at altered
        · cases altered
        · obtain ⟨inner, made, same⟩ := Option.bind_eq_some_iff.1 altered
          cases same
          exact fit.set (.table (ih each made))
    · rename_i rows found
      cases fit.lookup found with
      | tables each =>
        obtain ⟨row, last, altered⟩ := Option.bind_eq_some_iff.1 altered
        obtain ⟨inner, made, same⟩ := Option.bind_eq_some_iff.1 altered
        cases same
        refine fit.set (.tables fun other hother => ?_)
        rcases List.mem_append.1 hother with earlier | new
        · exact each other (List.dropLast_subset rows earlier)
        · rw [List.mem_singleton.1 new]
          exact ih (each row (List.mem_of_getLast? last)) made
    · cases altered

theorem keepsFit_setKey (path : List String) (key : String) {item : Item} (fits : item.Fits) :
    KeepsFit (setKey path key item) := by
  refine KeepsFit.alter ?_ true path
  intro origin fields after fit set
  dsimp only at set
  split at set
  · cases set
  · split at set
    · cases set
    · cases set
      exact fit.set fits

theorem keepsFit_openTable (key : String) : KeepsFit (openTable key) := by
  intro origin fields after fit opened
  rw [openTable] at opened
  split at opened
  · cases opened
    exact fit.set (.table Fields.fit_nil)
  · rename_i found
    cases opened
    cases fit.lookup found with
    | table each => exact fit.set (.table each)
  · cases opened

theorem keepsFit_openRow (key : String) : KeepsFit (openRow key) := by
  intro origin fields after fit opened
  rw [openRow] at opened
  split at opened
  · cases opened
    refine fit.set (.tables fun row hrow => ?_)
    rw [List.mem_singleton.1 hrow]
    exact Fields.fit_nil
  · rename_i found
    cases opened
    cases fit.lookup found with
    | tables each =>
      refine fit.set (.tables fun row hrow => ?_)
      rcases List.mem_append.1 hrow with earlier | new
      · exact each row earlier
      · rw [List.mem_singleton.1 new]
        exact Fields.fit_nil
  · cases opened

end Changes

/-! ## Statements -/

/-- What the statement sets fits. -/
def Statement.Fits : Statement → Prop
  | .set _ _ value => value.Fits
  | .openTable _ _ | .openRow _ _ => True

theorem Draft.fit_add {draft after : Draft} {statement : Statement} (fit : draft.fields.Fit)
    (fits : statement.Fits) (added : draft.add statement = some after) : after.fields.Fit := by
  cases statement with
  | set path key value =>
    obtain ⟨fields, altered, same⟩ := Option.bind_eq_some_iff.1 added
    cases same
    exact (keepsFit_setKey path key fits).alter false draft.path fit altered
  | openTable path key =>
    obtain ⟨fields, altered, same⟩ := Option.bind_eq_some_iff.1 added
    cases same
    exact (keepsFit_openTable key).alter false path fit altered
  | openRow path key =>
    obtain ⟨fields, altered, same⟩ := Option.bind_eq_some_iff.1 added
    cases same
    exact (keepsFit_openRow key).alter false path fit altered

/-- What holds at the start and is kept by every step holds at the end. -/
theorem foldlM_induction {α β : Type} {P : β → Prop} {step : β → α → Option β} {as : List α}
    (kept : ∀ b a b', a ∈ as → P b → step b a = some b' → P b') {b b' : β} (start : P b)
    (h : as.foldlM step b = some b') : P b' := by
  induction as generalizing b with
  | nil =>
    cases h
    exact start
  | cons a as ih =>
    rw [List.foldlM_cons] at h
    obtain ⟨mid, first, rest⟩ := Option.bind_eq_some_iff.1 h
    exact ih (fun b a b' ha => kept b a b' (List.mem_cons_of_mem _ ha))
      (kept b a mid List.mem_cons_self start first) rest

theorem fit_ofStatements {statements : List Statement} {fields : Fields}
    (fits : ∀ statement ∈ statements, statement.Fits)
    (h : ofStatements statements = some fields) : fields.Fit := by
  obtain ⟨draft, made, rfl⟩ := Option.map_eq_some_iff.1 h
  refine foldlM_induction (P := fun draft : Draft => draft.fields.Fit) ?_ Fields.fit_nil made
  intro draft statement after hs fit added
  exact draft.fit_add fit (fits statement hs) added

theorem fits_ofAssignments {assignments : List ((List String × String) × Item)} {item : Item}
    (fits : ∀ assigned ∈ assignments, assigned.2.Fits)
    (h : ofAssignments assignments = some item) : item.Fits := by
  obtain ⟨fields, made, rfl⟩ := Option.map_eq_some_iff.1 h
  refine .table (foldlM_induction (P := Fields.Fit) ?_ Fields.fit_nil made)
  rintro fields ⟨⟨path, key⟩, value⟩ after hv fit set
  exact keepsFit_setKey path key (fits _ hv) fit set

/-! ## Readers -/

/-- Whatever the reader reads has the property. -/
def Reader.Yields {α : Type} (read : Reader α) (P : α → Prop) : Prop :=
  ∀ ⦃cs a rest⦄, read cs = some (a, rest) → P a

theorem fits_of_fitting {n m : Int} (h : Scalar.fitting? n = some m) : (Item.integer m).Fits := by
  rw [Scalar.fitting?] at h
  split at h
  · rename_i within
    cases h
    exact .integer within.1 within.2
  · cases h

theorem fits_of_integer {cs : List Char} {n : Int} (h : Scalar.integer? cs = some n) :
    (Item.integer n).Fits := by
  unfold Scalar.integer? at h
  split at h
  all_goals
    obtain ⟨digits, -, within⟩ := Option.bind_eq_some_iff.1 h
    exact fits_of_fitting within

theorem fits_of_token {cs : List Char} {item : Item} (h : Scalar.ofToken? cs = some item) :
    item.Fits := by
  unfold Scalar.ofToken? at h
  repeat' split at h
  all_goals cases h
  · exact .boolean true
  · exact .boolean false
  · exact .dateTime _
  · rename_i integer
    exact fits_of_integer integer
  · exact .float _

theorem simpleValue_yields : simpleValue.Yields Item.Fits := by
  intro cs item rest read
  unfold simpleValue at read
  split at read
  iterate 2
    · obtain ⟨⟨text, after⟩, -, same⟩ := Option.bind_eq_some_iff.1 read
      cases same
      exact .string _
  · obtain ⟨token, written, same⟩ := Option.bind_eq_some_iff.1 read
    cases same
    exact fits_of_token written

section Nested

variable {item : Reader Item}

theorem arrayItems_yields (h : item.Yields Item.Fits) (bound : Nat) :
    (arrayItems item bound).Yields fun items => ∀ i ∈ items, i.Fits := by
  induction bound with
  | zero =>
    intro cs items rest read
    cases read
  | succ bound ih =>
    intro cs items rest read
    rw [arrayItems] at read
    obtain ⟨cs, -, read⟩ := Option.bind_eq_some_iff.1 read
    split at read
    · cases read
      exact fun i hi => absurd hi List.not_mem_nil
    · obtain ⟨⟨first, rest'⟩, hfirst, read⟩ := Option.bind_eq_some_iff.1 read
      obtain ⟨after, -, read⟩ := Option.bind_eq_some_iff.1 read
      split at read
      · obtain ⟨⟨others, rest'⟩, hothers, same⟩ := Option.bind_eq_some_iff.1 read
        cases same
        exact List.forall_mem_cons.2 ⟨h hfirst, ih hothers⟩
      · cases read
        exact List.forall_mem_singleton.2 (h hfirst)
      · cases read

theorem assignment_yields (h : item.Yields Item.Fits) :
    (assignment item).Yields fun assigned => assigned.2.Fits := by
  intro cs assigned rest read
  rw [assignment] at read
  obtain ⟨⟨key, rest'⟩, -, read⟩ := Option.bind_eq_some_iff.1 read
  dsimp only at read
  split at read
  · obtain ⟨⟨value, rest'⟩, hvalue, same⟩ := Option.bind_eq_some_iff.1 read
    cases same
    exact h hvalue
  · cases read

theorem assignments_yields (h : item.Yields Item.Fits) (bound : Nat) :
    (assignments item bound).Yields fun all => ∀ assigned ∈ all, assigned.2.Fits := by
  induction bound with
  | zero =>
    intro cs all rest read
    cases read
  | succ bound ih =>
    intro cs all rest read
    rw [assignments] at read
    obtain ⟨⟨first, rest'⟩, hfirst, read⟩ := Option.bind_eq_some_iff.1 read
    dsimp only at read
    split at read
    · obtain ⟨⟨others, rest'⟩, hothers, same⟩ := Option.bind_eq_some_iff.1 read
      cases same
      exact List.forall_mem_cons.2 ⟨assignment_yields h hfirst, ih hothers⟩
    · cases read
      exact List.forall_mem_singleton.2 (assignment_yields h hfirst)
    · cases read

theorem braceFields_yields (h : item.Yields Item.Fits) :
    (braceFields item).Yields fun all => ∀ assigned ∈ all, assigned.2.Fits := by
  intro cs all rest read
  rw [braceFields] at read
  split at read
  · cases read
    exact fun assigned hassigned => absurd hassigned List.not_mem_nil
  · exact assignments_yields h _ read

end Nested

theorem value_yields (depth : Nat) : (value depth).Yields Item.Fits := by
  induction depth with
  | zero =>
    intro cs item rest read
    rw [value] at read
    · exact simpleValue_yields read
    all_goals simp
  | succ depth ih =>
    intro cs item rest read
    unfold value at read
    split at read
    · rename_i same
      cases same
      obtain ⟨⟨items, rest'⟩, hitems, same⟩ := Option.bind_eq_some_iff.1 read
      cases same
      exact .array (arrayItems_yields ih _ hitems)
    · rename_i same
      cases same
      obtain ⟨⟨fields, rest'⟩, hfields, read⟩ := Option.bind_eq_some_iff.1 read
      obtain ⟨table, made, same⟩ := Option.bind_eq_some_iff.1 read
      cases same
      exact fits_ofAssignments (braceFields_yields ih hfields) made
    · exact simpleValue_yields read

/-- A header sets nothing. -/
theorem header_yields : header.Yields Statement.Fits := by
  intro cs statement rest read
  unfold header at read
  split at read
  all_goals
    obtain ⟨⟨key, rest'⟩, -, read⟩ := Option.bind_eq_some_iff.1 read
    dsimp only at read
    split at read
    · cases read
      trivial
    · cases read

theorem statement_yields : statement.Yields Statement.Fits := by
  intro cs statement rest read
  unfold Toml.statement at read
  split at read
  · exact header_yields read
  · obtain ⟨⟨⟨key, value⟩, rest'⟩, assigned, same⟩ := Option.bind_eq_some_iff.1 read
    cases same
    exact assignment_yields (value_yields depthLimit) assigned

theorem fits_of_statements {bound : Nat} {cs : List Char} {all : List Statement}
    (h : statements bound cs = some all) : ∀ statement ∈ all, statement.Fits := by
  induction bound generalizing cs all with
  | zero => cases h
  | succ bound ih =>
    rw [statements] at h
    obtain ⟨cs, -, h⟩ := Option.bind_eq_some_iff.1 h
    split at h
    · cases h
      exact fun statement hs => absurd hs List.not_mem_nil
    · obtain ⟨⟨first, rest⟩, hfirst, h⟩ := Option.bind_eq_some_iff.1 h
      obtain ⟨rest, -, h⟩ := Option.bind_eq_some_iff.1 h
      obtain ⟨others, hothers, rfl⟩ := Option.map_eq_some_iff.1 h
      exact List.forall_mem_cons.2 ⟨statement_yields hfirst, ih hothers⟩

/-- All of a document fits. -/
theorem fit_of_read {s : String} {fields : Fields} (h : read s = some fields) : fields.Fit := by
  rw [read] at h
  obtain ⟨all, hall, made⟩ := Option.bind_eq_some_iff.1 h
  exact fit_ofStatements (fits_of_statements hall) made

end Gazette.Toml
