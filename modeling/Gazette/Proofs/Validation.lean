import Gazette.Validation

set_option autoImplicit false

/-! # Valid values

Checks are made one after another and all are reported, so a value is valid exactly if every
check of it succeeds (`result_ofChecks`). What a successful check of a text says about the text
is that its length is within the bounds.
-/

namespace Gazette

namespace ValidationErrors

theorem result_eq_ok {errors : ValidationErrors} : errors.result = .ok () ↔ errors = ⟨[]⟩ := by
  obtain ⟨fields⟩ := errors
  cases fields with
  | nil => exact ⟨fun _ => rfl, fun _ => rfl⟩
  | cons first rest =>
    constructor
    · intro h
      cases h
    · intro h
      cases h

theorem check_eq_nil {errors : ValidationErrors} {field : String}
    {outcome : Except FieldFault Unit} :
    errors.check field outcome = ⟨[]⟩ ↔ errors = ⟨[]⟩ ∧ outcome = .ok () := by
  cases outcome with
  | ok _ => exact ⟨fun h => ⟨h, rfl⟩, fun h => h.1⟩
  | error fault =>
    constructor
    · intro h
      exact absurd (congrArg fields h) (List.append_ne_nil_of_right_ne_nil _ (List.cons_ne_nil _ _))
    · rintro ⟨-, h⟩
      cases h

/-- A value is valid if every check of it succeeds. -/
theorem result_ofChecks {checks : List (String × Except FieldFault Unit)} :
    (ofChecks checks).result = .ok () ↔ ∀ check ∈ checks, check.2 = .ok () := by
  have from_errors : ∀ errors : ValidationErrors,
      checks.foldl (fun errors check => errors.check check.1 check.2) errors = ⟨[]⟩ ↔
        errors = ⟨[]⟩ ∧ ∀ check ∈ checks, check.2 = .ok () := by
    induction checks with
    | nil => intro errors; simp
    | cons first rest ih =>
      intro errors
      rw [List.foldl_cons, ih, check_eq_nil, and_assoc, List.forall_mem_cons]
  rw [result_eq_ok]
  exact (from_errors ⟨[]⟩).trans (and_iff_right rfl)

end ValidationErrors

namespace Check

theorem length_of_text {least most : Nat} {allowed : Char → Bool} {s : String}
    (h : text least most allowed s = .ok ()) : least ≤ s.length ∧ s.length ≤ most := by
  unfold text at h
  split at h
  · cases h
  · rename_i within
    omega

end Check

end Gazette
