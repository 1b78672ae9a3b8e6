import Gazette.Proofs.Toml.Numerals
import Gazette.Toml.Reader
import Mathlib.Data.List.Nodup

set_option autoImplicit false

/-! # Settings on lines

The plainest documents: numbers under bare keys, one on a line, then a header and more of them. A
reader takes such a text line by line (`statements_sections`), and if no key comes twice in a
section, the document holds each number where it was written (`read_sections`).
-/

namespace Gazette.Toml

/-! ## Bare keys -/

/-- The name can stand as a key without marks around it. -/
def IsBare (name : String) : Prop := name.toList ≠ [] ∧ name.toList.all isBareChar

instance : DecidablePred IsBare := fun _ => inferInstanceAs (Decidable (_ ∧ _))

theorem skipBlank_cons {c : Char} (space : c ≠ ' ') (tab : c ≠ '\t') (cs : List Char) :
    skipBlank (c :: cs) = c :: cs := by
  simp [skipBlank, isBlank, space, tab]

section Bare

variable {name : String}

theorem IsBare.exists_cons (h : IsBare name) :
    ∃ c cs, name.toList = c :: cs ∧ isBareChar c := by
  obtain ⟨c, cs, same⟩ := List.exists_cons_of_ne_nil h.1
  exact ⟨c, cs, same, List.all_eq_true.1 h.2 c (by rw [same]; exact List.mem_cons_self)⟩

theorem IsBare.skipBlank_eq (h : IsBare name) (rest : List Char) :
    skipBlank (name.toList ++ rest) = name.toList ++ rest := by
  obtain ⟨c, cs, same, bare⟩ := h.exists_cons
  rw [same]
  exact skipBlank_cons (ne_of_class bare (by decide)) (ne_of_class bare (by decide)) _

theorem IsBare.skipLines_eq (h : IsBare name) (rest : List Char) :
    skipLines false (name.toList ++ rest) = some (name.toList ++ rest) := by
  obtain ⟨c, cs, same, bare⟩ := h.exists_cons
  have space : c ≠ ' ' := ne_of_class bare (by decide)
  have tab : c ≠ '\t' := ne_of_class bare (by decide)
  have hash : c ≠ '#' := ne_of_class bare (by decide)
  have newline : c ≠ '\n' := ne_of_class bare (by decide)
  have carriage : c ≠ '\r' := ne_of_class bare (by decide)
  rw [same, List.cons_append, skipLines]
  · simp [isBlank, space, tab, hash]
  · simpa using newline
  · simp [carriage]

/-- A bare key is read up to the first character that cannot stand in one. -/
theorem IsBare.keyPart?_eq (h : IsBare name) {c : Char} (ends : isBareChar c = false)
    (rest : List Char) : keyPart? (name.toList ++ c :: rest) = some (name, c :: rest) := by
  obtain ⟨first, cs, same, bare⟩ := h.exists_cons
  have double : first ≠ '"' := ne_of_class bare (by decide)
  have single : first ≠ '\'' := ne_of_class bare (by decide)
  have word : (name.toList ++ c :: rest).takeWhile isBareChar = name.toList := by
    rw [List.takeWhile_append_of_pos (List.all_eq_true.1 h.2), List.takeWhile_cons_of_neg (by simp [ends]),
      List.append_nil]
  unfold keyPart?
  split
  · rename_i begins
    rw [same] at begins
    exact absurd (List.cons.inj begins).1 double
  · rename_i begins
    rw [same] at begins
    exact absurd (List.cons.inj begins).1 single
  · simp [word, h.1]

/-- A bare key that no dot follows. -/
theorem IsBare.dottedKey?_eq (h : IsBare name) {c : Char} (ends : isBareChar c = false)
    (rest : List Char) (last : (skipBlank (c :: rest)).head? ≠ some '.') :
    dottedKey? depthLimit (name.toList ++ c :: rest)
      = some (([], name), skipBlank (c :: rest)) := by
  obtain ⟨others, limit⟩ : ∃ others, depthLimit = others + 1 := ⟨_, rfl⟩
  rw [limit, dottedKey?, h.skipBlank_eq, h.keyPart?_eq ends]
  simp only [Option.bind_eq_bind, Option.bind_some]
  split
  · rename_i dot
    exact absurd (by rw [dot]; rfl) last
  · rfl

end Bare

/-! ## A number under a key -/

/-- A number under a key. -/
abbrev Setting := String × UInt64

namespace Setting

/-- The setting on a line. -/
def line (setting : Setting) : List Char :=
  setting.1.toList ++ ' ' :: '=' :: ' ' :: (numeral setting.2.toNat ++ ['\n'])

/-- The statement that the line makes. -/
def statement (setting : Setting) : Statement := .set [] setting.1 (.integer setting.2.toNat)

/-- The field that the statement sets. -/
def field (setting : Setting) : String × Item := (setting.1, .integer setting.2.toNat)

/-- The key needs no marks, and the number is not too large to be read. -/
structure Writable (setting : Setting) : Prop where
  bare : IsBare setting.1
  fits : setting.2.toNat ≤ Int64.maxValue.toInt

instance : DecidablePred Writable := fun setting =>
  decidable_of_iff (IsBare setting.1 ∧ setting.2.toNat ≤ Int64.maxValue.toInt)
    ⟨fun h => ⟨h.1, h.2⟩, fun h => ⟨h.bare, h.fits⟩⟩

end Setting

/-- What begins with no bracket, brace or mark is a number, a date or a truth value. -/
theorem value_scalar {c : Char} (bracket : c ≠ '[') (brace : c ≠ '{') (double : c ≠ '"')
    (single : c ≠ '\'') (depth : Nat) (cs : List Char) :
    value depth (c :: cs) = Scalar.read (c :: cs) := by
  have simple : simpleValue (c :: cs) = Scalar.read (c :: cs) := by
    rw [simpleValue]
    · simpa using double
    · simpa using single
  rw [value, simple]
  · intro _ _ _ same
    exact bracket (List.cons.inj same).1
  · intro _ _ _ same
    exact brace (List.cons.inj same).1

theorem value_numeral {n : Nat} (h : n ≤ Int64.maxValue.toInt) (depth : Nat) (rest : List Char) :
    value depth (numeral n ++ '\n' :: rest) = some (.integer n, '\n' :: rest) := by
  obtain ⟨c, cs, same, digit⟩ := exists_cons_numeral n
  calc value depth (numeral n ++ '\n' :: rest)
      = Scalar.read (numeral n ++ '\n' :: rest) := by
        rw [same, List.cons_append]
        exact value_scalar (ne_of_class digit (by decide)) (ne_of_class digit (by decide))
          (ne_of_class digit (by decide)) (ne_of_class digit (by decide)) _ _
    _ = some (.integer n, '\n' :: rest) := Scalar.read_numeral h rest

theorem skipBlank_numeral (n : Nat) (rest : List Char) :
    skipBlank (' ' :: (numeral n ++ rest)) = numeral n ++ rest := by
  obtain ⟨c, cs, same, digit⟩ := exists_cons_numeral n
  rw [same]
  exact skipBlank_cons (ne_of_class digit (by decide)) (ne_of_class digit (by decide)) _

section Lines

variable {setting : Setting} {settings : List Setting}

theorem assignment_line (h : setting.Writable) (rest : List Char) :
    assignment (value depthLimit) (setting.line ++ rest)
      = some ((([], setting.1), .integer setting.2.toNat), '\n' :: rest) := by
  have blank : ∀ cs, skipBlank (' ' :: '=' :: cs) = '=' :: cs := fun _ => rfl
  have key := h.bare.dottedKey?_eq (c := ' ') (by decide)
    ('=' :: ' ' :: (numeral setting.2.toNat ++ '\n' :: rest)) (by simp [blank])
  have number := value_numeral h.fits depthLimit rest
  simp only [Setting.line, List.append_assoc, List.cons_append, List.nil_append]
  rw [assignment, key, blank]
  simp only [Option.bind_eq_bind, Option.bind_some]
  rw [skipBlank_numeral, number]
  rfl

theorem statement_line (h : setting.Writable) (rest : List Char) :
    statement (setting.line ++ rest) = some (setting.statement, '\n' :: rest) := by
  obtain ⟨c, cs, same, bare⟩ := h.bare.exists_cons
  have assigned := assignment_line h rest
  rw [Setting.line, same] at assigned ⊢
  rw [List.cons_append, List.cons_append] at assigned ⊢
  rw [statement, assigned]
  · rfl
  · intro _ begins
    exact ne_of_class bare (by decide) (List.cons.inj begins).1

/-- One statement is read from its first character to the end of its line. -/
theorem statements_of_statement {cs ahead rest next : List Char} {first : Statement}
    (skipped : skipLines false ahead = some cs) (some_char : cs ≠ [])
    (read : statement cs = some (first, rest)) (ended : afterLine? rest = some next)
    (bound : Nat) : statements (bound + 1) ahead = (first :: ·) <$> statements bound next := by
  cases cs with
  | nil => exact absurd rfl some_char
  | cons c cs =>
    rw [statements, skipped]
    simp only [Option.bind_eq_bind, Option.bind_some, read, ended]

theorem statements_line (h : setting.Writable) (bound : Nat) (rest : List Char) :
    statements (bound + 1) (setting.line ++ rest)
      = (setting.statement :: ·) <$> statements bound rest := by
  have skipped : skipLines false (setting.line ++ rest) = some (setting.line ++ rest) := by
    rw [Setting.line, List.append_assoc]
    exact h.bare.skipLines_eq _
  have some_char : setting.line ++ rest ≠ [] := by simp [Setting.line]
  exact statements_of_statement skipped some_char (statement_line h rest) rfl bound

/-- The lines of settings are read one after the other. -/
theorem statements_lines (h : ∀ setting ∈ settings, setting.Writable) (bound : Nat)
    (rest : List Char) :
    statements (settings.length + bound) (settings.flatMap Setting.line ++ rest)
      = (settings.map Setting.statement ++ ·) <$> statements bound rest := by
  induction settings with
  | nil => simp
  | cons setting settings ih =>
    obtain ⟨first, others⟩ := List.forall_mem_cons.1 h
    rw [List.length_cons, Nat.add_right_comm, List.flatMap_cons, List.append_assoc,
      statements_line first, ih others]
    simp [Function.comp_def]

end Lines

/-- A header after an empty line. -/
theorem statements_header {name : String} (h : IsBare name) (bound : Nat) (rest : List Char) :
    statements (bound + 1) ('\n' :: '[' :: (name.toList ++ ']' :: '\n' :: rest))
      = (.openTable [] name :: ·) <$> statements bound rest := by
  obtain ⟨c, cs, same, bare⟩ := h.exists_cons
  have key := h.dottedKey?_eq (c := ']') (by decide) ('\n' :: rest)
    (by simp [skipBlank, isBlank])
  have opened : statement ('[' :: (name.toList ++ ']' :: '\n' :: rest))
      = some (.openTable [] name, '\n' :: rest) := by
    rw [same] at key ⊢
    rw [List.cons_append] at key ⊢
    rw [statement, header, key]
    · rfl
    · intro _ begins
      exact ne_of_class bare (by decide) (List.cons.inj begins).1
  exact statements_of_statement rfl (List.cons_ne_nil _ _) opened rfl bound

/-! ## A text with one section -/

/-- Settings by themselves, then a header with more of them. -/
def sections (single : List Setting) (name : String) (inner : List Setting) : List Char :=
  single.flatMap Setting.line
    ++ '\n' :: '[' :: (name.toList ++ ']' :: '\n' :: inner.flatMap Setting.line)

section Sections

variable {single inner : List Setting} {name : String}

theorem length_le_lines (settings : List Setting) :
    settings.length ≤ (settings.flatMap Setting.line).length := by
  induction settings with
  | nil => exact Nat.le_refl 0
  | cons setting settings ih =>
    have some_char : 0 < setting.line.length := by
      rw [Setting.line, List.length_append, List.length_cons]
      omega
    rw [List.flatMap_cons, List.length_append, List.length_cons]
    omega

theorem statements_sections (hsingle : ∀ setting ∈ single, setting.Writable)
    (hname : IsBare name) (hinner : ∀ setting ∈ inner, setting.Writable) :
    statements ((sections single name inner).length + 1) (sections single name inner)
      = some (single.map Setting.statement ++ .openTable [] name
          :: inner.map Setting.statement) := by
  -- every statement takes a round, and so does the end of the text
  obtain ⟨spare, rounds⟩ : ∃ spare, (sections single name inner).length + 1
      = single.length + ((inner.length + (spare + 1)) + 1) := by
    have enough_single := length_le_lines single
    have enough_inner := length_le_lines inner
    refine ⟨(sections single name inner).length - single.length - inner.length - 1, ?_⟩
    simp only [sections, List.length_append, List.length_cons]
    omega
  have last : statements (spare + 1) [] = some [] := rfl
  have below := statements_lines hinner (spare + 1) []
  rw [List.append_nil, last] at below
  rw [rounds, sections, statements_lines hsingle, statements_header hname, below]
  simp

theorem withoutMark_sections (hsingle : ∀ setting ∈ single, setting.Writable) :
    withoutMark (sections single name inner) = sections single name inner := by
  have no_mark : ∀ cs, sections single name inner ≠ '\ufeff' :: cs := by
    intro cs begins
    cases single with
    | nil => simp [sections] at begins
    | cons setting settings =>
      obtain ⟨c, rest, same, bare⟩ := (hsingle setting List.mem_cons_self).bare.exists_cons
      simp only [sections, List.flatMap_cons, Setting.line, same, List.cons_append] at begins
      exact ne_of_class bare (by decide) (List.cons.inj begins).1
  unfold withoutMark
  split
  · rename_i begins
    exact absurd begins (no_mark _)
  · rfl

end Sections

/-! ## The document -/

section New

variable {fields : Fields} {key : String}

theorem lookup_of_new (new : key ∉ fields.map (·.1)) : fields.lookup key = none := by
  rw [List.lookup_eq_none_iff]
  intro field hfield
  simpa using fun same => new (List.mem_map.2 ⟨field, hfield, same.symm⟩)

theorem lookup_behind_new (new : key ∉ fields.map (·.1)) (item : Item) :
    (fields ++ [(key, item)]).lookup key = some item := by
  simp [List.lookup_append, lookup_of_new new]

theorem set_append_of_new (new : key ∉ fields.map (·.1)) (item : Item) (rest : Fields) :
    Fields.set key item (fields ++ rest) = fields ++ Fields.set key item rest := by
  induction fields with
  | nil => rfl
  | cons field fields ih =>
    rw [List.map_cons, List.mem_cons, not_or] at new
    rw [List.cons_append, Fields.set, if_neg (Ne.symm new.1), ih new.2]
    rfl

theorem set_of_new (new : key ∉ fields.map (·.1)) (item : Item) :
    Fields.set key item fields = fields ++ [(key, item)] := by
  simpa [Fields.set] using set_append_of_new new item []

theorem set_behind_new (new : key ∉ fields.map (·.1)) (old item : Item) :
    Fields.set key item (fields ++ [(key, old)]) = fields ++ [(key, item)] := by
  simpa [Fields.set] using set_append_of_new new item [(key, old)]

end New

/-- Add a setting to a section. -/
def Setting.add (fields : Fields) (setting : Setting) : Option Fields :=
  setKey [] setting.1 (.integer setting.2.toNat) .header fields

/-- New keys are put behind the others, in order. -/
theorem foldlM_add {settings : List Setting} {fields : Fields}
    (new : (fields.map (·.1) ++ settings.map (·.1)).Nodup) :
    settings.foldlM Setting.add fields = some (fields ++ settings.map Setting.field) := by
  induction settings generalizing fields with
  | nil => simp
  | cons setting settings ih =>
    have first : setting.1 ∉ fields.map (·.1) := by
      intro old
      exact List.disjoint_of_nodup_append new old (by simp)
    have added : Setting.add fields setting = some (fields ++ [setting.field]) := by
      simp [Setting.add, Setting.field, setKey, alter, lookup_of_new first, set_of_new first]
    have others : ((fields ++ [setting.field]).map (·.1) ++ settings.map (·.1)).Nodup := by
      simpa [Setting.field] using new
    rw [List.foldlM_cons, added]
    show settings.foldlM Setting.add (fields ++ [setting.field]) = _
    rw [ih others, List.map_cons, List.append_assoc]
    rfl

/-- If each step acts on a part of the state alone, so do all steps. -/
theorem foldlM_map_of_part {α β γ δ : Type} {step : β → α → Option β} {step' : γ → δ → Option γ}
    {whole : β → γ} {act : α → δ} (part : ∀ b a, step' (whole b) (act a) = whole <$> step b a)
    (as : List α) (b : β) : (as.map act).foldlM step' (whole b) = whole <$> as.foldlM step b := by
  induction as generalizing b with
  | nil => rfl
  | cons a as ih =>
    rw [List.map_cons, List.foldlM_cons, part, List.foldlM_cons]
    cases step b a with
    | none => rfl
    | some mid => exact ih mid

namespace Draft

/-- Before the first header, a setting is added to the document itself. -/
theorem add_top (fields : Fields) (setting : Setting) :
    add ⟨[], fields⟩ setting.statement = Draft.mk [] <$> setting.add fields := by
  show (setting.add fields >>= fun fields => some (Draft.mk [] fields)) = _
  cases setting.add fields <;> rfl

/-- Behind a header, a setting is added to the table that the header has opened. -/
theorem add_section {before : Fields} {name : String} (new : name ∉ before.map (·.1))
    (inner : Fields) (setting : Setting) :
    add ⟨[name], before ++ [(name, .table .header inner)]⟩ setting.statement
      = (fun inner => ⟨[name], before ++ [(name, .table .header inner)]⟩)
          <$> setting.add inner := by
  show (alter false (setKey [] setting.1 (.integer setting.2.toNat)) [name] .header _
    >>= fun fields => some (Draft.mk [name] fields)) = _
  rw [alter, lookup_behind_new new]
  show (setting.add inner >>= fun inner => some (Fields.set name (.table .header inner) _))
    >>= _ = _
  cases setting.add inner with
  | none => rfl
  | some after =>
    show some (Draft.mk [name] (Fields.set name (.table .header after) _)) = _
    rw [set_behind_new new]
    rfl

end Draft

/-- The document of a text with one section holds each number where it was written. -/
theorem ofStatements_sections {single inner : List Setting} {name : String}
    (hsingle : (single.map (·.1)).Nodup) (hname : name ∉ single.map (·.1))
    (hinner : (inner.map (·.1)).Nodup) :
    ofStatements (single.map Setting.statement ++ .openTable [] name
        :: inner.map Setting.statement)
      = some (single.map Setting.field ++ [(name, .table .header (inner.map Setting.field))]) := by
  have new : name ∉ (single.map Setting.field).map (·.1) := by
    simpa [Setting.field] using hname
  have top : (single.map Setting.statement).foldlM Draft.add {}
      = some ⟨[], single.map Setting.field⟩ := by
    have added := foldlM_map_of_part Draft.add_top single []
    rw [foldlM_add (by simpa using hsingle)] at added
    exact added
  have opened : Draft.add ⟨[], single.map Setting.field⟩ (.openTable [] name)
      = some ⟨[name], single.map Setting.field ++ [(name, .table .header [])]⟩ := by
    simp [Draft.add, alter, openTable, lookup_of_new new, set_of_new new]
  have below : (inner.map Setting.statement).foldlM Draft.add
        ⟨[name], single.map Setting.field ++ [(name, .table .header [])]⟩
      = some ⟨[name], single.map Setting.field
          ++ [(name, .table .header (inner.map Setting.field))]⟩ := by
    have added := foldlM_map_of_part (Draft.add_section new) inner []
    rw [foldlM_add (by simpa using hinner)] at added
    exact added
  rw [ofStatements, List.foldlM_append, top]
  show Draft.fields <$> (List.foldlM Draft.add ⟨[], _⟩ (.openTable [] name :: _)) = _
  rw [List.foldlM_cons, opened]
  show Draft.fields <$> (List.foldlM Draft.add ⟨[name], _⟩ _) = _
  rw [below]
  rfl

/-- A text with one section reads back, number by number. -/
theorem read_sections {single inner : List Setting} {name s : String}
    (written : s.toList = sections single name inner)
    (hsingle : ∀ setting ∈ single, setting.Writable) (hname : IsBare name)
    (hinner : ∀ setting ∈ inner, setting.Writable)
    (distinct_single : (single.map (·.1)).Nodup) (distinct_name : name ∉ single.map (·.1))
    (distinct_inner : (inner.map (·.1)).Nodup) :
    read s = some (single.map Setting.field
      ++ [(name, .table .header (inner.map Setting.field))]) := by
  have all := statements_sections hsingle hname hinner
  rw [read, written, withoutMark_sections hsingle, all]
  exact ofStatements_sections distinct_single distinct_name distinct_inner

end Gazette.Toml
