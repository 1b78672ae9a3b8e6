import Gazette.Toml.Item

set_option autoImplicit false

/-! # From statements to a document

A document is a list of statements: a header opens a table, a double header opens a new row of an
array of tables, and everything else sets a key in the section opened last. The rules here say
which statements may follow which: no key is set twice, no table is opened twice, and dotted keys
do not reach into tables that were written otherwise.
-/

namespace Gazette.Toml

/-- A statement of a document. The key that it is about is the last part of a dotted key. -/
inductive Statement where
  | set (path : List String) (key : String) (value : Item)
  | openTable (path : List String) (key : String)
  | openRow (path : List String) (key : String)

/-- Whether a dotted key may reach into a table of this origin. -/
def Origin.takesDotted : Origin → Bool
  | .dotted | .implied => true
  | .braces | .header => false

/-- Change the table that a path leads to, making those that are missing. The path of a dotted
key makes dotted tables and reaches only into open ones; the path of a header makes implied
tables and reaches into every table that is not written with braces. In an array of tables the
path leads to the last row. -/
def alter (dotted : Bool) (change : Origin → Fields → Option Fields) :
    (path : List String) → Origin → Fields → Option Fields
  | [], origin, fields => change origin fields
  | key :: path, _, fields =>
    match fields.lookup key with
    | none => do
      let origin := if dotted then .dotted else .implied
      let inner ← alter dotted change path origin []
      some (Fields.set key (.table origin inner) fields)
    | some (.table origin inner) =>
      if origin = .braces || (dotted && !origin.takesDotted) then none
      else do
        let inner ← alter dotted change path origin inner
        some (Fields.set key (.table origin inner) fields)
    | some (.tables rows) => do
      let row ← rows.getLast?
      let row ← alter dotted change path .header row
      some (Fields.set key (.tables (rows.dropLast ++ [row])) fields)
    | some _ => none

/-- Set a key in the table that a dotted path leads to. -/
def setKey (path : List String) (key : String) (value : Item) (origin : Origin)
    (fields : Fields) : Option Fields :=
  alter true (fun origin fields =>
    if (origin = .dotted) = path.isEmpty then none
    else if (fields.lookup key).isSome then none
    else some (Fields.set key value fields)) path origin fields

/-- Open a table; it must be new, or implied so far. -/
def openTable (key : String) (_ : Origin) (fields : Fields) : Option Fields :=
  match fields.lookup key with
  | none => some (Fields.set key (.table .header []) fields)
  | some (.table .implied inner) => some (Fields.set key (.table .header inner) fields)
  | some _ => none

/-- Open a new row of an array of tables, which may be its first. -/
def openRow (key : String) (_ : Origin) (fields : Fields) : Option Fields :=
  match fields.lookup key with
  | none => some (Fields.set key (.tables [[]]) fields)
  | some (.tables rows) => some (Fields.set key (.tables (rows ++ [[]])) fields)
  | some _ => none

/-- A document under construction: the path of the section opened last, and all fields. -/
structure Draft where
  path : List String := []
  fields : Fields := []

/-- The draft after one more statement. -/
def Draft.add (draft : Draft) : Statement → Option Draft
  | .set path key value => do
    let fields ← alter false (setKey path key value) draft.path .header draft.fields
    some { draft with fields }
  | .openTable path key => do
    let fields ← alter false (openTable key) path .header draft.fields
    some ⟨path ++ [key], fields⟩
  | .openRow path key => do
    let fields ← alter false (openRow key) path .header draft.fields
    some ⟨path ++ [key], fields⟩

/-- The fields of the document that the statements make up. -/
def ofStatements (statements : List Statement) : Option Fields :=
  Draft.fields <$> statements.foldlM Draft.add {}

/-- The table that a list of assignments between braces makes up. -/
def ofAssignments (assignments : List ((List String × String) × Item)) : Option Item :=
  .table .braces <$> assignments.foldlM
    (fun fields ((path, key), value) => setKey path key value .braces fields) []

end Gazette.Toml
