import Gazette.Proofs.Blog.Run

set_option autoImplicit false

/-! # Every stored ID was issued

A record that is put without an ID gets the next number of its table, and the other calls store
a record only under an ID that one was stored under before. So the last number of a table is not
below any ID in it (`Tables.Numbered`), and nothing is stored under the next one. Tickets are
left out, since a ticket has the ID of its task.
-/

namespace Gazette

/-- The IDs of the records were issued. -/
def Table.Numbered {ρ : Type} (table : Table ρ) : Prop :=
  ∀ id record, table.records id = some record → table.Issued id

namespace Table.Numbered

variable {ρ : Type} {table : Table ρ}

theorem add [Record ρ] (h : table.Numbered) (hroom : table.HasRoom) (record : ρ) :
    (table.add record).Numbered :=
  Table.All.add h (fun _ _ issued => hroom.issued_add issued record) (table.issued_next_add record)

theorem set (h : table.Numbered) {id : RecordId} {old : ρ} (hold : table.records id = some old)
    (record : ρ) : (table.set id record).Numbered :=
  Table.All.set h (fun _ _ _ issued => issued) (h id old hold)

theorem erase (h : table.Numbered) (id : RecordId) : (table.erase id).Numbered :=
  Table.All.erase h id

end Table.Numbered

/-- The IDs of all records but the tickets were issued by the counters of their tables. -/
structure Tables.Numbered (tables : Tables) : Prop where
  users : tables.users.Numbered
  blogs : tables.blogs.Numbered
  articles : tables.articles.Numbered
  comments : tables.comments.Numbered
  likes : tables.likes.Numbered
  tasks : tables.tasks.Numbered

theorem Tables.numbered_empty : Tables.empty.Numbered := by
  constructor <;> (intro id record hrecord; cases hrecord)

variable {tables tables' : Tables}

theorem Delivered.numbered {ctx : Context} {message : Message} {id : RecordId}
    (h : tables.Numbered) (hdelivered : Delivered ctx tables message id tables') :
    tables'.Numbered := by
  cases hdelivered with
  | createUser room => exact { h with users := h.users.add room _ }
  | createBlog signed room => exact { h with blogs := h.blogs.add room _ }
  | changeBlogOwner found signed => exact { h with blogs := h.blogs.set found _ }
  | createArticle found signed room => exact { h with articles := h.articles.add room _ }
  | scheduleArticle found signed room ahead queue_room =>
    exact { h with articles := h.articles.add room _, tasks := h.tasks.add queue_room _ }
  | deleteArticle found signed => exact { h with articles := h.articles.erase _ }
  | cancelDeletion found signed queued => exact { h with tasks := h.tasks.erase _ }
  | createComment found signed room =>
    exact { h with comments := h.comments.add room _, articles := h.articles.set found _ }
  | createLike found signed room =>
    exact { h with likes := h.likes.add room _, articles := h.articles.set found _ }

theorem Executed.numbered {now : UnixTime} {id : RecordId} {fired : Fired}
    (h : tables.Numbered) (hexecuted : Executed now tables id fired tables') :
    tables'.Numbered := by
  cases hexecuted with
  | missing | notDue => exact h
  | completed => exact { h with articles := h.articles.erase _, tasks := h.tasks.erase _ }

theorem ExecutedAll.numbered {now : UnixTime} {ids : List RecordId} (h : tables.Numbered)
    (hexecuted : ExecutedAll now tables ids tables') : tables'.Numbered := by
  induction hexecuted with
  | nil => exact h
  | cons first later ih => exact ih (first.numbered h)

namespace App

theorem Transition.numbered {call : Call} (h : tables.Numbered)
    (htransition : Transition tables call tables') : tables'.Numbered := by
  cases htransition with
  | idle => exact h
  | deliver delivered => exact delivered.numbered h
  | tick executed => exact executed.numbered h
  | fire executed => exact executed.numbered h

/-- What holds of the tables and is kept by every call holds after a run. -/
theorem Stands.run_with {config : Config} {store : Store} {invariant : Tables → Prop}
    (h : (ofConfig config).Stands store tables) (holds : invariant tables)
    (kept : ∀ {tables call tables'}, Transition tables call tables' → invariant tables →
      invariant tables') (calls : List Call) :
    ∃ tables', (ofConfig config).Stands ((ofConfig config).run store calls) tables'
      ∧ invariant tables' := by
  induction calls generalizing store tables with
  | nil => exact ⟨tables, h, holds⟩
  | cons call rest ih =>
    obtain ⟨tables', transition, h'⟩ := h.step call
    exact ih h' (kept transition holds)

/-- What holds of the empty tables and is kept by every call holds after every run. -/
theorem exists_stands_with {invariant : Tables → Prop} (initial : invariant .empty)
    (kept : ∀ {tables call tables'}, Transition tables call tables' → invariant tables →
      invariant tables') (config : Config) (calls : List Call) :
    ∃ tables, (ofConfig config).Stands ((ofConfig config).reached calls) tables
      ∧ invariant tables :=
  (stands_memory _).run_with initial kept calls

theorem exists_numbered (config : Config) (calls : List Call) :
    ∃ tables, (ofConfig config).Stands ((ofConfig config).reached calls) tables
      ∧ tables.Numbered :=
  exists_stands_with Tables.numbered_empty (fun transition h => transition.numbered h) config calls

end App

end Gazette
