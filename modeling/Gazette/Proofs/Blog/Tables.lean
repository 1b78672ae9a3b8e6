import Gazette.Blog.Deletions
import Gazette.Proofs.Blog.Records
import Gazette.Proofs.Schedule.Queue

set_option autoImplicit false

/-! # The tables of the blog

The blog keeps seven tables, one for each of its buckets and one for the queue. All buckets have
different names, so a change of one table leaves the others alone (`Collections.Hold.set`).
-/

namespace Gazette

/-- The kinds of records that the blog keeps. -/
inductive RecordKind where
  | user
  | blog
  | article
  | comment
  | like
  | ticket
  | task
  deriving DecidableEq, Repr

namespace RecordKind

/-- The type of the records of a kind. -/
def type : RecordKind → Type
  | .user => User
  | .blog => Blog
  | .article => Article
  | .comment => Comment
  | .like => Like
  | .ticket => DeletionTicket
  | .task => Task

/-- The name of the bucket of a kind. -/
def label : RecordKind → String
  | .user => "user"
  | .blog => "blog"
  | .article => "article"
  | .comment => "comment"
  | .like => "like"
  | .ticket => "deleteart"
  | .task => "crontask"

theorem label_injective {kind other : RecordKind} (h : kind.label = other.label) :
    kind = other := by
  cases kind <;> cases other <;> first | rfl | exact absurd h (by decide)

instance (kind : RecordKind) : Record kind.type :=
  match kind with
  | .user => inferInstanceAs (Record User)
  | .blog => inferInstanceAs (Record Blog)
  | .article => inferInstanceAs (Record Article)
  | .comment => inferInstanceAs (Record Comment)
  | .like => inferInstanceAs (Record Like)
  | .ticket => inferInstanceAs (Record DeletionTicket)
  | .task => inferInstanceAs (Record Task)

instance (kind : RecordKind) : LawfulRecord kind.type where
  id_withId _ _ := by cases kind <;> rfl

end RecordKind

/-- One table for each kind of records. -/
structure Tables where
  users : Table User
  blogs : Table Blog
  articles : Table Article
  comments : Table Comment
  likes : Table Like
  tickets : Table DeletionTicket
  tasks : Table Task

namespace Tables

def empty : Tables := ⟨.empty, .empty, .empty, .empty, .empty, .empty, .empty⟩

/-- The table of a kind. -/
def of (tables : Tables) : (kind : RecordKind) → Table kind.type
  | .user => tables.users
  | .blog => tables.blogs
  | .article => tables.articles
  | .comment => tables.comments
  | .like => tables.likes
  | .ticket => tables.tickets
  | .task => tables.tasks

/-- The tables with another table of one kind. -/
def set (tables : Tables) : (kind : RecordKind) → Table kind.type → Tables
  | .user, users => { tables with users }
  | .blog, blogs => { tables with blogs }
  | .article, articles => { tables with articles }
  | .comment, comments => { tables with comments }
  | .like, likes => { tables with likes }
  | .ticket, tickets => { tables with tickets }
  | .task, tasks => { tables with tasks }

theorem of_set_self (tables : Tables) (kind : RecordKind) (table : Table kind.type) :
    (tables.set kind table).of kind = table := by
  cases kind <;> rfl

theorem of_set_of_ne (tables : Tables) {kind other : RecordKind} (table : Table kind.type)
    (h : other ≠ kind) : (tables.set kind table).of other = tables.of other := by
  cases kind <;> cases other <;> first | rfl | exact absurd rfl h

end Tables

namespace Collections

/-- The bucket of a kind. -/
def bucketOf (c : Collections) : (kind : RecordKind) → Bucket kind.type
  | .user => c.users
  | .blog => c.blogs
  | .article => c.articles
  | .comment => c.comments
  | .like => c.likes
  | .ticket => c.tickets
  | .task => Queue.bucket

theorem text_bucketOf (c : Collections) (kind : RecordKind) :
    (c.bucketOf kind).name.text = kind.label := by
  cases kind <;> rfl

theorem name_bucketOf_ne (c : Collections) {kind other : RecordKind} (h : kind ≠ other) :
    (c.bucketOf kind).name ≠ (c.bucketOf other).name := by
  intro same
  have text := congrArg Name.text same
  rw [text_bucketOf, text_bucketOf] at text
  exact h (RecordKind.label_injective text)

/-- The contents hold the tables, each in its bucket. -/
def Hold (c : Collections) (contents : Contents) (tables : Tables) : Prop :=
  ∀ kind, (c.bucketOf kind).Holds contents (tables.of kind)

variable {c : Collections} {contents contents' : Contents} {tables : Tables}

theorem hold_empty (c : Collections) : c.Hold .empty .empty := by
  intro kind
  have of_empty : Tables.empty.of kind = .empty := by cases kind <;> rfl
  rw [of_empty]
  exact Bucket.holds_empty

namespace Hold

/-- A change of one bucket is a change of one table. -/
theorem set (h : c.Hold contents tables) (kind : RecordKind) {table : Table kind.type}
    (hagree : Contents.AgreeOutside (c.bucketOf kind).name contents contents')
    (hafter : (c.bucketOf kind).Holds contents' table) :
    c.Hold contents' (tables.set kind table) := by
  intro other
  by_cases same : other = kind
  · subst same
    rw [Tables.of_set_self]
    exact hafter
  · rw [Tables.of_set_of_ne tables table same]
    exact (h other).of_agreeOutside hagree (c.name_bucketOf_ne same)

variable {store after : Store}

theorem put_new (h : c.Hold store.contents tables) (hstore : store.Reliable) (kind : RecordKind)
    {record : kind.type} {answer : RecordId × kind.type} (hstorable : Record.Storable record)
    (hnew : Record.id record = none)
    (hput : store.perform ((c.bucketOf kind).put record) = (.ok answer, after)) :
    answer.1 = (tables.of kind).next ∧ (tables.of kind).HasRoom ∧ after.Reliable
      ∧ c.Hold after.contents (tables.set kind ((tables.of kind).add record)) := by
  obtain ⟨hid, hroom, hafter, hholds, hagree⟩ := (h kind).put_new hstore hstorable hnew hput
  exact ⟨hid, hroom, hafter, h.set kind hagree hholds⟩

theorem put_own (h : c.Hold store.contents tables) (hstore : store.Reliable) (kind : RecordKind)
    {record : kind.type} {answer : RecordId × kind.type} {id : RecordId}
    (hstorable : Record.Storable record) (hown : Record.id record = some id)
    (hput : store.perform ((c.bucketOf kind).put record) = (.ok answer, after)) :
    answer.1 = id ∧ after.Reliable
      ∧ c.Hold after.contents (tables.set kind ((tables.of kind).set id record)) := by
  obtain ⟨hid, hafter, hholds, hagree⟩ := (h kind).put_own hstore hstorable hown hput
  exact ⟨hid, hafter, h.set kind hagree hholds⟩

theorem delete_eq (h : c.Hold store.contents tables) (hstore : store.Reliable)
    (kind : RecordKind) (id : RecordId) :
    ∃ after, store.perform ((c.bucketOf kind).delete id) =
        (.ok ((tables.of kind).records id).isSome, after)
      ∧ after.Reliable
      ∧ c.Hold after.contents (tables.set kind ((tables.of kind).erase id)) := by
  obtain ⟨after, hrun, hafter, hholds, hagree⟩ := (h kind).delete_eq hstore id
  exact ⟨after, hrun, hafter, h.set kind hagree hholds⟩

end Hold

end Collections

end Gazette
