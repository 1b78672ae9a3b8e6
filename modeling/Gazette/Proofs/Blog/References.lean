import Gazette.Proofs.Blog.Numbering
import Gazette.Proofs.Bucket.Admission

set_option autoImplicit false

/-! # IDs and references

The numbers from one to the last number of a table are those that it has *handed out*. Users,
blogs, comments and likes are never deleted, so the IDs of those that are stored are exactly the
numbers handed out for them (`Table.Gapless`). Articles and tasks are deleted, and a ticket has the
number of its task, so their IDs are among the numbers handed out. An article is posted to a blog
that is stored; what a comment, a like or a ticket is about has had its number handed out, whether
it is still stored or not. All this is `Tables.Orderly`, which every call keeps.

The last number of a table never goes down (`Tables.Older`). So the number that a new record gets
was no record's at any earlier time (`App.ids_in_order`).
-/

namespace Gazette

/-! ## Numbers of one table -/

namespace Table

variable {ρ : Type} {table : Table ρ}

/-- The ID lies between one and the last number. -/
def HandedOut (table : Table ρ) (id : RecordId) : Prop := 1 ≤ id.sequence ∧ table.Issued id

/-- The IDs of the records are the numbers that were handed out, without a gap. -/
def Gapless (table : Table ρ) : Prop :=
  ∀ id, (∃ record, table.records id = some record) ↔ table.HandedOut id

theorem not_handedOut_empty (id : RecordId) : ¬ (empty : Table ρ).HandedOut id := by
  rintro ⟨first, last⟩
  have first : 1 ≤ id.sequence.toNat := UInt64.le_iff_toNat_le.1 first
  have last : id.sequence.toNat ≤ 0 := UInt64.le_iff_toNat_le.1 last
  omega

theorem gapless_empty : (empty : Table ρ).Gapless := by
  intro id
  refine iff_of_false ?_ (not_handedOut_empty id)
  rintro ⟨record, hrecord⟩
  cases hrecord

section add

variable [Record ρ]

/-- One more number is handed out for a new record. -/
theorem HasRoom.handedOut_add (h : table.HasRoom) (record : ρ) (id : RecordId) :
    (table.add record).HandedOut id ↔ table.HandedOut id ∨ id = table.next := by
  have last_eq : (table.last + 1).toNat = table.last.toNat + 1 := toNat_add_one h
  have next_iff : id = table.next ↔ id.sequence.toNat = table.last.toNat + 1 := by
    rw [← last_eq, UInt64.toNat_inj]
    constructor
    · rintro rfl
      rfl
    · intro same
      cases id
      exact congrArg RecordId.mk same
  show 1 ≤ id.sequence ∧ id.sequence ≤ table.last + 1 ↔
    (1 ≤ id.sequence ∧ id.sequence ≤ table.last) ∨ id = table.next
  rw [next_iff, UInt64.le_iff_toNat_le, UInt64.le_iff_toNat_le, UInt64.le_iff_toNat_le, last_eq,
    show (1 : UInt64).toNat = 1 from rfl]
  omega

theorem Gapless.add (h : table.Gapless) (room : table.HasRoom) (record : ρ) :
    (table.add record).Gapless := by
  intro id
  rw [room.handedOut_add, records_add, ← h id]
  by_cases fresh : id = table.next
  · simp [fresh]
  · simp [fresh]

end add

theorem Gapless.set (h : table.Gapless) {id : RecordId} {old : ρ}
    (hold : table.records id = some old) (record : ρ) : (table.set id record).Gapless := by
  intro i
  refine Iff.trans ?_ (h i)
  rw [records_set]
  by_cases same : i = id
  · simp [same, hold]
  · simp [same]

theorem Gapless.handedOut (h : table.Gapless) : table.All fun id _ => table.HandedOut id :=
  fun id record hrecord => (h id).1 ⟨record, hrecord⟩

end Table

/-! ## The order of the tables -/

/-- The kind whose counter gives the records of a kind their IDs: tickets have those of tasks. -/
def RecordKind.numberedBy : RecordKind → RecordKind
  | .ticket => .task
  | kind => kind

/-- The IDs of the records, and those that records name, were handed out. -/
structure Tables.Orderly (tables : Tables) : Prop where
  users : tables.users.Gapless
  blogs : tables.blogs.Gapless
  comments : tables.comments.Gapless
  likes : tables.likes.Gapless
  articles : tables.articles.All fun id _ => tables.articles.HandedOut id
  tasks : tables.tasks.All fun id _ => tables.tasks.HandedOut id
  tickets : tables.tickets.All fun id _ => tables.tasks.HandedOut id
  posted : tables.articles.All fun _ article => tables.blogs.HandedOut article.blogId
  commented : tables.comments.All fun _ comment => tables.articles.HandedOut comment.articleId
  liked : tables.likes.All fun _ like => tables.articles.HandedOut like.articleId
  named : tables.tickets.All fun _ ticket => tables.articles.HandedOut ticket.articleId

namespace Tables

variable {tables tables' : Tables}

theorem orderly_empty : Tables.empty.Orderly where
  users := Table.gapless_empty
  blogs := Table.gapless_empty
  comments := Table.gapless_empty
  likes := Table.gapless_empty
  articles id article hstored := by cases hstored
  tasks id task htask := by cases htask
  tickets id ticket hticket := by cases hticket
  posted id article hstored := by cases hstored
  commented id comment hcomment := by cases hcomment
  liked id like hlike := by cases hlike
  named id ticket hticket := by cases hticket

namespace Orderly

theorem add_article (h : tables.Orderly) (room : tables.articles.HasRoom) {article : Article}
    (hblog : tables.blogs.HandedOut article.blogId) :
    Orderly { tables with articles := tables.articles.add article } := by
  have older : ∀ id, tables.articles.HandedOut id → (tables.articles.add article).HandedOut id :=
    fun id handed => (room.handedOut_add article id).2 (.inl handed)
  have next : (tables.articles.add article).HandedOut tables.articles.next :=
    (room.handedOut_add article _).2 (.inr rfl)
  exact { h with
    articles := h.articles.add (fun id _ => older id) next
    posted := h.posted.add (fun _ _ handed => handed) hblog
    commented := h.commented.imp fun _ comment => older comment.articleId
    liked := h.liked.imp fun _ like => older like.articleId
    named := h.named.imp fun _ ticket => older ticket.articleId }

/-- An article may change in what is not its blog. -/
theorem set_article (h : tables.Orderly) {id : RecordId} {old new : Article}
    (hold : tables.articles.records id = some old) (hblog : new.blogId = old.blogId) :
    Orderly { tables with articles := tables.articles.set id new } :=
  { h with
    articles := h.articles.set (fun _ _ _ handed => handed) (h.articles id old hold)
    posted := h.posted.set (fun _ _ _ handed => handed) (hblog ▸ h.posted id old hold) }

theorem erase_article (h : tables.Orderly) (id : RecordId) :
    Orderly { tables with articles := tables.articles.erase id } :=
  { h with articles := h.articles.erase id, posted := h.posted.erase id }

/-- The new ticket has the number of the new task. -/
theorem schedule (h : tables.Orderly) (room : tables.tasks.HasRoom) {articleId : RecordId}
    (harticle : tables.articles.HandedOut articleId) (owner : Address) (runAt : UnixTime) :
    (tables.schedule articleId owner runAt).Orderly := by
  have handed_out := room.handedOut_add
    ({ id := none, runAt, payload := Deletions.payload articleId } : Task)
  have next := (handed_out tables.tasks.next).2 (.inr rfl)
  exact { h with
    tasks := h.tasks.add (fun id _ handed => (handed_out id).2 (.inl handed)) next
    tickets := h.tickets.set (fun id _ _ handed => (handed_out id).2 (.inl handed)) next
    named := h.named.set (fun _ _ _ handed => handed) harticle }

theorem erase_task (h : tables.Orderly) (id : RecordId) :
    Orderly { tables with tasks := tables.tasks.erase id } :=
  { h with tasks := h.tasks.erase id }

theorem erase_ticket (h : tables.Orderly) (id : RecordId) :
    Orderly { tables with tickets := tables.tickets.erase id } :=
  { h with tickets := h.tickets.erase id, named := h.named.erase id }

theorem add_comment (h : tables.Orderly) (room : tables.comments.HasRoom) {comment : Comment}
    (harticle : tables.articles.HandedOut comment.articleId) :
    Orderly { tables with comments := tables.comments.add comment } :=
  { h with
    comments := h.comments.add room comment
    commented := h.commented.add (fun _ _ handed => handed) harticle }

theorem add_like (h : tables.Orderly) (room : tables.likes.HasRoom) {like : Like}
    (harticle : tables.articles.HandedOut like.articleId) :
    Orderly { tables with likes := tables.likes.add like } :=
  { h with
    likes := h.likes.add room like
    liked := h.liked.add (fun _ _ handed => handed) harticle }

/-- Whatever is stored has a number that was handed out. -/
theorem handedOut (h : tables.Orderly) (kind : RecordKind) :
    (tables.of kind).All fun id _ => (tables.of kind.numberedBy).HandedOut id := by
  cases kind with
  | user => exact h.users.handedOut
  | blog => exact h.blogs.handedOut
  | article => exact h.articles
  | comment => exact h.comments.handedOut
  | like => exact h.likes.handedOut
  | ticket => exact h.tickets
  | task => exact h.tasks

end Orderly

/-! ## Last numbers -/

/-- No last number of the one tables is greater than in the other. -/
def Older (tables tables' : Tables) : Prop :=
  ∀ kind, (tables.of kind).last ≤ (tables'.of kind).last

namespace Older

theorem refl (tables : Tables) : tables.Older tables := fun _ => UInt64.le_refl _

theorem trans {tables'' : Tables} (h : tables.Older tables') (h' : tables'.Older tables'') :
    tables.Older tables'' :=
  fun kind => UInt64.le_trans (h kind) (h' kind)

variable (h : tables.Older tables') (kind : RecordKind)

include h

theorem replace {table : Table kind.type} (hlast : (tables'.of kind).last ≤ table.last) :
    tables.Older (tables'.set kind table) := by
  intro other
  by_cases same : other = kind
  · subst same
    rw [of_set_self]
    exact UInt64.le_trans (h other) hlast
  · rw [of_set_of_ne tables' table same]
    exact h other

theorem add (room : (tables'.of kind).HasRoom) (record : kind.type) :
    tables.Older (tables'.set kind ((tables'.of kind).add record)) :=
  h.replace kind (UInt64.le_of_lt room.last_lt)

theorem set (id : RecordId) (record : kind.type) :
    tables.Older (tables'.set kind ((tables'.of kind).set id record)) :=
  h.replace kind (UInt64.le_refl _)

theorem erase (id : RecordId) :
    tables.Older (tables'.set kind ((tables'.of kind).erase id)) :=
  h.replace kind (UInt64.le_refl _)

end Older

end Tables

/-! ## One call -/

variable {tables tables' : Tables} {ctx : Context} {message : Message} {id : RecordId}
  {now : UnixTime}

theorem Delivered.orderly (h : tables.Orderly)
    (delivered : Delivered ctx tables message id tables') : tables'.Orderly := by
  cases delivered with
  | createUser room => exact { h with users := h.users.add room _ }
  | createBlog signed room =>
    exact { h with
      blogs := h.blogs.add room _
      posted := h.posted.imp fun _ article handed => (room.handedOut_add _ _).2 (.inl handed) }
  | changeBlogOwner found signed => exact { h with blogs := h.blogs.set found _ }
  | createArticle found signed room =>
    exact h.add_article room (h.blogs.handedOut _ _ found)
  | scheduleArticle found signed room ahead queue_room =>
    refine (h.add_article room (h.blogs.handedOut _ _ found)).schedule queue_room ?_ _ _
    exact (room.handedOut_add _ _).2 (.inr rfl)
  | deleteArticle found signed => exact h.erase_article id
  | cancelDeletion found signed queued => exact (h.erase_task id).erase_ticket id
  | createComment found signed room =>
    exact (h.add_comment room (h.articles _ _ found)).set_article found rfl
  | createLike found signed room =>
    exact (h.add_like room (h.articles _ _ found)).set_article found rfl

theorem Executed.orderly {fired : Fired} (h : tables.Orderly)
    (executed : Executed now tables id fired tables') : tables'.Orderly := by
  cases executed with
  | missing | notDue => exact h
  | completed queued due held named => exact (h.erase_article _).erase_task id

theorem ExecutedAll.orderly {ids : List RecordId} (h : tables.Orderly)
    (executed : ExecutedAll now tables ids tables') : tables'.Orderly := by
  induction executed with
  | nil => exact h
  | cons first later ih => exact ih (first.orderly h)

theorem Delivered.older (delivered : Delivered ctx tables message id tables') :
    tables.Older tables' := by
  have same := Tables.Older.refl tables
  cases delivered with
  | createUser room => exact same.add .user room _
  | createBlog signed room => exact same.add .blog room _
  | changeBlogOwner => exact same.set .blog _ _
  | createArticle found signed room => exact same.add .article room _
  | scheduleArticle found signed room ahead queue_room =>
    exact ((same.add .article room _).add .task queue_room _).set .ticket _ _
  | deleteArticle => exact same.erase .article _
  | cancelDeletion => exact (same.erase .task _).erase .ticket _
  | createComment found signed room => exact (same.add .comment room _).set .article _ _
  | createLike found signed room => exact (same.add .like room _).set .article _ _

theorem Executed.older {fired : Fired} (executed : Executed now tables id fired tables') :
    tables.Older tables' := by
  cases executed with
  | missing | notDue => exact .refl tables
  | completed => exact ((Tables.Older.refl tables).erase .article _).erase .task _

theorem ExecutedAll.older {ids : List RecordId} (executed : ExecutedAll now tables ids tables') :
    tables.Older tables' := by
  induction executed with
  | nil => exact .refl _
  | cons first later ih => exact first.older.trans ih

/-! ## New records -/

/-- The kinds of which a message creates a record. A deletion that is scheduled is a task with a
ticket. -/
def Message.creates : Message → List RecordKind
  | .createUser .. => [.user]
  | .createBlog .. => [.blog]
  | .createArticle _ _ _ none => [.article]
  | .createArticle _ _ _ (some _) => [.article, .task, .ticket]
  | .createComment .. => [.comment]
  | .createLike _ => [.like]
  | .changeBlogOwner .. | .deleteArticle _ | .cancelDeletion _ => []

/-- A record that is created gets the next number of its kind, and the answer is the ID of what
was asked for. -/
theorem Delivered.created (delivered : Delivered ctx tables message id tables') {kind : RecordKind}
    (hkind : kind ∈ message.creates) :
    (tables.of kind.numberedBy).HasRoom
      ∧ (∃ record, (tables'.of kind).records (tables.of kind.numberedBy).next = some record)
      ∧ (kind ≠ .task → kind ≠ .ticket → id = (tables.of kind.numberedBy).next) := by
  cases delivered with
  | createUser room | createBlog signed room | createArticle found signed room =>
    obtain rfl := List.mem_singleton.1 hkind
    exact ⟨room, ⟨_, Table.records_add_next _ _⟩, fun _ _ => rfl⟩
  | changeBlogOwner | deleteArticle | cancelDeletion => cases hkind
  | scheduleArticle found signed room ahead queue_room =>
    simp only [Message.creates, List.mem_cons, List.not_mem_nil, or_false] at hkind
    rcases hkind with rfl | rfl | rfl
    · exact ⟨room, ⟨_, Table.records_add_next _ _⟩, fun _ _ => rfl⟩
    · exact ⟨queue_room, ⟨_, Table.records_add_next _ _⟩, fun other => absurd rfl other⟩
    · exact ⟨queue_room, ⟨_, Table.records_set_self _ _ _⟩, fun _ other => absurd rfl other⟩
  | createComment found signed room | createLike found signed room =>
    obtain rfl := List.mem_singleton.1 hkind
    exact ⟨room, ⟨_, Table.records_add_next _ _⟩, fun _ _ => rfl⟩

/-- The next number was nobody's ID as long as fewer numbers were handed out. -/
theorem Table.HasRoom.unused {ρ σ : Type} {first last : Table σ} {table : Table ρ}
    (room : last.HasRoom) (older : first.last ≤ last.last)
    (h : table.All fun id _ => first.HandedOut id) : table.records last.next = none := by
  cases hrecord : table.records last.next with
  | none => rfl
  | some record =>
    have issued : last.Issued last.next := UInt64.le_trans (h _ _ hrecord).2 older
    exact absurd rfl (room.ne_next issued)

/-! ## Runs -/

namespace Collections

/-- A record of this kind is stored under the ID. -/
def Stores (c : Collections) (store : Store) (kind : RecordKind) (id : RecordId) : Prop :=
  ∃ record, (c.bucketOf kind).get store id = .ok (some record)

/-- The counter of this kind has handed out the ID, which lies between one and the number that the
counter stands at. -/
def HandedOut (c : Collections) (store : Store) (kind : RecordKind) (id : RecordId) : Prop :=
  ∃ last, (c.bucketOf kind).counter.current store = .ok last ∧ 1 ≤ id.sequence
    ∧ id.sequence ≤ last

end Collections

namespace App

variable {config : Config} {app : App} {store : Store}

/-- No record of this kind was stored under the ID at any point of the run. -/
def NeverStored (app : App) (calls : List Call) (kind : RecordKind) (id : RecordId) : Prop :=
  ∀ earlier, earlier <+: calls →
    (app.collections.bucketOf kind).get (app.reached earlier) id = .ok none

theorem Transition.orderly {call : Call} (transition : Transition tables call tables')
    (h : tables.Orderly) : tables'.Orderly := by
  cases transition with
  | idle => exact h
  | deliver delivered => exact delivered.orderly h
  | tick executed => exact executed.orderly h
  | fire executed => exact executed.orderly h

theorem Transition.older {call : Call} (transition : Transition tables call tables') :
    tables.Older tables' := by
  cases transition with
  | idle => exact .refl tables
  | deliver delivered => exact delivered.older
  | tick executed => exact executed.older
  | fire executed => exact executed.older

theorem exists_orderly (config : Config) (calls : List Call) :
    ∃ tables, (ofConfig config).Stands ((ofConfig config).reached calls) tables ∧ tables.Orderly :=
  exists_stands_with Tables.orderly_empty (fun transition h => transition.orderly h) config calls

namespace Stands

theorem get_eq (h : app.Stands store tables) (kind : RecordKind) (id : RecordId) :
    (app.collections.bucketOf kind).get store id = .ok ((tables.of kind).records id) :=
  (h.hold kind).get_eq h.reliable id

theorem current_eq (h : app.Stands store tables) (kind : RecordKind) :
    (app.collections.bucketOf kind).counter.current store = .ok (tables.of kind).last :=
  Counter.current_eq h.reliable (h.hold kind).issued

theorem stores_iff (h : app.Stands store tables) (kind : RecordKind) (id : RecordId) :
    app.collections.Stores store kind id ↔ ∃ record, (tables.of kind).records id = some record := by
  simp only [Collections.Stores, h.get_eq, Except.ok.injEq]

theorem handedOut_iff (h : app.Stands store tables) (kind : RecordKind) (id : RecordId) :
    app.collections.HandedOut store kind id ↔ (tables.of kind).HandedOut id := by
  simp only [Collections.HandedOut, h.current_eq, Except.ok.injEq, exists_eq_left']
  exact Iff.rfl

/-- Whatever is stored has a number that was handed out for its kind. -/
theorem handedOut_of_stores (h : app.Stands store tables) (orderly : tables.Orderly)
    (kind : RecordKind) (id : RecordId) (hstored : app.collections.Stores store kind id) :
    app.collections.HandedOut store kind.numberedBy id := by
  rw [h.stores_iff] at hstored
  rw [h.handedOut_iff]
  obtain ⟨record, hrecord⟩ := hstored
  exact orderly.handedOut kind id record hrecord

/-- Earlier in a run there were tables with smaller last numbers. -/
theorem exists_older {calls earlier : List Call}
    (h : (ofConfig config).Stands ((ofConfig config).reached calls) tables)
    (hearlier : earlier <+: calls) :
    ∃ first, (ofConfig config).Stands ((ofConfig config).reached earlier) first ∧ first.Orderly
      ∧ first.Older tables := by
  obtain ⟨rest, rfl⟩ := hearlier
  obtain ⟨first, stands, orderly⟩ := exists_orderly config earlier
  obtain ⟨last, stands', older⟩ := stands.run_with (Tables.Older.refl first)
    (fun transition older => older.trans transition.older) rest
  refine ⟨first, stands, orderly, fun kind => ?_⟩
  -- the tables that the run leads to have the last numbers that the counters stand at
  have reached_eq : (ofConfig config).run ((ofConfig config).reached earlier) rest =
      (ofConfig config).reached (earlier ++ rest) := (List.foldl_append ..).symm
  rw [reached_eq] at stands'
  have same := Except.ok.inj ((stands'.current_eq kind).symm.trans (h.current_eq kind))
  rw [← same]
  exact older kind

/-- The next number of a kind was never the ID of such a record. -/
theorem neverStored {calls : List Call}
    (h : (ofConfig config).Stands ((ofConfig config).reached calls) tables) {kind : RecordKind}
    (room : (tables.of kind.numberedBy).HasRoom) :
    (ofConfig config).NeverStored calls kind (tables.of kind.numberedBy).next := by
  intro earlier hearlier
  obtain ⟨first, stands, orderly, older⟩ := h.exists_older hearlier
  rw [stands.get_eq, room.unused (older kind.numberedBy) (orderly.handedOut kind)]

/-- What a message creates is stored under an ID that was never one of its kind. -/
theorem created {calls : List Call}
    (h : (ofConfig config).Stands ((ofConfig config).reached calls) tables)
    {answer : Option RecordId}
    (hanswer : ((ofConfig config).deliver ctx message ((ofConfig config).reached calls)).1 =
      .ok answer) {kind : RecordKind} (hkind : kind ∈ message.creates) :
    ∃ id, (ofConfig config).NeverStored calls kind id
      ∧ (ofConfig config).collections.Stores
          ((ofConfig config).deliver ctx message ((ofConfig config).reached calls)).2 kind id
      ∧ (kind ≠ .task → kind ≠ .ticket → answer = some id) := by
  rcases h.deliver ctx message with
    ⟨⟨error, hfailed⟩, -⟩ | ⟨id, tables', hdone, delivered, h'⟩
  · cases hfailed.symm.trans hanswer
  · obtain ⟨room, hcreated, hid⟩ := delivered.created hkind
    have answer_eq : answer = some id := Except.ok.inj (hanswer.symm.trans hdone)
    refine ⟨_, h.neverStored room, (h'.stores_iff kind _).2 hcreated, ?_⟩
    intro not_task not_ticket
    rw [answer_eq, hid not_task not_ticket]

end Stands

/-- After every run the IDs of users, blogs, comments and likes are the numbers that their counters
have handed out, and all other IDs, stored or named by a record, are among the numbers handed out
for what they stand for; the blog of an article is still stored. A record that is created gets an ID
that no record of its kind had at any point of the run. -/
theorem ids_in_order (config : Config) (calls : List Call) :
    let app := ofConfig config
    let c := app.collections
    let store := app.reached calls
    (∀ kind, (∃ last, (c.bucketOf kind).counter.current store = .ok last)
      ∧ ∀ id, ∃ record, (c.bucketOf kind).get store id = .ok record)
    ∧ (∀ kind ∈ [RecordKind.user, .blog, .comment, .like], ∀ id,
        c.Stores store kind id ↔ c.HandedOut store kind id)
    ∧ (∀ id, c.Stores store .article id → c.HandedOut store .article id)
    ∧ (∀ id, c.Stores store .task id → c.HandedOut store .task id)
    ∧ (∀ id, c.Stores store .ticket id → c.HandedOut store .task id)
    ∧ (∀ id article, c.articles.get store id = .ok (some article) →
        c.Stores store .blog article.blogId)
    ∧ (∀ id comment, c.comments.get store id = .ok (some comment) →
        c.HandedOut store .article comment.articleId)
    ∧ (∀ id like, c.likes.get store id = .ok (some like) →
        c.HandedOut store .article like.articleId)
    ∧ (∀ id ticket, c.tickets.get store id = .ok (some ticket) →
        c.HandedOut store .article ticket.articleId)
    ∧ ∀ ctx message answer, (app.deliver ctx message store).1 = .ok answer →
        ∀ kind ∈ message.creates, ∃ id, app.NeverStored calls kind id
          ∧ c.Stores (app.deliver ctx message store).2 kind id
          ∧ (kind ≠ .task → kind ≠ .ticket → answer = some id) := by
  intro app c store
  obtain ⟨tables, stands, orderly⟩ := exists_orderly config calls
  have handed := fun kind id => (stands.handedOut_iff kind id).2
  refine ⟨?_, ?_, stands.handedOut_of_stores orderly .article,
    stands.handedOut_of_stores orderly .task, stands.handedOut_of_stores orderly .ticket,
    ?_, ?_, ?_, ?_, fun ctx message answer hanswer kind hkind => stands.created hanswer hkind⟩
  · exact fun kind => ⟨⟨_, stands.current_eq kind⟩, fun id => ⟨_, stands.get_eq kind id⟩⟩
  · intro kind hkind id
    rw [stands.stores_iff, stands.handedOut_iff]
    simp only [List.mem_cons, List.not_mem_nil, or_false] at hkind
    rcases hkind with rfl | rfl | rfl | rfl
    · exact orderly.users id
    · exact orderly.blogs id
    · exact orderly.comments id
    · exact orderly.likes id
  · intro id article harticle
    rw [stands.get_article, Except.ok.injEq] at harticle
    -- no blog is ever deleted, so the one that the article was posted to is stored
    exact (stands.stores_iff .blog _).2
      ((orderly.blogs article.blogId).2 (orderly.posted id article harticle))
  · intro id comment hcomment
    have hrecord := Except.ok.inj ((stands.get_eq .comment id).symm.trans hcomment)
    exact handed .article _ (orderly.commented id comment hrecord)
  · intro id like hlike
    have hrecord := Except.ok.inj ((stands.get_eq .like id).symm.trans hlike)
    exact handed .article _ (orderly.liked id like hrecord)
  · intro id ticket hticket
    rw [stands.get_ticket, Except.ok.injEq] at hticket
    exact handed .article _ (orderly.named id ticket hticket)

/-- After `posted` the article is of the one blog, and the next article with a deadline gets an ID
that no article had, as its task gets one that no task had. -/
theorem ids_in_order_posted :
    let app := ofConfig {}
    let c := app.collections
    let store := app.reached posted
    let post := Message.createArticle ⟨1⟩ "Gears" "Turning" (some ⟨30⟩)
    c.Stores store .blog wheels.blogId
      ∧ (∃ id, app.NeverStored posted .article id
          ∧ c.Stores (app.deliver ⟨⟨12⟩, [ada]⟩ post store).2 .article id ∧ some ⟨2⟩ = some id)
      ∧ ∃ id, app.NeverStored posted .task id
          ∧ c.Stores (app.deliver ⟨⟨12⟩, [ada]⟩ post store).2 .task id := by
  intro app c store post
  obtain ⟨-, -, -, -, -, in_blog, -, -, -, created⟩ := ids_in_order {} posted
  have done : (app.deliver ⟨⟨12⟩, [ada]⟩ post store).1 = .ok (some ⟨2⟩) := by decide +kernel
  have new := created ⟨⟨12⟩, [ada]⟩ post (some ⟨2⟩) done
  refine ⟨in_blog ⟨1⟩ wheels (by decide +kernel), ?_, ?_⟩
  · obtain ⟨id, unused, stored, answered⟩ := new .article (by decide)
    exact ⟨id, unused, stored, answered (by decide) (by decide)⟩
  · obtain ⟨id, unused, stored, -⟩ := new .task (by decide)
    exact ⟨id, unused, stored⟩

end App

end Gazette
