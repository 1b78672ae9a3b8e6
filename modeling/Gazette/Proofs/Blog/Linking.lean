import Gazette.Proofs.Blog.Delivery

set_option autoImplicit false

/-! # How articles, tickets and tasks hang together

A task in the queue has a ticket with its ID, and its payload is the message that deletes the
article of the ticket. No two tickets are for the same article. As long as the article of a
ticket is stored, the task is queued for the deadline of the article, and the ticket belongs to
the owner of the article.

This holds because IDs are never issued twice: an article that is new has no ticket yet, and a
task that is new neither. So the invariant also says that all IDs in sight have been issued
(`Linked`). Every message that is delivered keeps it (`Delivered.linked`).
-/

namespace Gazette

structure Linked (articles : Table Article) (tickets : Table DeletionTicket)
    (tasks : Table Task) : Prop where
  article_issued : ∀ id article, articles.records id = some article → articles.Issued id
  ticket_issued : ∀ id ticket, tickets.records id = some ticket → tasks.Issued id
  named_issued : ∀ id ticket, tickets.records id = some ticket →
    articles.Issued ticket.articleId
  ticketed : ∀ id task, tasks.records id = some task →
    ∃ ticket, tickets.records id = some ticket
      ∧ task.payload = Deletions.payload ticket.articleId
  distinct : ∀ i j s t, tickets.records i = some s → tickets.records j = some t →
    s.articleId = t.articleId → i = j
  live : ∀ id ticket article, tickets.records id = some ticket →
    articles.records ticket.articleId = some article →
    ∃ task, tasks.records id = some task ∧ article.deleteAt = some task.runAt
      ∧ article.owner = ticket.owner

/-- The articles, tickets and tasks among the tables are linked. -/
def Tables.Linked (tables : Tables) : Prop :=
  Gazette.Linked tables.articles tables.tickets tables.tasks

theorem Tables.linked_empty : Tables.empty.Linked where
  article_issued id article hstored := by cases hstored
  ticket_issued id ticket hticket := by cases hticket
  named_issued id ticket hticket := by cases hticket
  ticketed id task htask := by cases htask
  distinct i j s t hs := by cases hs
  live id ticket article hticket := by cases hticket

namespace Linked

variable {articles : Table Article} {tickets : Table DeletionTicket} {tasks : Table Task}

/-! ## Articles -/

theorem add_article (h : Linked articles tickets tasks) (hroom : articles.HasRoom)
    (article : Article) : Linked (articles.add article) tickets tasks where
  article_issued := Table.All.add h.article_issued
    (fun _ _ issued => hroom.issued_add issued article) (articles.issued_next_add article)
  ticket_issued := h.ticket_issued
  named_issued id ticket hticket := hroom.issued_add (h.named_issued id ticket hticket) article
  ticketed := h.ticketed
  distinct := h.distinct
  live id ticket stored hticket hstored := by
    -- a ticket names an ID that was issued before
    rw [hroom.records_add (h.named_issued id ticket hticket)] at hstored
    exact h.live id ticket stored hticket hstored

/-- Articles may change in what is neither their deadline nor their owner. -/
theorem set_article (h : Linked articles tickets tasks) {id : RecordId} {old new : Article}
    (hold : articles.records id = some old) (hdeadline : new.deleteAt = old.deleteAt)
    (howner : new.owner = old.owner) : Linked (articles.set id new) tickets tasks where
  article_issued := Table.All.set h.article_issued (fun _ _ _ issued => issued)
    (h.article_issued id old hold)
  ticket_issued := h.ticket_issued
  named_issued := h.named_issued
  ticketed := h.ticketed
  distinct := h.distinct
  live i ticket stored hticket hstored := by
    rw [Table.records_set] at hstored
    split at hstored
    · rename_i same
      cases hstored
      rw [hdeadline, howner]
      exact h.live i ticket old hticket (same ▸ hold)
    · exact h.live i ticket stored hticket hstored

theorem erase_article (h : Linked articles tickets tasks) (id : RecordId) :
    Linked (articles.erase id) tickets tasks where
  article_issued := Table.All.erase h.article_issued id
  ticket_issued := h.ticket_issued
  named_issued := h.named_issued
  ticketed := h.ticketed
  distinct := h.distinct
  live i ticket stored hticket hstored := by
    rw [Table.records_erase] at hstored
    split at hstored
    · cases hstored
    · exact h.live i ticket stored hticket hstored

/-! ## Tickets and tasks -/

theorem schedule (h : Linked articles tickets tasks) (hroom : tasks.HasRoom)
    {articleId : RecordId} {article : Article} {owner : Address} {runAt : UnixTime}
    (hstored : articles.records articleId = some article)
    (hdeadline : article.deleteAt = some runAt) (howner : article.owner = owner)
    (hfresh : ∀ id ticket, tickets.records id = some ticket → ticket.articleId ≠ articleId) :
    Linked articles
      (tickets.set tasks.next { id := some tasks.next, articleId, owner })
      (tasks.add { id := none, runAt, payload := Deletions.payload articleId }) where
  article_issued := h.article_issued
  ticket_issued := Table.All.set h.ticket_issued
    (fun _ _ _ issued => hroom.issued_add issued _) (tasks.issued_next_add _)
  named_issued := Table.All.set h.named_issued (fun _ _ _ issued => issued)
    (h.article_issued articleId article hstored)
  ticketed id task htask := by
    rw [Table.records_add] at htask
    rw [Table.records_set]
    split at htask
    · rename_i fresh
      cases htask
      rw [if_pos fresh]
      exact ⟨_, rfl, rfl⟩
    · rename_i old
      rw [if_neg old]
      exact h.ticketed id task htask
  distinct i j s t hs ht hname := by
    rw [Table.records_set] at hs ht
    -- the new ticket and an older one would be for the same article
    split at hs <;> split at ht
    · rename_i hi hj
      exact hi.trans hj.symm
    · cases hs
      exact absurd hname.symm (hfresh j t ht)
    · cases ht
      exact absurd hname (hfresh i s hs)
    · exact h.distinct i j s t hs ht hname
  live id ticket stored hticket hfound := by
    rw [Table.records_set] at hticket
    rw [Table.records_add]
    split at hticket
    · rename_i fresh
      cases hticket
      -- the new ticket: its task is the new one, which runs at the deadline
      obtain rfl := Option.some.inj (hstored.symm.trans hfound)
      rw [if_pos fresh]
      exact ⟨_, rfl, hdeadline, howner⟩
    · rename_i old
      rw [if_neg old]
      exact h.live id ticket stored hticket hfound

theorem cancel (h : Linked articles tickets tasks) (id : RecordId) :
    Linked articles (tickets.erase id) (tasks.erase id) := by
  have kept : ∀ i ticket, (tickets.erase id).records i = some ticket →
      i ≠ id ∧ tickets.records i = some ticket := by
    intro i ticket hticket
    rw [Table.records_erase] at hticket
    split at hticket
    · cases hticket
    · rename_i other
      exact ⟨other, hticket⟩
  constructor
  case article_issued => exact h.article_issued
  case ticket_issued => exact Table.All.erase h.ticket_issued id
  case named_issued => exact Table.All.erase h.named_issued id
  case ticketed =>
    intro i task htask
    rw [Table.records_erase] at htask ⊢
    split at htask
    · cases htask
    · rename_i other
      rw [if_neg other]
      exact h.ticketed i task htask
  case distinct =>
    intro i j s t hs ht
    exact h.distinct i j s t (kept i s hs).2 (kept j t ht).2
  case live =>
    intro i ticket stored hticket hstored
    obtain ⟨other, hticket⟩ := kept i ticket hticket
    rw [Table.records_erase, if_neg other]
    exact h.live i ticket stored hticket hstored

/-- A task that has run: its article is gone, and so is the task, but the ticket stays. -/
theorem complete (h : Linked articles tickets tasks) {id : RecordId} {ticket : DeletionTicket}
    (hticket : tickets.records id = some ticket) :
    Linked (articles.erase ticket.articleId) tickets (tasks.erase id) := by
  have erased := h.erase_article ticket.articleId
  refine { erased with ticketed := ?_, live := ?_ }
  · intro i task htask
    rw [Table.records_erase] at htask
    split at htask
    · cases htask
    · exact h.ticketed i task htask
  · intro i other stored hother hstored
    -- the ticket of the task that has run names an article that is gone
    have different : i ≠ id := by
      rintro rfl
      obtain rfl := Option.some.inj (hother.symm.trans hticket)
      rw [Table.records_erase, if_pos rfl] at hstored
      cases hstored
    rw [Table.records_erase, if_neg different]
    exact erased.live i other stored hother hstored

end Linked

/-- No message that is delivered breaks the links. -/
theorem Delivered.linked {ctx : Context} {tables tables' : Tables} {message : Message}
    {id : RecordId} (h : tables.Linked) (hdelivered : Delivered ctx tables message id tables') :
    tables'.Linked := by
  cases hdelivered with
  | createUser | createBlog | changeBlogOwner => exact h
  | createArticle found signed room => exact Linked.add_article h room _
  | scheduleArticle found signed room ahead queue_room =>
    -- no ticket can name the new article yet
    refine Linked.schedule (h.add_article room _) queue_room
      (tables.articles.records_add_next _) rfl rfl ?_
    intro i ticket hticket
    exact room.ne_next (h.named_issued i ticket hticket)
  | deleteArticle found signed => exact Linked.erase_article h id
  | cancelDeletion found signed queued => exact Linked.cancel h id
  | createComment found signed room => exact Linked.set_article h found rfl rfl
  | createLike found signed room => exact Linked.set_article h found rfl rfl

end Gazette
