import Gazette.Proofs.Blog.Run

set_option autoImplicit false

/-! # Who can remove an article

An article that is stored stays so at every call, but for two: its owner deletes it, or its
deadline has passed and its task is run. The task is in the queue when the call begins, because
running other tasks only takes tasks away.

An article that no ticket names has no task either, now or later, since tickets are only issued
for new articles. So it stays until its owner deletes it (`App.removal_needs_authority`).
-/

namespace Gazette

variable {tables tables' : Tables} {a : RecordId} {article : Article}

/-! ## What a call removes -/

theorem Delivered.removed {ctx : Context} {message : Message} {id : RecordId}
    (h : Delivered ctx tables message id tables')
    (hstored : tables.articles.records a = some article)
    (hgone : tables'.articles.records a = none) :
    message = .deleteArticle a ∧ ctx.mainSigner = .ok article.owner := by
  cases h with
  | createUser | createBlog | changeBlogOwner | cancelDeletion =>
    have kept : tables.articles.records a = none := hgone
    rw [hstored] at kept
    cases kept
  | createArticle | scheduleArticle =>
    -- even if the new article had the ID of this one, something would be stored under it
    have kept := hgone
    simp only [Tables.schedule, Table.records_add] at kept
    split at kept
    · cases kept
    · rw [hstored] at kept
      cases kept
  | deleteArticle found signed =>
    rw [Table.records_erase] at hgone
    split at hgone
    · rename_i same
      subst same
      rw [hstored] at found
      cases found
      exact ⟨rfl, signed⟩
    · rw [hstored] at hgone
      cases hgone
  | createComment | createLike =>
    rw [Table.records_set] at hgone
    split at hgone
    · cases hgone
    · rw [hstored] at hgone
      cases hgone

namespace Executed

variable {now : UnixTime} {id : RecordId} {fired : Fired}

/-- Running a task takes away one article and one task at most, and no ticket. -/
theorem frame (h : Executed now tables id fired tables') :
    (∀ i stored, tables'.articles.records i = some stored →
        tables.articles.records i = some stored)
      ∧ ∀ i task, tables'.tasks.records i = some task → tables.tasks.records i = some task := by
  cases h with
  | missing | notDue => exact ⟨fun _ _ h => h, fun _ _ h => h⟩
  | completed =>
    constructor
    · intro i stored hstored
      rw [Table.records_erase] at hstored
      split at hstored
      · cases hstored
      · exact hstored
    · intro i task htask
      rw [Table.records_erase] at htask
      split at htask
      · cases htask
      · exact htask

theorem removed (h : Executed now tables id fired tables') (hlinked : tables.Linked)
    (hstored : tables.articles.records a = some article)
    (hgone : tables'.articles.records a = none) :
    ∃ task, tables.tasks.records id = some task ∧ task.payload = Deletions.payload a
      ∧ article.deleteAt = some task.runAt ∧ ¬ now < task.runAt := by
  cases h with
  | missing | notDue =>
    rw [hstored] at hgone
    cases hgone
  | completed queued due held named =>
    rw [Table.records_erase] at hgone
    split at hgone
    · rename_i same
      subst same
      -- the article is still stored, so the task runs at its deadline
      obtain ⟨task, htask, hdeadline, -⟩ := hlinked.live id _ article held hstored
      obtain rfl := Option.some.inj (queued.symm.trans htask)
      exact ⟨_, queued, named, hdeadline, due⟩
    · rw [hstored] at hgone
      cases hgone

end Executed

theorem ExecutedAll.removed {now : UnixTime} {ids : List RecordId}
    (h : ExecutedAll now tables ids tables') (hlinked : tables.Linked)
    (hstored : tables.articles.records a = some article)
    (hgone : tables'.articles.records a = none) :
    ∃ id task, tables.tasks.records id = some task ∧ task.payload = Deletions.payload a
      ∧ article.deleteAt = some task.runAt ∧ ¬ now < task.runAt := by
  induction h with
  | nil =>
    rw [hstored] at hgone
    cases hgone
  | @cons tables mid last id rest fired first later ih =>
    cases hmid : mid.articles.records a with
    | none => exact ⟨id, first.removed hlinked hstored hmid⟩
    | some stored =>
      -- the article is still there, so it is a later task that removes it
      obtain rfl := Option.some.inj (hstored.symm.trans (first.frame.1 a stored hmid))
      obtain ⟨i, task, htask, spec⟩ := ih (first.linked hlinked) hmid hgone
      exact ⟨i, task, first.frame.2 i task htask, spec⟩

/-! ## Articles that no ticket names -/

/-- A ticket is for the article. -/
def Tables.Ticketed (tables : Tables) (a : RecordId) : Prop :=
  ∃ id ticket, tables.tickets.records id = some ticket ∧ ticket.articleId = a

/-- Tickets are only issued for new articles. -/
theorem Delivered.ticketed {ctx : Context} {message : Message} {id : RecordId}
    (h : Delivered ctx tables message id tables') (hissued : tables.articles.Issued a)
    (hticketed : tables'.Ticketed a) : tables.Ticketed a := by
  obtain ⟨i, ticket, hticket, hname⟩ := hticketed
  cases h with
  | createUser | createBlog | changeBlogOwner | createArticle | deleteArticle | createComment
  | createLike => exact ⟨i, ticket, hticket, hname⟩
  | scheduleArticle found signed room =>
    simp only [Tables.schedule, Table.records_set] at hticket
    split at hticket
    · cases hticket
      exact absurd hname.symm (room.ne_next hissued)
    · exact ⟨i, ticket, hticket, hname⟩
  | cancelDeletion =>
    simp only [Tables.cancel, Table.records_erase] at hticket
    split at hticket
    · cases hticket
    · exact ⟨i, ticket, hticket, hname⟩

/-- A deletion that is cancelled takes the one ticket for its article with it. -/
theorem Tables.Linked.not_ticketed_cancel (h : tables.Linked) {taskId : RecordId}
    {ticket : DeletionTicket} (hticket : tables.tickets.records taskId = some ticket) :
    ¬ (tables.cancel taskId).Ticketed ticket.articleId := by
  rintro ⟨i, other, hother, hname⟩
  simp only [Tables.cancel, Table.records_erase] at hother
  split at hother
  · cases hother
  · rename_i different
    exact different (h.distinct i taskId other ticket hother hticket hname)

/-- The article is stored, belongs to this owner, and no ticket is for it. -/
def Tables.Keeps (tables : Tables) (a : RecordId) (owner : Address) : Prop :=
  (∃ article, tables.articles.records a = some article ∧ article.owner = owner)
    ∧ ∀ id ticket, tables.tickets.records id = some ticket → ticket.articleId ≠ a

variable {owner : Address}

theorem Delivered.keeps {ctx : Context} {message : Message} {id : RecordId}
    (h : Delivered ctx tables message id tables') (hlinked : tables.Linked)
    (hkeeps : tables.Keeps a owner)
    (hother : message = .deleteArticle a → ctx.mainSigner ≠ .ok owner) :
    tables'.Keeps a owner := by
  obtain ⟨⟨article, hstored, howner⟩, hunnamed⟩ := hkeeps
  have hissued := hlinked.article_issued a article hstored
  refine ⟨?_, fun i ticket hticket hname => ?_⟩
  · cases h with
    | createUser | createBlog | changeBlogOwner | cancelDeletion =>
      exact ⟨article, hstored, howner⟩
    | createArticle found signed room | scheduleArticle found signed room =>
      exact ⟨article, (room.records_add hissued _).trans hstored, howner⟩
    | deleteArticle found signed =>
      have different : a ≠ id := by
        rintro rfl
        obtain rfl := Option.some.inj (hstored.symm.trans found)
        exact hother rfl (howner ▸ signed)
      refine ⟨article, ?_, howner⟩
      rw [Table.records_erase, if_neg different]
      exact hstored
    | @createComment articleId _ commented _ found signed room
    | @createLike articleId commented _ found signed room =>
      simp only [Table.records_set]
      split
      · rename_i same
        subst same
        obtain rfl := Option.some.inj (hstored.symm.trans found)
        exact ⟨_, rfl, howner⟩
      · exact ⟨article, hstored, howner⟩
  · obtain ⟨j, old, hold, hname⟩ := h.ticketed hissued ⟨i, ticket, hticket, hname⟩
    exact hunnamed j old hold hname

theorem Executed.keeps {now : UnixTime} {id : RecordId} {fired : Fired}
    (h : Executed now tables id fired tables') (hkeeps : tables.Keeps a owner) :
    tables'.Keeps a owner := by
  cases h with
  | missing | notDue => exact hkeeps
  | completed queued due held named =>
    obtain ⟨⟨article, hstored, howner⟩, hunnamed⟩ := hkeeps
    refine ⟨⟨article, ?_, howner⟩, hunnamed⟩
    rw [Table.records_erase, if_neg (hunnamed id _ held).symm]
    exact hstored

theorem ExecutedAll.keeps {now : UnixTime} {ids : List RecordId}
    (h : ExecutedAll now tables ids tables') (hkeeps : tables.Keeps a owner) :
    tables'.Keeps a owner := by
  induction h with
  | nil => exact hkeeps
  | cons first later ih => exact ih (first.keeps hkeeps)

/-- An article that is new has no ticket. -/
theorem Tables.Linked.keeps_add (h : tables.Linked) (hroom : tables.articles.HasRoom)
    (article : Article) :
    Tables.Keeps { tables with articles := tables.articles.add article } tables.articles.next
      article.owner := by
  refine ⟨⟨_, tables.articles.records_add_next article, rfl⟩, ?_⟩
  intro i ticket hticket
  exact hroom.ne_next (h.named_issued i ticket hticket)

/-- Nor has an article whose deletion is cancelled. -/
theorem Tables.Linked.keeps_cancel (h : tables.Linked) {taskId : RecordId}
    {ticket : DeletionTicket} (hticket : tables.tickets.records taskId = some ticket)
    (hstored : tables.articles.records ticket.articleId = some article) :
    (tables.cancel taskId).Keeps ticket.articleId article.owner := by
  refine ⟨⟨article, hstored, rfl⟩, ?_⟩
  intro i other hother hname
  exact h.not_ticketed_cancel hticket ⟨i, other, hother, hname⟩

namespace App

variable {config : Config} {store : Store}

theorem Transition.keeps {call : Call} (h : Transition tables call tables')
    (hlinked : tables.Linked) (hkeeps : tables.Keeps a owner)
    (hother : ∀ ctx, call = .deliver ctx (.deleteArticle a) → ctx.mainSigner ≠ .ok owner) :
    tables'.Keeps a owner := by
  cases h with
  | idle => exact hkeeps
  | deliver delivered => exact delivered.keeps hlinked hkeeps fun same => hother _ (same ▸ rfl)
  | tick executed => exact executed.keeps hkeeps
  | fire executed => exact executed.keeps hkeeps

/-- An article that no ticket names stays through every run in which its owner does not delete
it. -/
theorem Stands.run_keeps (h : (ofConfig config).Stands store tables)
    (hkeeps : tables.Keeps a owner) (calls : List Call)
    (hother : ∀ ctx, .deliver ctx (.deleteArticle a) ∈ calls → ctx.mainSigner ≠ .ok owner) :
    ∃ article, (ofConfig config).collections.articles.get ((ofConfig config).run store calls) a =
      .ok (some article) := by
  induction calls generalizing store tables with
  | nil =>
    obtain ⟨⟨article, hstored, -⟩, -⟩ := hkeeps
    exact ⟨article, (h.get_article a).trans (congrArg Except.ok hstored)⟩
  | cons call rest ih =>
    obtain ⟨tables', transition, h'⟩ := h.step call
    have kept := transition.keeps h.linked hkeeps fun ctx same =>
      hother ctx (same ▸ List.mem_cons_self)
    exact ih h' kept fun ctx hctx => hother ctx (List.mem_cons_of_mem _ hctx)

/-- What a call removes, at a store that holds linked tables. -/
theorem Stands.removed (h : (ofConfig config).Stands store tables) {call : Call}
    (hstored : tables.articles.records a = some article)
    (hgone : ∀ found,
      (ofConfig config).collections.articles.get ((ofConfig config).step store call) a ≠
        .ok (some found)) :
    (∃ ctx answer, call = .deliver ctx (.deleteArticle a)
        ∧ ((ofConfig config).deliver ctx (.deleteArticle a) store).1 = .ok answer
        ∧ ctx.mainSigner = .ok article.owner)
      ∨ ∃ now id task, (call = .tick now ∨ call = .fire id now)
        ∧ tables.tasks.records id = some task ∧ task.payload = Deletions.payload a
        ∧ article.deleteAt = some task.runAt ∧ ¬ now < task.runAt := by
  have gone : ∀ {tables'}, (ofConfig config).Stands ((ofConfig config).step store call) tables' →
      tables'.articles.records a = none := by
    intro tables' h'
    cases hfound : tables'.articles.records a with
    | none => rfl
    | some found => exact absurd ((h'.get_article a).trans (congrArg Except.ok hfound)) (hgone found)
  -- a call that fails removes nothing
  have not_idle : (ofConfig config).step store call ≠ store := by
    intro same
    have absent := gone (same.symm ▸ h)
    rw [hstored] at absent
    cases absent
  cases call with
  | deliver ctx message =>
    rcases h.deliver ctx message with ⟨-, same⟩ | ⟨id, tables', hdone, delivered, h'⟩
    · exact absurd same not_idle
    · obtain ⟨rfl, signed⟩ := delivered.removed hstored (gone h')
      exact .inl ⟨ctx, some id, rfl, hdone, signed⟩
  | check ctx message => exact absurd rfl not_idle
  | tick now =>
    obtain ⟨ids, tables', executed, h'⟩ := h.tick now
    obtain ⟨id, task, spec⟩ := executed.removed h.linked hstored (gone h')
    exact .inr ⟨now, id, task, .inl rfl, spec⟩
  | fire taskId now =>
    obtain ⟨fired, tables', executed, h'⟩ := h.fire taskId now
    obtain ⟨task, spec⟩ := executed.removed h.linked hstored (gone h')
    exact .inr ⟨now, taskId, task, .inr rfl, spec⟩

/-- In every run, a call that removes an article is a deletion by its owner, or it runs the
article's task, which was queued for the deadline of the article, and the deadline has passed.
So an article whose deletion was cancelled, or that never had a deadline, stays until its owner
deletes it. -/
theorem removal_needs_authority (config : Config) (calls : List Call) :
    let app := ofConfig config
    let store := app.reached calls
    (∀ call a article, app.collections.articles.get store a = .ok (some article) →
      (∀ found, app.collections.articles.get (app.step store call) a ≠ .ok (some found)) →
      (∃ ctx answer, call = .deliver ctx (.deleteArticle a)
          ∧ (app.deliver ctx (.deleteArticle a) store).1 = .ok answer
          ∧ ctx.mainSigner = .ok article.owner)
        ∨ ∃ now taskId task, (call = .tick now ∨ call = .fire taskId now)
          ∧ Queue.get store taskId = .ok (some task)
          ∧ Message.codec.read task.payload = .ok (.deleteArticle a)
          ∧ article.deleteAt = some task.runAt ∧ task.runAt ≤ now)
    ∧ (∀ ctx taskId ticket article answer,
        app.collections.tickets.get store taskId = .ok (some ticket) →
        app.collections.articles.get store ticket.articleId = .ok (some article) →
        (app.deliver ctx (.cancelDeletion taskId) store).1 = .ok answer →
        ∀ later, (∀ ctx', .deliver ctx' (.deleteArticle ticket.articleId) ∈ later →
          ctx'.mainSigner ≠ .ok article.owner) →
        ∃ found, app.collections.articles.get
          (app.run (app.step store (.deliver ctx (.cancelDeletion taskId))) later)
          ticket.articleId = .ok (some found))
    ∧ (∀ ctx blogId title content a,
        (app.deliver ctx (.createArticle blogId title content none) store).1 = .ok (some a) →
        ∀ later, (∀ ctx', .deliver ctx' (.deleteArticle a) ∈ later →
          ctx'.mainSigner ≠ ctx.mainSigner) →
        ∃ found, app.collections.articles.get
          (app.run (app.step store (.deliver ctx (.createArticle blogId title content none)))
            later) a = .ok (some found)) := by
  intro app store
  obtain ⟨tables, stands⟩ := exists_stands config calls
  refine ⟨?_, ?_, ?_⟩
  · intro call a article harticle hgone
    rw [stands.get_article, Except.ok.injEq] at harticle
    rcases stands.removed harticle hgone with by_owner | ⟨now, id, task, hcall, spec⟩
    · exact .inl by_owner
    · obtain ⟨hqueued, hpayload, hdeadline, due⟩ := spec
      refine .inr ⟨now, id, task, hcall, ?_, ?_, hdeadline, Int64.not_lt.1 due⟩
      · rw [stands.get_task, hqueued]
      · rw [hpayload, Deletions.read_payload]
  · intro ctx taskId ticket article answer hticket harticle hcancelled later hother
    rw [stands.get_ticket, Except.ok.injEq] at hticket
    rw [stands.get_article, Except.ok.injEq] at harticle
    rcases stands.deliver ctx (.cancelDeletion taskId) with
      ⟨⟨error, hfailed⟩, -⟩ | ⟨id, tables', -, delivered, stands'⟩
    · rw [hfailed] at hcancelled
      cases hcancelled
    · refine stands'.run_keeps ?_ later hother
      -- the ticket that is cancelled is the only one for its article
      cases delivered
      exact stands.linked.keeps_cancel hticket harticle
  · intro ctx blogId title content a hcreated later hother
    rcases stands.deliver ctx (.createArticle blogId title content none) with
      ⟨⟨error, hfailed⟩, -⟩ | ⟨id, tables', hdone, delivered, stands'⟩
    · rw [hfailed] at hcreated
      cases hcreated
    · obtain rfl := Option.some.inj (Except.ok.inj (hdone.symm.trans hcreated))
      cases delivered with
      | createArticle found signed room =>
        rw [signed] at hother
        exact stands'.run_keeps (stands.linked.keeps_add room _) later hother

/-- The article of `posted` goes when its task is run, stays if its deletion is cancelled first,
and would stay if it had no deadline. -/
theorem removal_needs_authority_posted :
    let app := ofConfig {}
    let store := app.reached posted
    let cancel := Call.deliver ⟨⟨12⟩, [ada]⟩ (.cancelDeletion ⟨1⟩)
    let post := Call.deliver ⟨⟨12⟩, [ada]⟩ (.createArticle ⟨1⟩ "Gears" "Turning" none)
    (∃ task, Queue.get store ⟨1⟩ = .ok (some task) ∧ wheels.deleteAt = some task.runAt)
      ∧ (∃ found, app.collections.articles.get
          (app.run (app.step store cancel) [.tick ⟨30⟩, .fire ⟨1⟩ ⟨40⟩]) ⟨1⟩ = .ok (some found))
      ∧ ∃ found, app.collections.articles.get
          (app.run (app.step store post) [.tick ⟨30⟩, .fire ⟨2⟩ ⟨40⟩]) ⟨2⟩ = .ok (some found) := by
  intro app store cancel post
  refine ⟨?_, ?_, ?_⟩
  · have stored : app.collections.articles.get store ⟨1⟩ = .ok (some wheels) := by
      decide +kernel
    have gone : app.collections.articles.get (app.step store (.fire ⟨1⟩ ⟨20⟩)) ⟨1⟩ =
        .ok none := by
      decide +kernel
    have removed : ∀ found,
        app.collections.articles.get (app.step store (.fire ⟨1⟩ ⟨20⟩)) ⟨1⟩ ≠
          .ok (some found) := by
      intro found hfound
      rw [gone] at hfound
      cases hfound
    rcases (removal_needs_authority {} posted).1 (.fire ⟨1⟩ ⟨20⟩) ⟨1⟩ wheels stored removed with
      ⟨ctx, answer, hcall, -⟩ | ⟨now, taskId, task, hcall | hcall, queued, -, deadline, -⟩
    · cases hcall
    · cases hcall
    · cases hcall
      exact ⟨task, queued, deadline⟩
  · exact (removal_needs_authority {} posted).2.1 ⟨⟨12⟩, [ada]⟩ ⟨1⟩ ⟨some ⟨1⟩, ⟨1⟩, ada⟩ wheels
      (some ⟨1⟩) (by decide +kernel) (by decide +kernel) (by decide +kernel) _
      (fun ctx hctx => by simp at hctx)
  · exact (removal_needs_authority {} posted).2.2 ⟨⟨12⟩, [ada]⟩ ⟨1⟩ "Gears" "Turning" ⟨2⟩
      (by decide +kernel) _ (fun ctx hctx => by simp at hctx)

end App

end Gazette
