import Gazette.Proofs.Blog.Linking
import Gazette.Proofs.Bucket.Erasure
import Gazette.Proofs.Schedule.Due

set_option autoImplicit false

/-! # What the queue does to the tables

As long as articles, tickets and tasks are linked, the payload of every queued task is a valid
message that deletes an article. Deleting never fails, so a task that is due always completes:
its article and the task are gone afterwards, and the ticket stays (`App.execute_eq`). To the byte,
nothing else in the store has changed (`App.execute_due`). A tick is a number of such executions
one after another (`App.tick_eq`).
-/

namespace Gazette

/-- Running a task at this time, with this outcome, leads from the one tables to the other. -/
inductive Executed (now : UnixTime) (tables : Tables) (id : RecordId) : Fired → Tables → Prop
  | missing (absent : tables.tasks.records id = none) : Executed now tables id .missing tables
  | notDue {task : Task} (queued : tables.tasks.records id = some task)
      (early : now < task.runAt) : Executed now tables id .notDue tables
  | completed {task : Task} {ticket : DeletionTicket}
      (queued : tables.tasks.records id = some task) (due : ¬ now < task.runAt)
      (held : tables.tickets.records id = some ticket)
      (named : task.payload = Deletions.payload ticket.articleId) :
      Executed now tables id .completed
        { tables with
          articles := tables.articles.erase ticket.articleId
          tasks := tables.tasks.erase id }

/-- Running these tasks one after another leads from the one tables to the other. -/
inductive ExecutedAll (now : UnixTime) : Tables → List RecordId → Tables → Prop
  | nil {tables : Tables} : ExecutedAll now tables [] tables
  | cons {tables mid last : Tables} {id : RecordId} {rest : List RecordId} {fired : Fired}
      (first : Executed now tables id fired mid) (later : ExecutedAll now mid rest last) :
      ExecutedAll now tables (id :: rest) last

theorem Executed.linked {now : UnixTime} {tables tables' : Tables} {id : RecordId} {fired : Fired}
    (h : tables.Linked) (hexecuted : Executed now tables id fired tables') : tables'.Linked := by
  cases hexecuted with
  | missing | notDue => exact h
  | completed queued due held named => exact Linked.complete h held

namespace App

/-- The store holds the tables, refuses nothing, and the tables are linked. -/
structure Stands (app : App) (store : Store) (tables : Tables) : Prop where
  reliable : store.Reliable
  hold : app.collections.Hold store.contents tables
  linked : tables.Linked

variable {app : App} {store : Store} {tables : Tables}

/-- A ticket names an article by an ID that is not zero. -/
theorem Stands.reference_ticket (h : app.Stands store tables) {id : RecordId}
    {ticket : DeletionTicket} (hticket : tables.tickets.records id = some ticket) :
    Field.reference ticket.articleId = .ok () := by
  have valid := ((h.hold .ticket).represents.sound id ticket hticket).valid
  exact ValidationErrors.result_ofChecks.1 valid _ (List.mem_cons_of_mem _ List.mem_cons_self)

/-- The key is one of those of a queued task, or of the article that its ticket names. -/
def TaskKey (app : App) (tables : Tables) (id : RecordId) (key : Bytes) : Prop :=
  Queue.bucket.HasKey tables.tasks.records id key ∨
    ∃ ticket, tables.tickets.records id = some ticket
      ∧ app.collections.articles.HasKey tables.articles.records ticket.articleId key

/-! ## One task -/

/-- The handler of the queue deletes the article that the payload names. -/
theorem runTask_of_delete {overlay after : Store} {articleId : RecordId} {found : Bool}
    (hreference : Field.reference articleId = .ok ()) {task : Task}
    (hpayload : task.payload = Deletions.payload articleId) (now : UnixTime)
    (hdelete : overlay.perform (app.collections.articles.delete articleId) =
      (.ok found, after)) :
    overlay.perform (app.runTask task now) = (.ok (), after) := by
  have readable : Message.codec.read task.payload = .ok (.deleteArticle articleId) := by
    rw [hpayload, Deletions.read_payload]
  have valid : (Message.deleteArticle articleId).validate = .ok () :=
    ValidationErrors.result_ofChecks.2 fun check hcheck => by
      rw [List.mem_singleton.1 hcheck]
      exact hreference
  have routed : app.taskRouter.route (.deleteArticle articleId) =
      .ok (Handler.deleteScheduledArticle app.collections) := by
    have served : app.taskRouter.handler? (Message.deleteArticle articleId).path =
        some (Handler.deleteScheduledArticle app.collections) :=
      (app.handler?_taskRouter _).trans (if_pos rfl)
    simp only [Router.route, served, valid]
  -- the payload is read, the handler is found, and the article is deleted
  unfold runTask
  refine Store.perform_read_bind_eq_ok.2 ⟨.deleteArticle articleId, by rw [readable]; rfl, ?_⟩
  refine Store.perform_bind_eq_ok.2
    ⟨some articleId, after, Store.perform_mapError_eq_ok.2 ?_, rfl⟩
  unfold Router.deliver
  refine Store.perform_read_bind_eq_ok.2 ⟨_, routed, ?_⟩
  refine Store.perform_read_bind_eq_ok.2 ⟨articleId, rfl, ?_⟩
  exact Store.perform_bind_eq_ok.2
    ⟨_, after, Store.perform_mapError_eq_ok.2 hdelete, rfl⟩

/-- A task that is due completes. Its keys and those of its article are empty afterwards, and
nothing else has changed. -/
theorem execute_due (h : app.Stands store tables) {id : RecordId} {task : Task}
    (hqueued : tables.tasks.records id = some task) {now : UnixTime}
    (hdue : ¬ now < task.runAt) :
    ∃ tables' after, app.executor.execute id now store = (.ok .completed, after)
      ∧ Executed now tables id .completed tables' ∧ app.Stands after tables'
      ∧ Contents.Emptied (app.TaskKey tables id) store.contents after.contents := by
  -- the ticket of the task says which article its payload is about
  obtain ⟨ticket, hticket, hpayload⟩ := h.linked.ticketed id task hqueued
  have hstage := Store.reliable_stage h.reliable
  have hold : app.collections.Hold store.stage.contents tables := h.hold
  obtain ⟨overlay, hdelete, hoverlay, hold'⟩ := hold.delete_eq hstage .article ticket.articleId
  obtain ⟨overlay', hremove, -, hold''⟩ := hold'.delete_eq hoverlay .task id
  have hhandler : store.stage.perform (app.executor.handler task now) = (.ok (), overlay) :=
    runTask_of_delete (h.reference_ticket hticket) hpayload now hdelete
  obtain ⟨after, hrun, hcontents, hafter⟩ :=
    Executor.run_completed h.reliable hhandler hremove
  refine ⟨_, after, ?_, .completed hqueued hdue hticket hpayload,
    ⟨hafter, hcontents ▸ hold'', Linked.complete h.linked hticket⟩, ?_⟩
  · have hget : Queue.get store id = .ok (some task) :=
      hqueued ▸ h.hold.task_eq h.reliable id
    exact (Executor.execute_due hget hdue).trans hrun
  · have article_gone := (hold .article).represents.delete_empties hstage ticket.articleId
    have task_gone := (hold' .task).represents.delete_empties hoverlay id
    rw [hdelete] at article_gone
    rw [hremove, ← hcontents] at task_gone
    refine (article_gone.trans task_gone).congr fun key => or_comm.trans (or_congr_right ?_)
    constructor
    · exact fun hkey => ⟨ticket, hticket, hkey⟩
    · rintro ⟨other, hother, hkey⟩
      rwa [Option.some.inj (hticket.symm.trans hother)]

/-- Running a task never fails. -/
theorem execute_eq (h : app.Stands store tables) (id : RecordId) (now : UnixTime) :
    ∃ fired tables' after, app.executor.execute id now store = (.ok fired, after)
      ∧ Executed now tables id fired tables' ∧ app.Stands after tables' := by
  rcases Executor.execute_settled (h.hold .task).represents h.reliable id now with
    ⟨hqueued, missing⟩ | ⟨task, hqueued, early, waits⟩ | ⟨task, hqueued, due, -⟩
  · exact ⟨.missing, tables, store, missing _, .missing hqueued, h⟩
  · exact ⟨.notDue, tables, store, waits _, .notDue hqueued early, h⟩
  · obtain ⟨tables', after, hrun, executed, h', -⟩ := execute_due h hqueued due
    exact ⟨.completed, tables', after, hrun, executed, h'⟩

theorem fire_eq (h : app.Stands store tables) (id : RecordId) (now : UnixTime) :
    ∃ fired tables' after, app.fire id now store = (.ok fired, after)
      ∧ Executed now tables id fired tables' ∧ app.Stands after tables' := by
  obtain ⟨fired, tables', after, hrun, executed, h'⟩ := execute_eq h id now
  refine ⟨fired, tables', after, ?_, executed, h'⟩
  simp only [fire, hrun]
  rfl

/-! ## Several tasks -/

/-- What is to be emptied for a task is the same before and after another one is run, but for
what is emptied for that one. -/
theorem taskKey_iff_of_completed (app : App) {now : UnixTime} {tables' : Tables} {id j : RecordId}
    (executed : Executed now tables id .completed tables') (hj : j ≠ id) (key : Bytes) :
    app.TaskKey tables id key ∨ app.TaskKey tables' j key ↔
      app.TaskKey tables id key ∨ app.TaskKey tables j key := by
  cases executed with
  | @completed task ticket queued due held named =>
    have same_task : Queue.bucket.HasKey (tables.tasks.erase id).records j key ↔
        Queue.bucket.HasKey tables.tasks.records j key := by
      rw [Bucket.HasKey, Table.records_erase, if_neg hj]
      rfl
    -- the other task may be about the same article, which is emptied for the first one then
    have same_article : ∀ articleId, articleId ≠ ticket.articleId →
        (app.collections.articles.HasKey (tables.articles.erase ticket.articleId).records articleId
            key ↔ app.collections.articles.HasKey tables.articles.records articleId key) := by
      intro articleId different
      rw [Bucket.HasKey, Table.records_erase, if_neg different]
      rfl
    constructor
    · rintro (first | hkey | ⟨other, hother, hkey⟩)
      · exact .inl first
      · exact .inr (.inl (same_task.1 hkey))
      · by_cases same : other.articleId = ticket.articleId
        · obtain ⟨article, harticle, -⟩ := hkey
          rw [Table.records_erase, if_pos same] at harticle
          cases harticle
        · exact .inr (.inr ⟨other, hother, (same_article _ same).1 hkey⟩)
    · rintro (first | hkey | ⟨other, hother, hkey⟩)
      · exact .inl first
      · exact .inr (.inl (same_task.2 hkey))
      · by_cases same : other.articleId = ticket.articleId
        · exact .inl (.inr ⟨ticket, held, same ▸ hkey⟩)
        · exact .inr (.inr ⟨other, hother, (same_article _ same).2 hkey⟩)

/-- Tasks that are due complete one after another. -/
theorem executeAll_due (h : app.Stands store tables) {ids : List RecordId} (nodup : ids.Nodup)
    {now : UnixTime}
    (hdue : ∀ id ∈ ids, ∃ task, tables.tasks.records id = some task ∧ ¬ now < task.runAt) :
    ∃ tables' after, (∀ report, app.executor.executeAll now ids report store =
        (.ok { report with completed := report.completed ++ ids }, after))
      ∧ ExecutedAll now tables ids tables' ∧ app.Stands after tables'
      ∧ (∀ i, tables'.tasks.records i = if i ∈ ids then none else tables.tasks.records i)
      ∧ Contents.Emptied (fun key => ∃ id ∈ ids, app.TaskKey tables id key) store.contents
          after.contents := by
  induction ids generalizing store tables with
  | nil =>
    refine ⟨tables, store, fun report => by rw [List.append_nil]; rfl, .nil, h, fun _ => rfl, ?_⟩
    exact (Contents.Emptied.refl _).congr fun key => by simp
  | cons id rest ih =>
    obtain ⟨fresh, nodup⟩ := List.nodup_cons.1 nodup
    obtain ⟨task, hqueued, due⟩ := hdue id List.mem_cons_self
    obtain ⟨mid, store', hfirst, executed, h', emptied⟩ := execute_due h hqueued due
    have left : ∀ i, mid.tasks.records i = if i = id then none else tables.tasks.records i := by
      cases executed
      exact fun i => Table.records_erase ..
    have other : ∀ i ∈ rest, i ≠ id := fun i hi same => fresh (same ▸ hi)
    obtain ⟨tables', after, hlater, executedAll, h'', left', emptied'⟩ :=
      ih h' nodup (fun i hi => by
        rw [left, if_neg (other i hi)]
        exact hdue i (List.mem_cons_of_mem _ hi))
    refine ⟨tables', after, fun report => ?_, .cons executed executedAll, h'', fun i => ?_, ?_⟩
    · rw [Executor.executeAll, hfirst]
      refine (hlater (report.add id .completed)).trans ?_
      rw [TickReport.add, List.append_assoc]
      rfl
    · rw [left', left]
      by_cases first : i = id
      · subst first
        rw [if_pos rfl, ite_self, if_pos List.mem_cons_self]
      · simp only [first, List.mem_cons, false_or, if_false]
    · refine (emptied.trans emptied').congr fun key => ?_
      have same := fun i hi => taskKey_iff_of_completed app executed (other i hi) key
      rw [List.exists_mem_cons_iff]
      constructor
      · rintro (first | ⟨i, hi, hkey⟩)
        · exact .inl first
        · exact ((same i hi).1 (.inr hkey)).imp_right fun hkey => ⟨i, hi, hkey⟩
      · rintro (first | ⟨i, hi, hkey⟩)
        · exact .inl first
        · exact ((same i hi).2 (.inr hkey)).imp_right fun hkey => ⟨i, hi, hkey⟩

theorem Stands.exists_due (h : app.Stands store tables) (now : UnixTime) :
    ∃ due, Queue.RunBefore tables.tasks (now.addSeconds 1) due
      ∧ Queue.due store now = .ok due := by
  obtain ⟨due, hbefore, hdue, -⟩ := Queue.exists_due (h.hold .task) h.reliable now
  exact ⟨due, hbefore, hdue⟩

/-- A tick runs the first tasks that are due, as many as the limit allows, and all of them
complete. -/
theorem tick_eq (h : app.Stands store tables) {now : UnixTime} {due : List RecordId}
    (hdue : Queue.RunBefore tables.tasks (now.addSeconds 1) due) :
    ∃ tables' after, app.tick now store =
        (.ok { completed := due.take app.executor.limit
               hasMore := app.executor.limit < due.length }, after)
      ∧ (∀ report, app.executor.executeAll now (due.take app.executor.limit) report store =
          (.ok { report with
            completed := report.completed ++ due.take app.executor.limit }, after))
      ∧ ExecutedAll now tables (due.take app.executor.limit) tables'
      ∧ app.Stands after tables'
      ∧ ∀ i, tables'.tasks.records i =
          if i ∈ due.take app.executor.limit then none else tables.tasks.records i := by
  obtain ⟨found, hfound, -, hfirst⟩ := Queue.exists_due (h.hold .task) h.reliable now
  obtain rfl := hdue.unique hfound
  have first_due : ∀ id ∈ due.take app.executor.limit,
      ∃ task, tables.tasks.records id = some task ∧ ¬ now < task.runAt := fun id hid => by
    obtain ⟨task, htask, less⟩ := (hdue.mem_iff id).1 (List.mem_of_mem_take hid)
    exact ⟨task, htask, Int64.not_lt.2 (UnixTime.le_of_lt_addSeconds_one less)⟩
  obtain ⟨tables', after, hrun, executed, h', left, -⟩ :=
    executeAll_due h (hdue.nodup.sublist (List.take_sublist ..)) first_due
  refine ⟨tables', after, ?_, hrun, executed, h', left⟩
  have more : app.executor.limit < (due.take (app.executor.limit + 1)).length ↔
      app.executor.limit < due.length := by
    rw [List.length_take]
    omega
  simp only [tick, Executor.tick, hfirst, List.take_take, Nat.min_eq_left (Nat.le_succ _), hrun,
    more]
  rfl

end App

end Gazette
