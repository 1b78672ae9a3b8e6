import Gazette.Proofs.Blog.Tables

set_option autoImplicit false

/-! # Scheduling and cancelling deletions

Scheduling the deletion of an article queues a task that carries the message to delete it, and
issues a ticket with the ID of the task. Cancelling takes both away. The message is read back
from the payload of the task, so the payload says which article is meant.
-/

namespace Gazette

/-! ## Payloads -/

namespace Deletions

theorem length_payload_lt (articleId : RecordId) :
    (payload articleId).length < UInt64.size := by
  show (Codec.word32.encode 4 ++ articleId.bytes).length < UInt64.size
  rw [List.length_append, articleId.length_bytes]
  decide

theorem read_payload (articleId : RecordId) :
    Message.codec.read (payload articleId) = .ok (.deleteArticle articleId) := by
  have number := Codec.readsBack_word32 4 (Codec.recordId.encode articleId)
  have fields := Codec.readsBack_recordId articleId []
  rw [List.append_nil] at fields
  refine map_eq_ok.2 ⟨(.deleteArticle articleId, []), ?_, rfl⟩
  refine bind_eq_ok.2 ⟨(4, Codec.recordId.encode articleId), number, ?_⟩
  show Message.fieldsOf Codec.recordId .deleteArticle (Codec.recordId.encode articleId) = _
  rw [Message.fieldsOf, fields]
  rfl

end Deletions

/-! ## Contexts -/

namespace Context

theorem requireOwner_eq_ok {ctx : Context} {owner signer : Address} {action : Action}
    (h : ctx.requireOwner owner action = .ok signer) :
    signer = owner ∧ ctx.mainSigner = .ok owner := by
  obtain ⟨main, hmain, hcheck⟩ := bind_eq_ok.1 h
  split at hcheck
  · rename_i same
    subst same
    exact ⟨(Except.ok.inj hcheck).symm, hmain⟩
  · cases hcheck

theorem requireAhead_eq_ok {ctx : Context} {t : UnixTime}
    (h : ctx.requireAhead t = .ok ()) : ¬ t ≤ ctx.blockTime := by
  unfold requireAhead at h
  split at h
  · cases h
  · rename_i ahead
    simpa [inThePast] using ahead

end Context

/-! ## Tables -/

namespace Tables

/-- The tables with the deletion of an article scheduled. -/
def schedule (tables : Tables) (articleId : RecordId) (owner : Address) (runAt : UnixTime) :
    Tables :=
  { tables with
    tasks := tables.tasks.add { id := none, runAt, payload := Deletions.payload articleId }
    tickets := tables.tickets.set tables.tasks.next
      { id := some tables.tasks.next, articleId, owner } }

/-- The tables without a task and its ticket. -/
def cancel (tables : Tables) (taskId : RecordId) : Tables :=
  { tables with
    tasks := tables.tasks.erase taskId
    tickets := tables.tickets.erase taskId }

end Tables

namespace Collections.Hold

variable {c : Collections} {store after : Store} {tables : Tables} {ctx : Context}

theorem task_eq (h : c.Hold store.contents tables) (hstore : store.Reliable) (id : RecordId) :
    Queue.get store id = .ok (tables.tasks.records id) :=
  Queue.get_eq (h .task).represents hstore id

theorem ticket_eq (h : c.Hold store.contents tables) (hstore : store.Reliable)
    {scheduler : Scheduler} (id : RecordId) :
    Deletions.ticket ⟨scheduler, c⟩ store id = .ok (tables.tickets.records id) :=
  mapError_eq_ok.2 ((h .ticket).get_eq hstore id)

theorem queue_schedule (h : c.Hold store.contents tables) (hstore : store.Reliable)
    {runAt : UnixTime} {payload : Bytes} {taskId : RecordId}
    (hpayload : payload.length < UInt64.size)
    (hrun : store.perform (Queue.schedule runAt payload) = (.ok taskId, after)) :
    taskId = tables.tasks.next ∧ tables.tasks.HasRoom ∧ after.Reliable
      ∧ c.Hold after.contents
          { tables with tasks := tables.tasks.add { id := none, runAt, payload } } := by
  obtain ⟨task, hput⟩ := Queue.schedule_eq_ok hrun
  exact h.put_new hstore .task (Task.storable hpayload) rfl hput

theorem queue_cancel (h : c.Hold store.contents tables) (hstore : store.Reliable)
    {taskId : RecordId} (hrun : store.perform (Queue.cancel taskId) = (.ok (), after)) :
    ∃ task, tables.tasks.records taskId = some task ∧ after.Reliable
      ∧ c.Hold after.contents { tables with tasks := tables.tasks.erase taskId } := by
  obtain ⟨after', hdelete, hafter, hold⟩ := h.delete_eq hstore .task taskId
  obtain ⟨present, rfl⟩ := Prod.mk.inj ((Queue.cancel_eq_ok hrun).symm.trans hdelete)
  obtain ⟨task, htask⟩ := Option.isSome_iff_exists.1 (Except.ok.inj present).symm
  exact ⟨task, htask, hafter, hold⟩

theorem schedule (h : c.Hold store.contents tables) (hstore : store.Reliable)
    {articleId taskId : RecordId} {runAt : UnixTime}
    (hrun : store.perform (Deletions.schedule ⟨Queue.scheduler, c⟩ ctx articleId runAt) =
      (.ok taskId, after)) :
    ∃ owner, ctx.mainSigner = .ok owner ∧ ¬ runAt ≤ ctx.blockTime ∧ tables.tasks.HasRoom
      ∧ after.Reliable ∧ c.Hold after.contents (tables.schedule articleId owner runAt) := by
  unfold Deletions.schedule at hrun
  obtain ⟨⟨⟩, hahead, hrun⟩ := Store.perform_read_bind_eq_ok.1 hrun
  obtain ⟨owner, hsigned, hrun⟩ := Store.perform_read_bind_eq_ok.1 hrun
  obtain ⟨task, queued, hqueue, hrun⟩ := Store.perform_bind_eq_ok.1 hrun
  obtain ⟨answer, ticketed, hticket, hrun⟩ := Store.perform_bind_eq_ok.1 hrun
  cases hrun
  rw [Store.perform_mapError_eq_ok] at hqueue hticket
  obtain ⟨rfl, room, hqueued, hold⟩ :=
    h.queue_schedule hstore (Deletions.length_payload_lt articleId) hqueue
  -- the ticket is put under the ID of the task, not under one of its own
  obtain ⟨-, hafter, hold'⟩ :=
    hold.put_own hqueued .ticket (DeletionTicket.storable _) rfl hticket
  exact ⟨owner, hsigned, Context.requireAhead_eq_ok hahead, room, hafter, hold'⟩

theorem cancel (h : c.Hold store.contents tables) (hstore : store.Reliable)
    {taskId : RecordId}
    (hrun : store.perform (Deletions.cancel ⟨Queue.scheduler, c⟩ ctx taskId) = (.ok (), after)) :
    ∃ ticket task, tables.tickets.records taskId = some ticket
      ∧ ctx.mainSigner = .ok ticket.owner ∧ tables.tasks.records taskId = some task
      ∧ after.Reliable ∧ c.Hold after.contents (tables.cancel taskId) := by
  unfold Deletions.cancel at hrun
  obtain ⟨ticket, hauthorize, hrun⟩ := Store.perform_read_bind_eq_ok.1 hrun
  obtain ⟨⟨⟩, dequeued, hqueue, hrun⟩ := Store.perform_bind_eq_ok.1 hrun
  obtain ⟨present, ticketless, hticket, hrun⟩ := Store.perform_bind_eq_ok.1 hrun
  cases hrun
  rw [Store.perform_mapError_eq_ok] at hqueue hticket
  obtain ⟨task, htask, hdequeued, hold⟩ := h.queue_cancel hstore hqueue
  -- whether the ticket was there when it is taken away is of no consequence
  obtain ⟨after', hdelete, hafter, hold'⟩ := hold.delete_eq hdequeued .ticket taskId
  have same : after = after' := congrArg Prod.snd (hticket.symm.trans hdelete)
  rw [same]
  obtain ⟨found, hfound, hauthorize⟩ := bind_eq_ok.1 hauthorize
  obtain ⟨signer, howner, hauthorize⟩ := bind_eq_ok.1 hauthorize
  cases hauthorize
  have hrecord := (h .ticket).records_of_one (mapError_eq_ok.1 hfound)
  exact ⟨ticket, task, hrecord, (Context.requireOwner_eq_ok howner).2, htask, hafter, hold'⟩

end Collections.Hold

end Gazette
