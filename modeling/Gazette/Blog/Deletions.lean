import Gazette.Blog.Collections
import Gazette.Blog.Context
import Gazette.Schedule.Queue

set_option autoImplicit false

/-! # Scheduled deletions

An article can be scheduled for deletion. The task in the queue carries the message that deletes
the article, and a ticket with the ID of the task lets the one who scheduled it cancel it.
Cancelling takes away the task and then the ticket; a task that runs leaves its ticket behind.
-/

namespace Gazette

/-- Schedules and cancels deletions of articles. -/
structure Deletions where
  scheduler : Scheduler
  collections : Collections

namespace Deletions

/-- The payload of a task that deletes an article. -/
def payload (articleId : RecordId) : Bytes := Message.codec.encode (.deleteArticle articleId)

/-- Schedule the deletion of an article on behalf of the main signer. -/
def schedule (deletions : Deletions) (ctx : Context) (articleId : RecordId)
    (deleteAt : UnixTime) : Tx BlogError RecordId := do
  Tx.read fun _ => ctx.requireAhead deleteAt
  let owner ← Tx.read fun _ => ctx.mainSigner
  let taskId ← Tx.mapError .schedule (deletions.scheduler.schedule deleteAt (payload articleId))
  let ticket : DeletionTicket := { id := some taskId, articleId, owner }
  let _ ← Tx.mapError .store (deletions.collections.tickets.put ticket)
  return taskId

/-- The ticket of a task, which must belong to the main signer. -/
def authorizeCancel (deletions : Deletions) (ctx : Context) (taskId : RecordId) (store : Store) :
    Except BlogError DeletionTicket := do
  let ticket ← (deletions.collections.tickets.one store taskId).mapError .store
  let _ ← ctx.requireOwner ticket.owner (.cancelDeletion taskId)
  .ok ticket

/-- Cancel a scheduled deletion. The ticket goes only once the task is gone, so a cancellation
that failed can be tried again. -/
def cancel (deletions : Deletions) (ctx : Context) (taskId : RecordId) : Tx BlogError Unit := do
  let _ ← Tx.read (deletions.authorizeCancel ctx taskId)
  Tx.mapError .schedule (deletions.scheduler.cancel taskId)
  let _ ← Tx.mapError .store (deletions.collections.tickets.delete taskId)

/-- The ticket of a task, if there is one. -/
def ticket (deletions : Deletions) (store : Store) (taskId : RecordId) :
    Except BlogError (Option DeletionTicket) :=
  (deletions.collections.tickets.get store taskId).mapError .store

/-- How the value is shown in diagnostics, its parts left out. -/
def debug (_ : Deletions) : String := "DeleteTaskCoordinator \x7b .. \x7d"

end Deletions

end Gazette
