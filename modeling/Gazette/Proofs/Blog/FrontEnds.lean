import Gazette.Proofs.Blog.Run
import Gazette.Sample.Recorder

set_option autoImplicit false

/-! # Applications behind a front end of the queue

An application takes any scheduler that puts its tasks into the queue. A front end of the queue
does what the queue does, or it refuses and changes nothing (`Scheduler.FrontsQueue`). A request
fails if the front end refuses, and then nothing is left of it. So every call does what it does
without the front end, or nothing (`App.step_behind`), and what the calls keep without it they keep
behind it (`App.Stands.step_behind`).
-/

namespace Gazette

variable {ε ε' α β : Type}

/-! ## Steps that may refuse -/

namespace Tx

/-- The first step does what the second one does, or it fails and changes nothing. -/
def Fronts (step model : Tx ε α) : Prop :=
  ∀ store : Store, store.perform step = store.perform model ∨
    ∃ error, store.perform step = (.error error, store)

/-- Where the first step succeeds, the second one does the same. -/
def Follows (step model : Tx ε α) : Prop :=
  ∀ (store : Store) (a : α) (after : Store),
    store.perform step = (.ok a, after) → store.perform model = (.ok a, after)

theorem Fronts.refl (step : Tx ε α) : step.Fronts step := fun _ => .inl rfl

theorem Fronts.follows {step model : Tx ε α} (h : step.Fronts model) : step.Follows model := by
  intro store a after hrun
  rcases h store with same | ⟨error, failed⟩
  · exact same.symm.trans hrun
  · cases failed.symm.trans hrun

namespace Follows

variable {step model : Tx ε α}

theorem refl (step : Tx ε α) : step.Follows step := fun _ _ _ hrun => hrun

theorem bind {next next' : α → Tx ε β} (h : step.Follows model)
    (hnext : ∀ a, (next a).Follows (next' a)) : (step >>= next).Follows (model >>= next') := by
  intro store b last hrun
  obtain ⟨a, mid, first, second⟩ := Store.perform_bind_eq_ok.1 hrun
  exact Store.perform_bind_eq_ok.2 ⟨a, mid, h store a mid first, hnext a mid b last second⟩

theorem mapError (h : step.Follows model) (f : ε → ε') :
    (step.mapError f).Follows (model.mapError f) := by
  intro store a after hrun
  exact Store.perform_mapError_eq_ok.2 (h store a after (Store.perform_mapError_eq_ok.1 hrun))

/-- What a step did that failed is dropped with its overlay. -/
theorem transact (h : step.Follows model) (store : Store) (lift : StoreError → ε) :
    store.transact lift step = store.transact lift model ∨
      ∃ error, store.transact lift step = (.error error, store) := by
  unfold Store.transact
  cases hrun : store.stage.perform step with
  | mk outcome overlay =>
    cases outcome with
    | error error => exact .inr ⟨error, rfl⟩
    | ok a =>
      -- the second step leaves the same overlay, and the commit is that of the overlay
      rw [h _ a overlay hrun]
      exact .inl rfl

end Follows

end Tx

/-! ## Front ends -/

/-- The scheduler does what the queue does, or it refuses. -/
structure Scheduler.FrontsQueue (scheduler : Scheduler) : Prop where
  schedule : ∀ runAt payload,
    (scheduler.schedule runAt payload).Fronts (Queue.schedule runAt payload)
  cancel : ∀ id, (scheduler.cancel id).Fronts (Queue.cancel id)

theorem Queue.scheduler_fronts : Queue.scheduler.FrontsQueue where
  schedule _ _ := .refl _
  cancel _ := .refl _

theorem Recorder.withoutCancel_fronts : Recorder.withoutCancel.FrontsQueue where
  schedule _ _ := .refl _
  cancel _ _ := .inr ⟨_, rfl⟩

variable {c : Collections} {scheduler : Scheduler} {ctx : Context}

namespace Deletions

theorem schedule_follows (h : scheduler.FrontsQueue) (articleId : RecordId)
    (deleteAt : UnixTime) :
    (schedule ⟨scheduler, c⟩ ctx articleId deleteAt).Follows
      (schedule ⟨Queue.scheduler, c⟩ ctx articleId deleteAt) := by
  refine .bind (.refl _) fun _ => .bind (.refl _) fun owner => ?_
  exact .bind ((h.schedule deleteAt _).follows.mapError _) fun _ => .refl _

theorem cancel_follows (h : scheduler.FrontsQueue) (taskId : RecordId) :
    (cancel ⟨scheduler, c⟩ ctx taskId).Follows (cancel ⟨Queue.scheduler, c⟩ ctx taskId) := by
  refine .bind (.refl _) fun _ => ?_
  exact .bind ((h.cancel taskId).follows.mapError _) fun _ => .refl _

end Deletions

/-- Only posting an article and cancelling a deletion have to do with the scheduler. -/
theorem Router.mainHandler_follows (h : scheduler.FrontsQueue) (gas : GasSchedule)
    (kind : MessageKind) (message : Message) :
    ((mainHandler c ⟨scheduler, c⟩ gas kind).deliver ctx message).Follows
      ((mainHandler c ⟨Queue.scheduler, c⟩ gas kind).deliver ctx message) := by
  cases kind with
  | createArticle =>
    refine .bind (.refl _) fun article => .bind (.refl _) fun id => ?_
    cases article.deleteAt with
    | none => exact .refl _
    | some t => exact .bind (Deletions.schedule_follows h id t) fun _ => .refl _
  | cancelDeletion =>
    exact .bind (.refl _) fun taskId => .bind (Deletions.cancel_follows h taskId) fun _ => .refl _
  | _ => exact .refl _

/-! ## The application -/

namespace App

variable {app : App} {store : Store} {tables : Tables}

theorem router_follows (behind : app.scheduler.FrontsQueue) (message : Message) :
    (app.router.deliver ctx message).Follows
      ((ofConfig app.config).router.deliver ctx message) := by
  intro store answer after hrun
  -- both routers give a valid message to the handler of its kind
  obtain ⟨valid, hrun⟩ := router_deliver_eq_ok hrun
  have followed := Router.mainHandler_follows behind app.config.gas message.kind message
    store answer after hrun
  have routed : (ofConfig app.config).router.route message =
      .ok (Router.mainHandler app.collections ⟨Queue.scheduler, app.collections⟩ app.config.gas
        message.kind) := by
    have served := (ofConfig app.config).handler?_router message.kind
    simp only [Router.route, Message.path, served, valid]
    rfl
  exact Store.perform_read_bind_eq_ok.2 ⟨_, routed, followed⟩

/-- A call does what it does without the front end, or nothing. -/
theorem step_behind (behind : app.scheduler.FrontsQueue) (store : Store) (call : Call) :
    app.step store call = (ofConfig app.config).step store call ∨ app.step store call = store := by
  cases call with
  | deliver ctx message =>
    rcases (router_follows behind message).transact store .store with same | ⟨error, failed⟩
    · exact .inl (congrArg Prod.snd same)
    · exact .inr (congrArg Prod.snd failed)
  -- tasks are run from the queue itself
  | check | tick | fire => exact .inl rfl

theorem Stands.step_behind (h : app.Stands store tables) (behind : app.scheduler.FrontsQueue)
    (call : Call) :
    ∃ tables', Transition tables call tables' ∧ app.Stands (app.step store call) tables' := by
  have plain : (ofConfig app.config).Stands store tables := ⟨h.reliable, h.hold, h.linked⟩
  rcases app.step_behind behind store call with same | same
  · obtain ⟨tables', transition, h'⟩ := plain.step call
    rw [same]
    exact ⟨tables', transition, h'.reliable, h'.hold, h'.linked⟩
  · rw [same]
    exact ⟨tables, .idle call, h⟩

end App

end Gazette
