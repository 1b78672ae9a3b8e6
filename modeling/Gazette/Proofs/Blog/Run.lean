import Gazette.Proofs.Blog.Execution
import Gazette.Proofs.Schedule.Log

set_option autoImplicit false

/-! # Runs of the application

A run is a list of calls, each made on the store that the one before has left, the first on an
empty store. Whatever the calls are, the store at the end holds linked tables
(`App.exists_stands`): every queued task has a ticket for the article that its payload names, no
article has two tickets, and the deadline of an article that has a ticket is that of a queued
task (`App.deletions_linked`).
-/

namespace Gazette.App

/-- A call that the application serves. -/
inductive Call where
  | deliver (ctx : Context) (message : Message)
  | check (ctx : Context) (message : Message)
  | tick (now : UnixTime)
  | fire (taskId : RecordId) (now : UnixTime)
  deriving DecidableEq, Repr

/-- The store after a call. A check has none to give. -/
def step (app : App) (store : Store) : Call → Store
  | .deliver ctx message => (app.deliver ctx message store).2
  | .check _ _ => store
  | .tick now => (app.tick now store).2
  | .fire taskId now => (app.fire taskId now store).2

/-- The store after some calls. -/
def run (app : App) (store : Store) (calls : List Call) : Store := calls.foldl app.step store

/-- The store that some calls lead to from the empty store. -/
def reached (app : App) (calls : List Call) : Store := app.run .memory calls

theorem reached_concat (app : App) (calls : List Call) (call : Call) :
    app.reached (calls ++ [call]) = app.step (app.reached calls) call :=
  List.foldl_append ..

/-- What a call may make of the tables. -/
inductive Transition (tables : Tables) : Call → Tables → Prop
  | idle (call : Call) : Transition tables call tables
  | deliver {ctx : Context} {message : Message} {id : RecordId} {tables' : Tables}
      (delivered : Delivered ctx tables message id tables') :
      Transition tables (.deliver ctx message) tables'
  | tick {now : UnixTime} {ids : List RecordId} {tables' : Tables}
      (executed : ExecutedAll now tables ids tables') : Transition tables (.tick now) tables'
  | fire {id : RecordId} {now : UnixTime} {fired : Fired} {tables' : Tables}
      (executed : Executed now tables id fired tables') : Transition tables (.fire id now) tables'

/-! ## One call, all calls -/

variable {config : Config} {store : Store} {tables : Tables}

theorem stands_memory (app : App) : app.Stands .memory .empty where
  reliable := Store.reliable_memory .empty
  hold := Collections.hold_empty app.collections
  linked := Tables.linked_empty

/-- A delivery fails and changes nothing, or does what the message says. -/
theorem Stands.deliver (h : (ofConfig config).Stands store tables) (ctx : Context)
    (message : Message) :
    ((∃ error, ((ofConfig config).deliver ctx message store).1 = .error error)
        ∧ (ofConfig config).step store (.deliver ctx message) = store) ∨
      ∃ id tables', ((ofConfig config).deliver ctx message store).1 = .ok (some id)
        ∧ Delivered ctx tables message id tables'
        ∧ (ofConfig config).Stands ((ofConfig config).step store (.deliver ctx message))
            tables' := by
  rcases deliver_cases h.reliable h.hold ctx message with
    ⟨error, hdeliver⟩ | ⟨id, tables', after, hdeliver, hafter, hold, delivered⟩
  · exact .inl ⟨⟨error, congrArg Prod.fst hdeliver⟩, congrArg Prod.snd hdeliver⟩
  · have after_eq : (ofConfig config).step store (.deliver ctx message) = after :=
      congrArg Prod.snd hdeliver
    rw [after_eq]
    exact .inr ⟨id, tables', congrArg Prod.fst hdeliver, delivered, hafter, hold,
      delivered.linked h.linked⟩

/-- A tick runs some tasks. -/
theorem Stands.tick {app : App} (h : app.Stands store tables) (now : UnixTime) :
    ∃ ids tables', ExecutedAll now tables ids tables'
      ∧ app.Stands (app.step store (.tick now)) tables' := by
  obtain ⟨due, hdue, -⟩ := h.exists_due now
  obtain ⟨tables', after, htick, -, executed, h', -⟩ := tick_eq h hdue
  have after_eq : app.step store (.tick now) = after := congrArg Prod.snd htick
  exact ⟨_, tables', executed, after_eq.symm ▸ h'⟩

theorem Stands.fire {app : App} (h : app.Stands store tables) (id : RecordId)
    (now : UnixTime) :
    ∃ fired tables', Executed now tables id fired tables'
      ∧ app.Stands (app.step store (.fire id now)) tables' := by
  obtain ⟨fired, tables', after, hfire, executed, h'⟩ := fire_eq h id now
  have after_eq : app.step store (.fire id now) = after := congrArg Prod.snd hfire
  exact ⟨fired, tables', executed, after_eq.symm ▸ h'⟩

theorem Stands.step (h : (ofConfig config).Stands store tables) (call : Call) :
    ∃ tables', Transition tables call tables'
      ∧ (ofConfig config).Stands ((ofConfig config).step store call) tables' := by
  cases call with
  | deliver ctx message =>
    rcases h.deliver ctx message with ⟨-, same⟩ | ⟨id, tables', -, delivered, h'⟩
    · exact ⟨tables, .idle _, same.symm ▸ h⟩
    · exact ⟨tables', .deliver delivered, h'⟩
  | check ctx message => exact ⟨tables, .idle _, h⟩
  | tick now =>
    obtain ⟨ids, tables', executed, h'⟩ := h.tick now
    exact ⟨tables', .tick executed, h'⟩
  | fire taskId now =>
    obtain ⟨fired, tables', executed, h'⟩ := h.fire taskId now
    exact ⟨tables', .fire executed, h'⟩

theorem Stands.run (h : (ofConfig config).Stands store tables) (calls : List Call) :
    ∃ tables', (ofConfig config).Stands ((ofConfig config).run store calls) tables' := by
  induction calls generalizing store tables with
  | nil => exact ⟨tables, h⟩
  | cons call rest ih =>
    obtain ⟨tables', -, h'⟩ := h.step call
    exact ih h'

/-- Every run ends with a store that holds linked tables. -/
theorem exists_stands (config : Config) (calls : List Call) :
    ∃ tables, (ofConfig config).Stands ((ofConfig config).reached calls) tables :=
  (stands_memory _).run calls

/-! ## Reading the tables -/

theorem Stands.get_article {app : App} (h : app.Stands store tables) (id : RecordId) :
    app.collections.articles.get store id = .ok (tables.articles.records id) :=
  (h.hold .article).get_eq h.reliable id

theorem Stands.get_ticket {app : App} (h : app.Stands store tables) (id : RecordId) :
    app.collections.tickets.get store id = .ok (tables.tickets.records id) :=
  (h.hold .ticket).get_eq h.reliable id

theorem Stands.get_task {app : App} (h : app.Stands store tables) (id : RecordId) :
    Queue.get store id = .ok (tables.tasks.records id) :=
  h.hold.task_eq h.reliable id

/-! ## Scheduled deletions -/

/-- After every run the queue, the tickets and the articles can be read and are linked. -/
theorem deletions_linked (config : Config) (calls : List Call) :
    let app := ofConfig config
    let store := app.reached calls
    (∀ id, (∃ task, Queue.get store id = .ok task)
      ∧ (∃ ticket, app.collections.tickets.get store id = .ok ticket)
      ∧ ∃ article, app.collections.articles.get store id = .ok article)
    ∧ (∀ id task, Queue.get store id = .ok (some task) →
        ∃ ticket, app.collections.tickets.get store id = .ok (some ticket)
          ∧ Message.codec.read task.payload = .ok (.deleteArticle ticket.articleId))
    ∧ (∀ i j s t, app.collections.tickets.get store i = .ok (some s) →
        app.collections.tickets.get store j = .ok (some t) → s.articleId = t.articleId → i = j)
    ∧ (∀ i j task task' articleId, Queue.get store i = .ok (some task) →
        Queue.get store j = .ok (some task') →
        Message.codec.read task.payload = .ok (.deleteArticle articleId) →
        Message.codec.read task'.payload = .ok (.deleteArticle articleId) → i = j)
    ∧ (∀ id ticket article, app.collections.tickets.get store id = .ok (some ticket) →
        app.collections.articles.get store ticket.articleId = .ok (some article) →
        ∃ task, Queue.get store id = .ok (some task) ∧ article.deleteAt = some task.runAt
          ∧ article.owner = ticket.owner) := by
  intro app store
  obtain ⟨tables, stands⟩ := exists_stands config calls
  have linked := stands.linked
  have ticketed : ∀ id task, tables.tasks.records id = some task →
      ∃ ticket, tables.tickets.records id = some ticket
        ∧ Message.codec.read task.payload = .ok (.deleteArticle ticket.articleId) := by
    intro id task htask
    obtain ⟨ticket, hticket, hpayload⟩ := linked.ticketed id task htask
    exact ⟨ticket, hticket, by rw [hpayload, Deletions.read_payload]⟩
  -- what is read from the store is what the tables say
  simp only [app, store, stands.get_task, stands.get_ticket, stands.get_article,
    Except.ok.injEq]
  refine ⟨fun id => ⟨⟨_, rfl⟩, ⟨_, rfl⟩, ⟨_, rfl⟩⟩, ticketed, linked.distinct, ?_, linked.live⟩
  intro i j task task' articleId htask htask' hread hread'
  -- the payloads name the articles of the tickets, and no two tickets are for one article
  obtain ⟨s, hs, hname⟩ := ticketed i task htask
  obtain ⟨t, ht, hname'⟩ := ticketed j task' htask'
  rw [hread, Except.ok.injEq, Message.deleteArticle.injEq] at hname
  rw [hread', Except.ok.injEq, Message.deleteArticle.injEq] at hname'
  exact linked.distinct i j s t hs ht (hname.symm.trans hname')

/-! ## A run, for example -/

/-- Someone who opens a blog. -/
def ada : Address := ⟨List.replicate 20 1, rfl⟩

/-- A blog is opened, and an article with a deadline is posted to it. -/
def posted : List Call :=
  [.deliver ⟨⟨10⟩, [ada]⟩ (.createBlog "Engines" "Machines"),
   .deliver ⟨⟨11⟩, [ada]⟩ (.createArticle ⟨1⟩ "Wheels" "Rolling" (some ⟨20⟩))]

/-- The article as it is posted. -/
def wheels : Article where
  id := some ⟨1⟩
  blogId := ⟨1⟩
  owner := ada
  title := "Wheels"
  content := "Rolling"
  commentCount := 0
  likeCount := 0
  createdAt := ⟨11⟩
  deleteAt := some ⟨20⟩

theorem deletions_linked_posted :
    let app := ofConfig {}
    let store := app.reached posted
    app.collections.tickets.get store ⟨1⟩ = .ok (some ⟨some ⟨1⟩, ⟨1⟩, ada⟩)
      ∧ app.collections.articles.get store ⟨1⟩ = .ok (some wheels)
      ∧ ∃ task, Queue.get store ⟨1⟩ = .ok (some task) ∧ wheels.deleteAt = some task.runAt
        ∧ wheels.owner = ada :=
  ⟨by decide +kernel, by decide +kernel,
    (deletions_linked {} posted).2.2.2.2 ⟨1⟩ ⟨some ⟨1⟩, ⟨1⟩, ada⟩ wheels
      (by decide +kernel) (by decide +kernel)⟩

end Gazette.App
