import Gazette.Proofs.Blog.Agreement
import Gazette.Proofs.Bucket.Query

set_option autoImplicit false

/-! # The application never corrupts itself

A fatal error means that stored bytes are damaged, that a record cannot be written, or that the
device has failed. On a store that holds the tables no request and no query ends in one
(`App.Stands.deliver_harmless`, `App.Stands.answers`): records are read back as they were put,
and no entry is left without its record. Nor does a task fail: a tick completes every task that it
runs. Every run leads to such a store (`App.never_corrupts`).
-/

namespace Gazette

/-! ## Reading and saving -/

theorem Bucket.Holds.one_harmless {ρ : Type} [Record ρ] {bucket : Bucket ρ} {store : Store}
    {table : Table ρ} (h : bucket.Holds store.contents table) (hstore : store.Reliable)
    (id : RecordId) : Harmless StoreError.isFatal (bucket.one store id) := by
  refine (Harmless.of_eq_ok (h.get_eq hstore id)).bind fun found _ => ?_
  cases found with
  | none => exact .error rfl
  | some record => exact .ok record

namespace Context

variable {ctx : Context}

theorem mainSigner_harmless : Harmless BlogError.isFatal ctx.mainSigner := by
  unfold mainSigner
  split
  · exact .ok _
  · exact .error rfl

theorem requireOwner_harmless (owner : Address) (action : Action) :
    Harmless BlogError.isFatal (ctx.requireOwner owner action) := by
  refine mainSigner_harmless.bind fun signer _ => ?_
  split
  · exact .ok _
  · exact .error rfl

theorem requireAhead_harmless (t : UnixTime) :
    Harmless BlogError.isFatal (ctx.requireAhead t) := by
  unfold requireAhead
  split
  · exact .error rfl
  · exact .ok _

end Context

variable {c : Collections} {gas : GasSchedule} {ctx : Context} {store : Store} {tables : Tables}

namespace Handler

theorem find_harmless (h : c.Hold store.contents tables) (hstore : store.Reliable)
    (kind : RecordKind) (id : RecordId) :
    Harmless BlogError.isFatal (find (c.bucketOf kind) store id) :=
  Harmless.mapError (fun _ harmless => harmless) ((h kind).one_harmless hstore id)

theorem save_harmless (h : c.Hold store.contents tables) (hstore : store.Reliable)
    (kind : RecordKind) (record : kind.type) :
    Harmless BlogError.isFatal (store.perform (save (c.bucketOf kind) record)).1 :=
  Harmless.perform_map (Harmless.perform_mapError (f := BlogError.store) (fun _ harmless => harmless)
    ((h kind).put_harmless hstore record)) Prod.fst

theorem delete_harmless (h : c.Hold store.contents tables) (hstore : store.Reliable)
    (kind : RecordKind) (id : RecordId) :
    Harmless BlogError.isFatal
      (store.perform (Tx.mapError BlogError.store ((c.bucketOf kind).delete id))).1 := by
  obtain ⟨after, hdelete, -⟩ := h.delete_eq hstore kind id
  exact .of_eq_ok (congrArg Prod.fst (Store.perform_mapError_eq_ok.2 hdelete))

/-- The article is put on the store that the new record leaves. -/
theorem save_counted_harmless (h : c.Hold store.contents tables) (hstore : store.Reliable)
    (kind : RecordKind) {record : kind.type} (hstorable : Record.Storable record)
    (hnew : Record.id record = none) (counted : Article) :
    Harmless BlogError.isFatal (store.perform (do
      let id ← save (c.bucketOf kind) record
      let _ ← save c.articles counted
      return some id)).1 := by
  refine .perform_bind (save_harmless h hstore kind record) fun id mid hsave => ?_
  obtain ⟨-, -, hmid, hold⟩ := save_new h hstore kind hsave hstorable hnew
  exact .perform_bind (save_harmless hold hmid .article counted) fun _ _ _ => .ok _

end Handler

/-! ## Scheduling -/

namespace Collections.Hold

theorem queue_schedule_harmless (h : c.Hold store.contents tables) (hstore : store.Reliable)
    (runAt : UnixTime) (payload : Bytes) :
    Harmless ScheduleError.isFatal (store.perform (Queue.schedule runAt payload)).1 := by
  unfold Queue.schedule
  split
  · exact .perform_bind (.error rfl) fun _ _ failed => by cases failed
  · exact .perform_bind (.perform_mapError (fun _ harmless => harmless)
      ((h .task).put_harmless hstore _)) fun _ _ _ => .ok _

theorem schedule_harmless (h : c.Hold store.contents tables) (hstore : store.Reliable)
    (articleId : RecordId) (runAt : UnixTime) :
    Harmless BlogError.isFatal
      (store.perform (Deletions.schedule ⟨Queue.scheduler, c⟩ ctx articleId runAt)).1 := by
  unfold Deletions.schedule
  refine .perform_read_bind (Context.requireAhead_harmless runAt) fun _ _ => ?_
  refine .perform_read_bind Context.mainSigner_harmless fun owner _ => ?_
  refine .perform_bind (.perform_mapError (fun _ harmless => harmless)
    (h.queue_schedule_harmless hstore runAt _)) fun taskId queued hqueue => ?_
  rw [Store.perform_mapError_eq_ok] at hqueue
  obtain ⟨-, -, hqueued, hold⟩ :=
    h.queue_schedule hstore (Deletions.length_payload_lt articleId) hqueue
  exact .perform_bind (.perform_mapError (fun _ harmless => harmless)
    ((hold .ticket).put_harmless hqueued _)) fun _ _ _ => .ok _

theorem authorizeCancel_harmless (h : c.Hold store.contents tables) (hstore : store.Reliable)
    (taskId : RecordId) :
    Harmless BlogError.isFatal
      (Deletions.authorizeCancel ⟨Queue.scheduler, c⟩ ctx taskId store) := by
  refine Harmless.bind (Harmless.mapError (fun _ harmless => harmless)
    ((h .ticket).one_harmless hstore taskId)) fun ticket _ => ?_
  exact (Context.requireOwner_harmless _ _).bind fun _ _ => .ok _

theorem queue_cancel_harmless (h : c.Hold store.contents tables) (hstore : store.Reliable)
    (taskId : RecordId) :
    Harmless ScheduleError.isFatal (store.perform (Queue.cancel taskId)).1 := by
  rcases Queue.cancel_cases (h .task) hstore taskId with
    ⟨-, hcancel⟩ | ⟨task, after, -, hcancel, -⟩
  · rw [hcancel]
    exact .error rfl
  · rw [hcancel]
    exact .ok ()

theorem cancel_harmless (h : c.Hold store.contents tables) (hstore : store.Reliable)
    (taskId : RecordId) :
    Harmless BlogError.isFatal
      (store.perform (Deletions.cancel ⟨Queue.scheduler, c⟩ ctx taskId)).1 := by
  unfold Deletions.cancel
  refine .perform_read_bind (h.authorizeCancel_harmless hstore taskId) fun _ _ => ?_
  refine .perform_bind (.perform_mapError (fun _ harmless => harmless)
    (h.queue_cancel_harmless hstore taskId)) fun _ dequeued hqueue => ?_
  rw [Store.perform_mapError_eq_ok] at hqueue
  obtain ⟨task, -, hdequeued, hold⟩ := h.queue_cancel hstore hqueue
  exact .perform_bind (Handler.delete_harmless hold hdequeued .ticket taskId) fun _ _ _ => .ok _

end Collections.Hold

/-! ## Requests -/

namespace Router

/-- No handler ends in a fatal error. -/
theorem mainHandler_harmless (h : c.Hold store.contents tables) (hstore : store.Reliable)
    (ctx : Context) (message : Message) :
    Harmless BlogError.isFatal (store.perform ((mainHandler c ⟨Queue.scheduler, c⟩ gas
      message.kind).deliver ctx message)).1 := by
  have find := fun kind id => Handler.find_harmless h hstore kind id
  have save := fun kind record => Handler.save_harmless h hstore kind record
  cases message with
  | createUser username bio =>
    exact .perform_read_bind (.ok _) fun user _ => .perform_map (save .user user) _
  | createBlog title description =>
    refine .perform_read_bind (Context.mainSigner_harmless.bind fun _ _ => .ok _) fun blog _ => ?_
    exact .perform_map (save .blog blog) _
  | changeBlogOwner blogId newOwner =>
    refine .perform_read_bind ((find .blog blogId).bind fun blog _ =>
      (Context.requireOwner_harmless _ _).bind fun _ _ => .ok _) fun blog _ => ?_
    exact .perform_map (save .blog blog) _
  | createArticle blogId title content deleteAt =>
    have prepared : Harmless BlogError.isFatal (Handler.newArticle c ctx
        (.createArticle blogId title content deleteAt) store) := by
      refine (find .blog blogId).bind fun blog _ =>
        (Context.requireOwner_harmless _ _).bind fun owner _ => ?_
      cases deleteAt with
      | none => exact .ok _
      | some t => exact (Context.requireAhead_harmless t).bind fun _ _ => .ok _
    refine .perform_read_bind prepared fun article harticle => ?_
    obtain ⟨blog, -, -, rfl⟩ := Handler.newArticle_eq_ok h harticle
    refine .perform_bind (save .article _) fun id saved hsave => ?_
    obtain ⟨-, -, hsaved, hold⟩ :=
      Handler.save_new h hstore .article hsave (Article.storable _) rfl
    cases deleteAt with
    | none => exact .ok _
    | some t => exact .perform_bind (hold.schedule_harmless hsaved id t) fun _ _ _ => .ok _
  | deleteArticle articleId =>
    refine .perform_read_bind ((find .article articleId).bind fun article _ =>
      (Context.requireOwner_harmless _ _).bind fun _ _ => .ok _) fun article _ => ?_
    split
    · exact .ok _
    · exact .perform_bind (Handler.delete_harmless h hstore .article _) fun _ _ _ => .ok _
  | cancelDeletion taskId =>
    refine .perform_read_bind (.ok _) fun taskId _ => ?_
    exact .perform_bind (h.cancel_harmless hstore taskId) fun _ _ _ => .ok _
  | createComment articleId content =>
    refine .perform_read_bind ((find .article articleId).bind fun article _ =>
      Context.mainSigner_harmless.bind fun _ _ => .ok _) fun ⟨comment, article⟩ hcomment => ?_
    obtain ⟨found, -, hcomment⟩ := bind_eq_ok.1 hcomment
    obtain ⟨owner, -, hcomment⟩ := bind_eq_ok.1 hcomment
    cases hcomment
    exact Handler.save_counted_harmless h hstore .comment (Comment.storable _) rfl _
  | createLike articleId =>
    refine .perform_read_bind ((find .article articleId).bind fun article _ =>
      Context.mainSigner_harmless.bind fun _ _ => .ok _) fun ⟨like, article⟩ hlike => ?_
    obtain ⟨found, -, hlike⟩ := bind_eq_ok.1 hlike
    obtain ⟨owner, -, hlike⟩ := bind_eq_ok.1 hlike
    cases hlike
    exact Handler.save_counted_harmless h hstore .like (Like.storable _) rfl _

theorem route_harmless (router : Router) (message : Message) :
    Harmless BlogError.isFatal (router.route message) := by
  unfold route
  split
  · exact .error rfl
  · split
    · exact .error rfl
    · exact .ok _

end Router

/-! ## Queries -/

/-- The queries of the collections are answered. That of the articles between two times is
refused if one of the times is before the epoch. -/
structure Collections.Answers (c : Collections) (store : Store) : Prop where
  record : ∀ kind id, ∃ record, (c.bucketOf kind).get store id = .ok record
  user : ∀ username, ∃ user, c.userByUsername store username = .ok user
  blogs : ∀ owner, ∃ blogs, c.blogsByOwner store owner = .ok blogs
  articles : ∀ blogId, ∃ articles, c.articlesByBlog store blogId = .ok articles
  articles_between : ∀ blogId first upper,
    (∃ articles, c.articlesByBlogBetween store blogId first upper = .ok articles) ∨
      ∃ t, t.isNegative = true ∧ (t = first ∨ t = upper)
        ∧ c.articlesByBlogBetween store blogId first upper = .error (.invalidState (.untimed t))
  comments : ∀ articleId, ∃ comments, c.commentsByArticle store articleId = .ok comments
  comments_of_user : ∀ owner, ∃ comments, c.commentsByUser store owner = .ok comments
  comments_of_both : ∀ articleId owner, ∃ comments,
    c.commentsByArticleUser store articleId owner = .ok comments
  likes : ∀ articleId, ∃ likes, c.likesByArticle store articleId = .ok likes

namespace Collections

theorem timedBound_cases (blogId : RecordId) (t : UnixTime) :
    (∃ key, timedBound blogId t = .ok key) ∨
      t.isNegative = true ∧ timedBound blogId t = .error (.invalidState (.untimed t)) := by
  by_cases negative : t.isNegative = true
  · exact .inr ⟨negative, timedBound_of_negative negative blogId⟩
  · exact .inl ⟨_, timedBound_of_not_negative negative blogId⟩

theorem Hold.answers (h : c.Hold store.contents tables) (hstore : store.Reliable) :
    c.Answers store := by
  have articles := (h .article).represents
  obtain ⟨index, timed⟩ : ∃ index, c.articles.indexNamed "timedblog" = .ok index := ⟨_, rfl⟩
  constructor
  case record => exact fun kind id => ⟨_, (h kind).get_eq hstore id⟩
  case user => exact fun username => (h .user).represents.exists_oneByUnique hstore rfl _
  case blogs => exact fun owner => (h .blog).represents.exists_allWith hstore rfl _
  case articles =>
    intro blogId
    obtain ⟨scan, hquery, hfinds⟩ := articles.exists_queryPrefix hstore timed blogId.bytes
    obtain ⟨found, hload⟩ := articles.exists_load hstore hfinds
    exact ⟨found, bind_eq_ok.2 ⟨scan, hquery, hload⟩⟩
  case articles_between =>
    intro blogId first upper
    rw [articlesByBlogBetween]
    rcases timedBound_cases blogId first with ⟨start, hstart⟩ | ⟨early, refused⟩
    · rcases timedBound_cases blogId upper with ⟨bound, hbound⟩ | ⟨early, refused⟩
      · obtain ⟨scan, hquery, hfinds⟩ := articles.exists_queryRange hstore timed start (some bound)
        obtain ⟨found, hload⟩ := articles.exists_load hstore hfinds
        refine .inl ⟨found, bind_eq_ok.2 ⟨start, hstart, bind_eq_ok.2 ⟨bound, hbound, ?_⟩⟩⟩
        exact mapError_eq_ok.2 (bind_eq_ok.2 ⟨scan, hquery, hload⟩)
      · refine .inr ⟨upper, early, .inr rfl, ?_⟩
        exact bind_eq_error.2 (.inr ⟨start, hstart, bind_eq_error.2 (.inl refused)⟩)
    · exact .inr ⟨first, early, .inl rfl, bind_eq_error.2 (.inl refused)⟩
  case comments => exact fun id => (h .comment).represents.exists_allWith hstore rfl _
  case comments_of_user => exact fun owner => (h .comment).represents.exists_allWith hstore rfl _
  case comments_of_both =>
    exact fun id owner => (h .comment).represents.exists_allWith hstore rfl _
  case likes => exact fun id => (h .like).represents.exists_allWith hstore rfl _

end Collections

/-! ## The application -/

/-- A transaction on a reliable store does no harm if its step does none. -/
theorem Harmless.transact {ε α : Type} {fatal : ε → Bool} (hstore : store.Reliable)
    {lift : StoreError → ε} {step : Tx ε α}
    (h : Harmless fatal (store.stage.perform step).1) :
    Harmless fatal (store.transact lift step).1 := by
  obtain ⟨after, hcommit, -⟩ := Store.commit_perform_stage hstore step
  unfold Store.transact
  cases hrun : store.stage.perform step with
  | mk outcome overlay =>
    rw [hrun] at h hcommit
    cases outcome with
    | error e => exact .error (h e rfl)
    | ok a =>
      simp only [hcommit]
      exact .ok a

namespace App

variable {config : Config}

theorem Stands.deliver_harmless (h : (ofConfig config).Stands store tables) (ctx : Context)
    (message : Message) :
    Harmless BlogError.isFatal ((ofConfig config).deliver ctx message store).1 := by
  refine Harmless.transact h.reliable ?_
  refine .perform_read_bind (Router.route_harmless _ message) fun handler hroute => ?_
  obtain ⟨rfl, -⟩ := route_eq_ok hroute
  have hold : (ofConfig config).collections.Hold store.stage.contents tables := h.hold
  exact Router.mainHandler_harmless hold (Store.reliable_stage h.reliable) ctx message

/-- What a check fails with, the delivery fails with. -/
theorem Stands.check_harmless (h : (ofConfig config).Stands store tables) (ctx : Context)
    (message : Message) :
    Harmless BlogError.isFatal ((ofConfig config).check ctx message store) := fun error failed =>
  h.deliver_harmless ctx message error (congrArg Prod.fst (deliver_of_check_error failed))

/-- What becomes of a task that is run at some time. -/
def outcome (now : UnixTime) : Option Task → Fired
  | none => .missing
  | some task => if now < task.runAt then .notDue else .completed

theorem Stands.fire_outcome {app : App} (h : app.Stands store tables) (id : RecordId)
    (now : UnixTime) :
    (app.fire id now store).1 = .ok (outcome now (tables.tasks.records id)) := by
  obtain ⟨fired, tables', after, hfire, executed, -⟩ := fire_eq h id now
  rw [hfire]
  cases executed with
  | missing absent => rw [absent, outcome]
  | notDue queued early => rw [queued, outcome, if_pos early]
  | completed queued due => rw [queued, outcome, if_neg due]

/-- After every run, no request and no query ends in a fatal error. A tick completes the first
tasks that are due, as many as the limit allows, and a task that is run on its own completes if it
is due: no task ever fails. -/
theorem never_corrupts (config : Config) (calls : List Call) :
    let app := ofConfig config
    let store := app.reached calls
    (∀ ctx message, Harmless BlogError.isFatal (app.deliver ctx message store).1)
      ∧ (∀ ctx message, Harmless BlogError.isFatal (app.check ctx message store))
      ∧ (∀ now, ∃ due, Queue.due store now = .ok due ∧ (app.tick now store).1 =
          .ok { completed := due.take app.executor.limit, failed := []
                hasMore := app.executor.limit < due.length })
      ∧ (∀ id now, ∃ task, Queue.get store id = .ok task ∧
          (app.fire id now store).1 = .ok (outcome now task))
      ∧ app.collections.Answers store := by
  intro app store
  obtain ⟨tables, stands⟩ := exists_stands config calls
  refine ⟨stands.deliver_harmless, stands.check_harmless, fun now => ?_, fun id now => ?_,
    stands.hold.answers stands.reliable⟩
  · obtain ⟨due, hbefore, hdue⟩ := stands.exists_due now
    obtain ⟨tables', after, htick, -⟩ := tick_eq stands hbefore
    exact ⟨due, hdue, congrArg Prod.fst htick⟩
  · exact ⟨_, stands.get_task id, stands.fire_outcome id now⟩

/-- After `posted` the task is not run before its time and completes then, and someone else
cannot delete the article. -/
theorem never_corrupts_posted :
    let app := ofConfig {}
    let store := app.reached posted
    (app.fire ⟨1⟩ ⟨19⟩ store).1 = .ok .notDue ∧ (app.fire ⟨1⟩ ⟨20⟩ store).1 = .ok .completed
      ∧ ∃ error, (app.deliver ⟨⟨12⟩, [.zero]⟩ (.deleteArticle ⟨1⟩) store).1 = .error error
        ∧ error.isFatal = false := by
  intro app store
  have queued : Queue.get store ⟨1⟩ =
      .ok (some ⟨some ⟨1⟩, ⟨20⟩, Deletions.payload ⟨1⟩⟩) := by decide +kernel
  obtain ⟨delivered, -, -, fired, -⟩ := never_corrupts {} posted
  have run : ∀ now, (app.fire ⟨1⟩ now store).1 =
      .ok (outcome now (some ⟨some ⟨1⟩, ⟨20⟩, Deletions.payload ⟨1⟩⟩)) := fun now => by
    obtain ⟨task, htask, hfire⟩ := fired ⟨1⟩ now
    obtain rfl := Except.ok.inj (queued.symm.trans htask)
    exact hfire
  have refused : (app.deliver ⟨⟨12⟩, [.zero]⟩ (.deleteArticle ⟨1⟩) store).1 =
      .error (.unauthorized .zero (.deleteArticle ⟨1⟩)) := by decide +kernel
  exact ⟨run ⟨19⟩, run ⟨20⟩, _, refused, delivered _ _ _ refused⟩

end App

end Gazette
