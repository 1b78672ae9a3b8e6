import Gazette.Proofs.Blog.Permanence

set_option autoImplicit false

/-! # The main signer

Of the context of a request only the time of the block and the main signer are looked at. Two
contexts with the same of both are alike to every handler, so the other signers do not matter to
the answers, nor to what a run leads to (`App.reached_congr`).

Who the main signer is decides what a delivery can do. Blogs are given away, and articles posted,
by the owner of the blog, and articles and tickets are taken away by those they belong to. Running
tasks touches no blog and no ticket (`App.main_signer_decides`).
-/

namespace Gazette

/-! ## Contexts that are alike -/

namespace Context

variable {ctx ctx' : Context}

/-- The contexts have the same time and the same main signer. -/
structure Alike (ctx ctx' : Context) : Prop where
  blockTime : ctx.blockTime = ctx'.blockTime
  mainSigner : ctx.mainSigner = ctx'.mainSigner

theorem mainSigner_eq_ok {owner : Address} :
    ctx.mainSigner = .ok owner ↔ ctx.signers.head? = some owner := by
  unfold mainSigner
  cases ctx.signers with
  | nil => simp
  | cons signer rest => simp

theorem mainSigner_congr (h : ctx.signers.head? = ctx'.signers.head?) :
    ctx.mainSigner = ctx'.mainSigner := by
  unfold mainSigner
  cases hsigners : ctx.signers with
  | nil =>
    rw [hsigners] at h
    rw [List.head?_eq_none_iff.1 h.symm]
  | cons signer rest =>
    rw [hsigners] at h
    obtain ⟨rest', hsigners'⟩ := List.head?_eq_some_iff.1 h.symm
    rw [hsigners']

theorem Alike.requireOwner (h : ctx.Alike ctx') : ctx.requireOwner = ctx'.requireOwner := by
  funext owner action
  unfold Context.requireOwner
  rw [h.mainSigner]

theorem Alike.requireAhead (h : ctx.Alike ctx') : ctx.requireAhead = ctx'.requireAhead := by
  funext deleteAt
  unfold Context.requireAhead inThePast
  rw [h.blockTime]

end Context

/-! ## Handlers -/

variable {ctx ctx' : Context}

namespace Deletions

variable (deletions : Deletions)

theorem schedule_congr (h : ctx.Alike ctx') : deletions.schedule ctx = deletions.schedule ctx' := by
  funext articleId deleteAt
  unfold schedule
  rw [h.requireAhead, h.mainSigner]

theorem authorizeCancel_congr (h : ctx.Alike ctx') :
    deletions.authorizeCancel ctx = deletions.authorizeCancel ctx' := by
  funext taskId store
  unfold authorizeCancel
  rw [h.requireOwner]

theorem cancel_congr (h : ctx.Alike ctx') : deletions.cancel ctx = deletions.cancel ctx' := by
  funext taskId
  unfold cancel
  rw [deletions.authorizeCancel_congr h]

end Deletions

namespace Handler

variable (c : Collections)

theorem newUser_congr (h : ctx.Alike ctx') : newUser ctx = newUser ctx' := by
  funext message
  unfold newUser
  rw [h.blockTime]

theorem newBlog_congr (h : ctx.Alike ctx') : newBlog ctx = newBlog ctx' := by
  funext message
  unfold newBlog
  rw [h.mainSigner, h.blockTime]

theorem reownedBlog_congr (h : ctx.Alike ctx') : reownedBlog c ctx = reownedBlog c ctx' := by
  funext message store
  unfold reownedBlog
  rw [h.requireOwner]

theorem newArticle_congr (h : ctx.Alike ctx') : newArticle c ctx = newArticle c ctx' := by
  funext message store
  unfold newArticle
  rw [h.requireOwner, h.requireAhead, h.blockTime]

theorem ownArticle_congr (h : ctx.Alike ctx') : ownArticle c ctx = ownArticle c ctx' := by
  funext message store
  unfold ownArticle
  rw [h.requireOwner]

theorem newComment_congr (h : ctx.Alike ctx') : newComment c ctx = newComment c ctx' := by
  funext message store
  unfold newComment
  rw [h.mainSigner, h.blockTime]

theorem newLike_congr (h : ctx.Alike ctx') : newLike c ctx = newLike c ctx' := by
  funext message store
  unfold newLike
  rw [h.mainSigner, h.blockTime]

end Handler

/-- No handler tells apart contexts that are alike. -/
theorem Router.mainHandler_congr (h : ctx.Alike ctx') (c : Collections) (deletions : Deletions)
    (gas : GasSchedule) (kind : MessageKind) :
    (mainHandler c deletions gas kind).check ctx = (mainHandler c deletions gas kind).check ctx'
      ∧ (mainHandler c deletions gas kind).deliver ctx =
        (mainHandler c deletions gas kind).deliver ctx' := by
  cases kind with
  | createUser =>
    simp only [mainHandler, Handler.createUser, Handler.newUser_congr h, and_self]
  | createBlog =>
    simp only [mainHandler, Handler.createBlog, Handler.newBlog_congr h, and_self]
  | changeBlogOwner =>
    simp only [mainHandler, Handler.changeBlogOwner, Handler.reownedBlog_congr c h, and_self]
  | createArticle =>
    simp only [mainHandler, Handler.createArticle, Handler.newArticle_congr c h,
      deletions.schedule_congr h, and_self]
  | deleteArticle =>
    simp only [mainHandler, Handler.deleteArticle, Handler.ownArticle_congr c h, and_self]
  | cancelDeletion =>
    simp only [mainHandler, Handler.cancelDeletion, deletions.authorizeCancel_congr h,
      deletions.cancel_congr h, and_self]
  | createComment =>
    simp only [mainHandler, Handler.createComment, Handler.newComment_congr c h, and_self]
  | createLike =>
    simp only [mainHandler, Handler.createLike, Handler.newLike_congr c h, and_self]

/-! ## Requests -/

variable {tables tables' : Tables} {message : Message} {id i : RecordId}

/-- A new article is posted by the owner of its blog, and belongs to them. -/
theorem Delivered.posted_by_owner (delivered : Delivered ctx tables message id tables')
    {article : Article} (absent : tables.articles.records i = none)
    (stored : tables'.articles.records i = some article) :
    ∃ blog, tables.blogs.records article.blogId = some blog ∧ ctx.mainSigner = .ok blog.owner
      ∧ article.owner = blog.owner := by
  cases delivered with
  | createArticle found signed room | scheduleArticle found signed room =>
    have stored := (tables.articles.records_add _ i).symm.trans stored
    by_cases fresh : i = tables.articles.next
    · rw [if_pos fresh] at stored
      cases stored
      exact ⟨_, found, signed, rfl⟩
    · rw [if_neg fresh, absent] at stored
      cases stored
  | deleteArticle =>
    rw [Table.records_erase, absent, ite_self] at stored
    cases stored
  | createComment found | createLike found =>
    rw [Table.records_set] at stored
    split at stored
    · rename_i same
      rw [same, found] at absent
      cases absent
    · cases absent.symm.trans stored
  | createUser | createBlog | changeBlogOwner | cancelDeletion => cases absent.symm.trans stored

namespace App

variable {config : Config} {app : App} {store : Store}

theorem check_congr (app : App) (alike : ctx.Alike ctx') (message : Message) (store : Store) :
    app.check ctx message store = app.check ctx' message store := by
  unfold check Router.check
  cases hroute : app.router.route message with
  | error error => rfl
  | ok handler =>
    obtain ⟨rfl, -⟩ := route_eq_ok hroute
    show Handler.check _ ctx message store.stage = Handler.check _ ctx' message store.stage
    rw [(Router.mainHandler_congr alike ..).1]

theorem deliver_congr (app : App) (alike : ctx.Alike ctx') (message : Message) (store : Store) :
    app.deliver ctx message store = app.deliver ctx' message store := by
  have handled : store.stage.perform (app.router.deliver ctx message) =
      store.stage.perform (app.router.deliver ctx' message) := by
    cases hroute : app.router.route message with
    | error error =>
      exact (Store.perform_read_bind_of_error hroute _).trans
        (Store.perform_read_bind_of_error hroute _).symm
    | ok handler =>
      obtain ⟨rfl, -⟩ := route_eq_ok hroute
      refine (Store.perform_read_bind_of_ok hroute _).trans
        (Eq.trans ?_ (Store.perform_read_bind_of_ok hroute _).symm)
      rw [(Router.mainHandler_congr alike ..).2]
  rw [deliver, deliver, Store.transact, Store.transact, handled]

/-- The calls are the same but for signers other than the main one. -/
inductive Call.Alike : Call → Call → Prop
  | deliver {ctx ctx' : Context} (alike : ctx.Alike ctx') (message : Message) :
      Alike (.deliver ctx message) (.deliver ctx' message)
  | check {ctx ctx' : Context} (alike : ctx.Alike ctx') (message : Message) :
      Alike (.check ctx message) (.check ctx' message)
  | tick (now : UnixTime) : Alike (.tick now) (.tick now)
  | fire (taskId : RecordId) (now : UnixTime) : Alike (.fire taskId now) (.fire taskId now)

theorem step_congr (app : App) (store : Store) {call call' : Call} (alike : call.Alike call') :
    app.step store call = app.step store call' := by
  cases alike with
  | deliver alike message => exact congrArg Prod.snd (app.deliver_congr alike message store)
  | check | tick | fire => rfl

/-- A run leads to the same store whoever signs besides the main signers. -/
theorem reached_congr (app : App) {calls calls' : List Call}
    (alike : List.Forall₂ Call.Alike calls calls') : app.reached calls = app.reached calls' := by
  unfold reached run
  generalize Store.memory = store
  induction alike generalizing store with
  | nil => rfl
  | cons first later ih =>
    rw [List.foldl_cons, List.foldl_cons, app.step_congr store first]
    exact ih _

/-! ## What the main signer allows -/

/-- What a delivery changes, its main signer was the one to change. -/
structure Authorized (app : App) (ctx : Context) (store after : Store) : Prop where
  given : ∀ id blog blog', app.collections.blogs.get store id = .ok (some blog) →
    app.collections.blogs.get after id = .ok (some blog') → blog'.owner ≠ blog.owner →
    ctx.signers.head? = some blog.owner
  posted : ∀ id article, app.collections.articles.get store id = .ok none →
    app.collections.articles.get after id = .ok (some article) →
    ∃ blog, app.collections.blogs.get store article.blogId = .ok (some blog)
      ∧ ctx.signers.head? = some blog.owner ∧ article.owner = blog.owner
  deleted : ∀ id article, app.collections.articles.get store id = .ok (some article) →
    app.collections.articles.get after id = .ok none → ctx.signers.head? = some article.owner
  cancelled : ∀ id ticket, app.collections.tickets.get store id = .ok (some ticket) →
    app.collections.tickets.get after id = .ok none → ctx.signers.head? = some ticket.owner

theorem Stands.authorized {after : Store} (stands : app.Stands store tables)
    (stands' : app.Stands after tables') (orderly : tables.Orderly)
    (delivered : Delivered ctx tables message id tables') : app.Authorized ctx store after where
  given i blog blog' hblog hblog' changed := by
    have found := Except.ok.inj ((stands.get_eq .blog i).symm.trans hblog)
    have found' := Except.ok.inj ((stands'.get_eq .blog i).symm.trans hblog')
    cases delivered.blog_fate orderly found with
    | given newOwner asked signed now => exact Context.mainSigner_eq_ok.1 signed
    | kept unasked now =>
      obtain rfl := Option.some.inj (now.symm.trans found')
      exact absurd rfl changed
  posted i article absent stored := by
    rw [stands.get_article, Except.ok.injEq] at absent
    rw [stands'.get_article, Except.ok.injEq] at stored
    obtain ⟨blog, hblog, signed, own⟩ := delivered.posted_by_owner absent stored
    exact ⟨blog, (stands.get_eq .blog _).trans (congrArg Except.ok hblog),
      Context.mainSigner_eq_ok.1 signed, own⟩
  deleted i article stored gone := by
    rw [stands.get_article, Except.ok.injEq] at stored
    rw [stands'.get_article, Except.ok.injEq] at gone
    exact Context.mainSigner_eq_ok.1 (delivered.removed stored gone).2
  cancelled i ticket stored gone := by
    rw [stands.get_ticket, Except.ok.injEq] at stored
    rw [stands'.get_ticket, Except.ok.injEq] at gone
    cases delivered.ticket_fate orderly stored with
    | cancelled asked signed now => exact Context.mainSigner_eq_ok.1 signed
    | kept now => cases gone.symm.trans now

/-- After every run, two requests with the same time and the same first signer, or none, come to
the same. What a delivery gives away, posts or takes away belonged to its first signer, and
running tasks gives away no blog and takes away no ticket. -/
theorem main_signer_decides (config : Config) (calls : List Call) :
    let app := ofConfig config
    let c := app.collections
    let store := app.reached calls
    (∀ ctx ctx' message, ctx.blockTime = ctx'.blockTime →
        ctx.signers.head? = ctx'.signers.head? →
        app.deliver ctx message store = app.deliver ctx' message store
          ∧ app.check ctx message store = app.check ctx' message store)
    ∧ (∀ ctx message answer, (app.deliver ctx message store).1 = .ok answer →
        app.Authorized ctx store (app.deliver ctx message store).2)
    ∧ ∀ call, (∃ now, call = .tick now) ∨ (∃ taskId now, call = .fire taskId now) →
        (∀ id, c.blogs.get (app.step store call) id = c.blogs.get store id)
          ∧ ∀ id, c.tickets.get (app.step store call) id = c.tickets.get store id := by
  intro app c store
  obtain ⟨tables, stands, orderly⟩ := exists_orderly config calls
  refine ⟨?_, ?_, ?_⟩
  · intro ctx ctx' message time signer
    have alike : ctx.Alike ctx' := ⟨time, Context.mainSigner_congr signer⟩
    exact ⟨app.deliver_congr alike message store, app.check_congr alike message store⟩
  · intro ctx message answer done
    rcases stands.deliver ctx message with
      ⟨⟨error, hfailed⟩, -⟩ | ⟨id, tables', -, delivered, stands'⟩
    · cases hfailed.symm.trans done
    · exact stands.authorized stands' orderly delivered
  · intro call hcall
    have executed : ∃ now ids tables', ExecutedAll now tables ids tables'
        ∧ app.Stands (app.step store call) tables' := by
      rcases hcall with ⟨now, rfl⟩ | ⟨taskId, now, rfl⟩
      · obtain ⟨ids, tables', executed, stands'⟩ := stands.tick now
        exact ⟨now, ids, tables', executed, stands'⟩
      · obtain ⟨fired, tables', executed, stands'⟩ := stands.fire taskId now
        exact ⟨now, [taskId], tables', .cons executed .nil, stands'⟩
    obtain ⟨now, ids, tables', executed, stands'⟩ := executed
    have blogs : tables'.blogs = tables.blogs := executed.of_eq .blog nofun nofun
    have tickets : tables'.tickets = tables.tickets := executed.of_eq .ticket nofun nofun
    constructor
    · intro id
      calc c.blogs.get (app.step store call) id
          = .ok (tables'.blogs.records id) := stands'.get_eq .blog id
        _ = .ok (tables.blogs.records id) := by rw [blogs]
        _ = c.blogs.get store id := (stands.get_eq .blog id).symm
    · intro id
      rw [stands'.get_ticket, stands.get_ticket, tickets]

/-- Someone else. -/
def bob : Address := ⟨List.replicate 20 2, rfl⟩

/-- After `posted`, the blog can be given away by its owner whoever signs second, but not by someone
else with its owner second; and the article is deleted by its owner. -/
theorem main_signer_decides_posted :
    let app := ofConfig {}
    let store := app.reached posted
    let give := Message.changeBlogOwner ⟨1⟩ bob
    app.deliver ⟨⟨12⟩, [ada, bob]⟩ give store = app.deliver ⟨⟨12⟩, [ada]⟩ give store
      ∧ (app.deliver ⟨⟨12⟩, [bob, ada]⟩ give store).1 =
          .error (.unauthorized bob (.changeOwner ⟨1⟩))
      ∧ [ada].head? = some wheels.owner := by
  intro app store give
  obtain ⟨others, authorized, -⟩ := main_signer_decides {} posted
  have evaluated : (app.deliver ⟨⟨12⟩, [bob, ada]⟩ give store).1 =
        .error (.unauthorized bob (.changeOwner ⟨1⟩))
      ∧ (app.deliver ⟨⟨12⟩, [ada]⟩ (.deleteArticle ⟨1⟩) store).1 = .ok (some ⟨1⟩)
      ∧ app.collections.articles.get store ⟨1⟩ = .ok (some wheels)
      ∧ app.collections.articles.get
          (app.deliver ⟨⟨12⟩, [ada]⟩ (.deleteArticle ⟨1⟩) store).2 ⟨1⟩ = .ok none := by
    decide +kernel
  obtain ⟨refused, deleted, stored, gone⟩ := evaluated
  refine ⟨?_, refused, ?_⟩
  · exact (others ⟨⟨12⟩, [ada, bob]⟩ ⟨⟨12⟩, [ada]⟩ give rfl rfl).1
  · exact (authorized ⟨⟨12⟩, [ada]⟩ (.deleteArticle ⟨1⟩) _ deleted).deleted ⟨1⟩ wheels stored gone

end App

end Gazette
