import Gazette.Proofs.Blog.Deletions
import Gazette.Proofs.Blog.Router

set_option autoImplicit false

/-! # What requests do to the tables

`Delivered` says for each kind of message when it can be delivered, which ID it is answered with
and what it makes of the tables. A delivery that fails leaves the store as it was, and every
other one is a case of this relation (`App.deliver_cases`).
-/

namespace Gazette

/-- Delivering the message in this context, with success, answers the ID and leads from the one
tables to the other. -/
inductive Delivered (ctx : Context) (tables : Tables) : Message → RecordId → Tables → Prop
  | createUser {username bio : String} (room : tables.users.HasRoom) :
      Delivered ctx tables (.createUser username bio) tables.users.next
        { tables with
          users := tables.users.add
            { id := none, username, bio, registeredAt := ctx.blockTime } }
  | createBlog {title description : String} {owner : Address}
      (signed : ctx.mainSigner = .ok owner) (room : tables.blogs.HasRoom) :
      Delivered ctx tables (.createBlog title description) tables.blogs.next
        { tables with
          blogs := tables.blogs.add
            { id := none, owner, title, description, createdAt := ctx.blockTime } }
  | changeBlogOwner {blogId : RecordId} {newOwner : Address} {blog : Blog}
      (found : tables.blogs.records blogId = some blog)
      (signed : ctx.mainSigner = .ok blog.owner) :
      Delivered ctx tables (.changeBlogOwner blogId newOwner) blogId
        { tables with blogs := tables.blogs.set blogId { blog with owner := newOwner } }
  | createArticle {blogId : RecordId} {title content : String} {blog : Blog}
      (found : tables.blogs.records blogId = some blog)
      (signed : ctx.mainSigner = .ok blog.owner) (room : tables.articles.HasRoom) :
      Delivered ctx tables (.createArticle blogId title content none) tables.articles.next
        { tables with
          articles := tables.articles.add
            { id := none, blogId, owner := blog.owner, title, content, commentCount := 0,
              likeCount := 0, createdAt := ctx.blockTime, deleteAt := none } }
  | scheduleArticle {blogId : RecordId} {title content : String} {runAt : UnixTime} {blog : Blog}
      (found : tables.blogs.records blogId = some blog)
      (signed : ctx.mainSigner = .ok blog.owner) (room : tables.articles.HasRoom)
      (ahead : ¬ runAt ≤ ctx.blockTime) (queue_room : tables.tasks.HasRoom) :
      Delivered ctx tables (.createArticle blogId title content (some runAt))
        tables.articles.next
        ({ tables with
          articles := tables.articles.add
            { id := none, blogId, owner := blog.owner, title, content, commentCount := 0,
              likeCount := 0, createdAt := ctx.blockTime, deleteAt := some runAt } }.schedule
          tables.articles.next blog.owner runAt)
  | deleteArticle {articleId : RecordId} {article : Article}
      (found : tables.articles.records articleId = some article)
      (signed : ctx.mainSigner = .ok article.owner) :
      Delivered ctx tables (.deleteArticle articleId) articleId
        { tables with articles := tables.articles.erase articleId }
  | cancelDeletion {taskId : RecordId} {ticket : DeletionTicket} {task : Task}
      (found : tables.tickets.records taskId = some ticket)
      (signed : ctx.mainSigner = .ok ticket.owner)
      (queued : tables.tasks.records taskId = some task) :
      Delivered ctx tables (.cancelDeletion taskId) taskId (tables.cancel taskId)
  | createComment {articleId : RecordId} {content : String} {article : Article} {owner : Address}
      (found : tables.articles.records articleId = some article)
      (signed : ctx.mainSigner = .ok owner) (room : tables.comments.HasRoom) :
      Delivered ctx tables (.createComment articleId content) tables.comments.next
        { tables with
          comments := tables.comments.add
            { id := none, articleId, owner, content, createdAt := ctx.blockTime }
          articles := tables.articles.set articleId
            { article with commentCount := article.commentCount + 1 } }
  | createLike {articleId : RecordId} {article : Article} {owner : Address}
      (found : tables.articles.records articleId = some article)
      (signed : ctx.mainSigner = .ok owner) (room : tables.likes.HasRoom) :
      Delivered ctx tables (.createLike articleId) tables.likes.next
        { tables with
          likes := tables.likes.add { id := none, articleId, owner, createdAt := ctx.blockTime }
          articles := tables.articles.set articleId
            { article with likeCount := article.likeCount + 1 } }

namespace Handler

variable {c : Collections} {gas : GasSchedule} {tables : Tables} {store after : Store}
  {ctx : Context} {answer : Option RecordId}

/-! ## Finding and saving -/

theorem find_eq_ok (h : c.Hold store.contents tables) (kind : RecordKind) {id : RecordId}
    {record : kind.type} (hfind : find (c.bucketOf kind) store id = .ok record) :
    (tables.of kind).records id = some record ∧ Record.id record = some id := by
  have found := (h kind).records_of_one (mapError_eq_ok.1 hfind)
  exact ⟨found, ((h kind).represents.sound id record found).carries⟩

theorem save_new (h : c.Hold store.contents tables) (hstore : store.Reliable)
    (kind : RecordKind) {record : kind.type} {id : RecordId}
    (hsave : store.perform (save (c.bucketOf kind) record) = (.ok id, after))
    (hstorable : Record.Storable record) (hnew : Record.id record = none) :
    id = (tables.of kind).next ∧ (tables.of kind).HasRoom ∧ after.Reliable
      ∧ c.Hold after.contents (tables.set kind ((tables.of kind).add record)) := by
  obtain ⟨answer, hput, rfl⟩ := Store.perform_map_eq_ok.1 hsave
  rw [Store.perform_mapError_eq_ok] at hput
  exact h.put_new hstore kind hstorable hnew hput

theorem save_own (h : c.Hold store.contents tables) (hstore : store.Reliable)
    (kind : RecordKind) {record : kind.type} {id saved : RecordId}
    (hsave : store.perform (save (c.bucketOf kind) record) = (.ok saved, after))
    (hstorable : Record.Storable record) (hown : Record.id record = some id) :
    saved = id ∧ after.Reliable
      ∧ c.Hold after.contents (tables.set kind ((tables.of kind).set id record)) := by
  obtain ⟨answer, hput, rfl⟩ := Store.perform_map_eq_ok.1 hsave
  rw [Store.perform_mapError_eq_ok] at hput
  exact h.put_own hstore kind hstorable hown hput

/-- Saving something new about an article, and then the article with a count raised. -/
theorem save_counted (h : c.Hold store.contents tables) (hstore : store.Reliable)
    {kind : RecordKind} (hkind : kind ≠ .article) {record : kind.type} {articleId : RecordId}
    {counted : Article}
    (hrun : store.perform (do
      let id ← save (c.bucketOf kind) record
      let _ ← save c.articles counted
      return some id) = (.ok answer, after))
    (hstorable : Record.Storable record) (hnew : Record.id record = none)
    (hown : counted.id = some articleId) :
    answer = some (tables.of kind).next ∧ (tables.of kind).HasRoom ∧ after.Reliable
      ∧ c.Hold after.contents ((tables.set kind ((tables.of kind).add record)).set .article
          (tables.articles.set articleId counted)) := by
  obtain ⟨id, mid, hsave, hrun⟩ := Store.perform_bind_eq_ok.1 hrun
  obtain ⟨rfl, room, hmid, hold⟩ := save_new h hstore kind hsave hstorable hnew
  obtain ⟨id', last, hcount, hrun⟩ := Store.perform_bind_eq_ok.1 hrun
  cases hrun
  obtain ⟨-, hafter, hold'⟩ := save_own hold hmid .article hcount (Article.storable _) hown
  -- what is new is no article, so the articles are those from before
  rw [Tables.of_set_of_ne tables _ hkind.symm] at hold'
  exact ⟨rfl, room, hafter, hold'⟩

/-! ## The effect of each handler -/

/-- The answer and the store are those of a message that was delivered. -/
def Accomplishes (c : Collections) (ctx : Context) (tables : Tables) (message : Message)
    (answer : Option RecordId) (after : Store) : Prop :=
  ∃ id tables', answer = some id ∧ after.Reliable ∧ c.Hold after.contents tables'
    ∧ Delivered ctx tables message id tables'

theorem createUser_effect (h : c.Hold store.contents tables) (hstore : store.Reliable)
    {username bio : String}
    (hrun : store.perform ((createUser c gas).deliver ctx (.createUser username bio)) =
      (.ok answer, after)) :
    Accomplishes c ctx tables (.createUser username bio) answer after := by
  obtain ⟨user, huser, hrun⟩ := Store.perform_read_bind_eq_ok.1 hrun
  cases huser
  obtain ⟨id, hsave, rfl⟩ := Store.perform_map_eq_ok.1 hrun
  obtain ⟨rfl, room, hafter, hold⟩ := save_new h hstore .user hsave (User.storable _) rfl
  exact ⟨_, _, rfl, hafter, hold, .createUser room⟩

theorem createBlog_effect (h : c.Hold store.contents tables) (hstore : store.Reliable)
    {title description : String}
    (hrun : store.perform ((createBlog c gas).deliver ctx (.createBlog title description)) =
      (.ok answer, after)) :
    Accomplishes c ctx tables (.createBlog title description) answer after := by
  obtain ⟨blog, hblog, hrun⟩ := Store.perform_read_bind_eq_ok.1 hrun
  obtain ⟨owner, signed, hblog⟩ := bind_eq_ok.1 hblog
  cases hblog
  obtain ⟨id, hsave, rfl⟩ := Store.perform_map_eq_ok.1 hrun
  obtain ⟨rfl, room, hafter, hold⟩ := save_new h hstore .blog hsave (Blog.storable _) rfl
  exact ⟨_, _, rfl, hafter, hold, .createBlog signed room⟩

theorem changeBlogOwner_effect (h : c.Hold store.contents tables) (hstore : store.Reliable)
    {blogId : RecordId} {newOwner : Address}
    (hrun : store.perform ((changeBlogOwner c gas).deliver ctx
      (.changeBlogOwner blogId newOwner)) = (.ok answer, after)) :
    Accomplishes c ctx tables (.changeBlogOwner blogId newOwner) answer after := by
  obtain ⟨reowned, hblog, hrun⟩ := Store.perform_read_bind_eq_ok.1 hrun
  obtain ⟨blog, hfind, hblog⟩ := bind_eq_ok.1 hblog
  obtain ⟨signer, howner, hblog⟩ := bind_eq_ok.1 hblog
  cases hblog
  obtain ⟨found, own⟩ := find_eq_ok h .blog hfind
  obtain ⟨id, hsave, rfl⟩ := Store.perform_map_eq_ok.1 hrun
  obtain ⟨rfl, hafter, hold⟩ := save_own h hstore .blog hsave (Blog.storable _) own
  exact ⟨_, _, rfl, hafter, hold,
    .changeBlogOwner found (Context.requireOwner_eq_ok howner).2⟩

theorem newArticle_eq_ok (h : c.Hold store.contents tables) {blogId : RecordId}
    {title content : String} {deleteAt : Option UnixTime} {article : Article}
    (harticle : newArticle c ctx (.createArticle blogId title content deleteAt) store =
      .ok article) :
    ∃ blog, tables.blogs.records blogId = some blog ∧ ctx.mainSigner = .ok blog.owner
      ∧ article = { id := none, blogId, owner := blog.owner, title, content, commentCount := 0,
                    likeCount := 0, createdAt := ctx.blockTime, deleteAt } := by
  obtain ⟨blog, hfind, harticle⟩ := bind_eq_ok.1 harticle
  obtain ⟨signer, howner, harticle⟩ := bind_eq_ok.1 harticle
  obtain ⟨rfl, signed⟩ := Context.requireOwner_eq_ok howner
  refine ⟨blog, (find_eq_ok h .blog hfind).1, signed, ?_⟩
  cases deleteAt with
  | none => exact (Except.ok.inj harticle).symm
  | some t =>
    -- that the deadline lies ahead is checked again when the deletion is scheduled
    obtain ⟨⟨⟩, -, harticle⟩ := bind_eq_ok.1 harticle
    exact (Except.ok.inj harticle).symm

theorem createArticle_effect (h : c.Hold store.contents tables) (hstore : store.Reliable)
    {blogId : RecordId} {title content : String} {deleteAt : Option UnixTime}
    (hrun : store.perform ((createArticle c gas ⟨Queue.scheduler, c⟩).deliver ctx
      (.createArticle blogId title content deleteAt)) = (.ok answer, after)) :
    Accomplishes c ctx tables (.createArticle blogId title content deleteAt) answer after := by
  obtain ⟨article, harticle, hrun⟩ := Store.perform_read_bind_eq_ok.1 hrun
  obtain ⟨blog, found, signed, rfl⟩ := newArticle_eq_ok h harticle
  obtain ⟨id, saved, hsave, hrun⟩ := Store.perform_bind_eq_ok.1 hrun
  obtain ⟨rfl, room, hsaved, hold⟩ := save_new h hstore .article hsave (Article.storable _) rfl
  cases deleteAt with
  | none =>
    cases hrun
    exact ⟨_, _, rfl, hsaved, hold, .createArticle found signed room⟩
  | some t =>
    obtain ⟨taskId, scheduled, hschedule, hrun⟩ := Store.perform_bind_eq_ok.1 hrun
    cases hrun
    obtain ⟨owner, signed', ahead, queue_room, hafter, hold'⟩ := hold.schedule hsaved hschedule
    -- the ticket goes to the main signer, who is the owner of the blog
    obtain rfl := Except.ok.inj (signed.symm.trans signed')
    exact ⟨_, _, rfl, hafter, hold', .scheduleArticle found signed room ahead queue_room⟩

theorem deleteArticle_effect (h : c.Hold store.contents tables) (hstore : store.Reliable)
    {articleId : RecordId}
    (hrun : store.perform ((deleteArticle c).deliver ctx (.deleteArticle articleId)) =
      (.ok answer, after)) :
    Accomplishes c ctx tables (.deleteArticle articleId) answer after := by
  obtain ⟨article, harticle, hrun⟩ := Store.perform_read_bind_eq_ok.1 hrun
  obtain ⟨found, hfind, harticle⟩ := bind_eq_ok.1 harticle
  obtain ⟨signer, howner, harticle⟩ := bind_eq_ok.1 harticle
  cases harticle
  obtain ⟨found, own⟩ := find_eq_ok h .article hfind
  have own : article.id = some articleId := own
  simp only [own] at hrun
  obtain ⟨present, mid, hdelete, hrun⟩ := Store.perform_bind_eq_ok.1 hrun
  cases hrun
  rw [Store.perform_mapError_eq_ok] at hdelete
  obtain ⟨after', hrun, hafter, hold⟩ := h.delete_eq hstore .article articleId
  have same : after = after' := congrArg Prod.snd (hdelete.symm.trans hrun)
  rw [same]
  exact ⟨_, _, rfl, hafter, hold, .deleteArticle found (Context.requireOwner_eq_ok howner).2⟩

theorem cancelDeletion_effect (h : c.Hold store.contents tables) (hstore : store.Reliable)
    {taskId : RecordId}
    (hrun : store.perform ((cancelDeletion ⟨Queue.scheduler, c⟩).deliver ctx
      (.cancelDeletion taskId)) = (.ok answer, after)) :
    Accomplishes c ctx tables (.cancelDeletion taskId) answer after := by
  obtain ⟨task, htask, hrun⟩ := Store.perform_read_bind_eq_ok.1 hrun
  cases htask
  obtain ⟨⟨⟩, mid, hcancel, hrun⟩ := Store.perform_bind_eq_ok.1 hrun
  cases hrun
  obtain ⟨ticket, task, found, signed, queued, hafter, hold⟩ := h.cancel hstore hcancel
  exact ⟨_, _, rfl, hafter, hold, .cancelDeletion found signed queued⟩

theorem createComment_effect (h : c.Hold store.contents tables) (hstore : store.Reliable)
    {articleId : RecordId} {content : String}
    (hrun : store.perform ((createComment c gas).deliver ctx
      (.createComment articleId content)) = (.ok answer, after)) :
    Accomplishes c ctx tables (.createComment articleId content) answer after := by
  obtain ⟨⟨comment, article⟩, hcomment, hrun⟩ := Store.perform_read_bind_eq_ok.1 hrun
  obtain ⟨article', hfind, hcomment⟩ := bind_eq_ok.1 hcomment
  obtain ⟨owner, signed, hcomment⟩ := bind_eq_ok.1 hcomment
  cases hcomment
  obtain ⟨found, own⟩ := find_eq_ok h .article hfind
  have not_article : RecordKind.comment ≠ .article := by decide
  obtain ⟨rfl, room, hafter, hold⟩ :=
    save_counted h hstore not_article hrun (Comment.storable _) rfl own
  exact ⟨_, _, rfl, hafter, hold, .createComment found signed room⟩

theorem createLike_effect (h : c.Hold store.contents tables) (hstore : store.Reliable)
    {articleId : RecordId}
    (hrun : store.perform ((createLike c gas).deliver ctx (.createLike articleId)) =
      (.ok answer, after)) :
    Accomplishes c ctx tables (.createLike articleId) answer after := by
  obtain ⟨⟨like, article⟩, hlike, hrun⟩ := Store.perform_read_bind_eq_ok.1 hrun
  obtain ⟨article', hfind, hlike⟩ := bind_eq_ok.1 hlike
  obtain ⟨owner, signed, hlike⟩ := bind_eq_ok.1 hlike
  cases hlike
  obtain ⟨found, own⟩ := find_eq_ok h .article hfind
  have not_article : RecordKind.like ≠ .article := by decide
  obtain ⟨rfl, room, hafter, hold⟩ :=
    save_counted h hstore not_article hrun (Like.storable _) rfl own
  exact ⟨_, _, rfl, hafter, hold, .createLike found signed room⟩

end Handler

/-! ## Deliveries -/

namespace App

/-- The blog with these settings and the queue as its scheduler. -/
def ofConfig (config : Config) : App := { config }

variable {config : Config} {store : Store} {tables : Tables}

/-- A delivery fails and changes nothing, or does what the message says. -/
theorem deliver_cases (hstore : store.Reliable)
    (h : (ofConfig config).collections.Hold store.contents tables) (ctx : Context)
    (message : Message) :
    (∃ error, (ofConfig config).deliver ctx message store = (.error error, store)) ∨
      ∃ id tables' after, (ofConfig config).deliver ctx message store = (.ok (some id), after)
        ∧ after.Reliable ∧ (ofConfig config).collections.Hold after.contents tables'
        ∧ Delivered ctx tables message id tables' := by
  rcases Store.transact_cases hstore .store ((ofConfig config).router.deliver ctx message) with
    failed | ⟨answer, overlay, after, hrun, hdeliver, hcontents, hafter⟩
  · exact .inl failed
  · obtain ⟨-, hrun⟩ := router_deliver_eq_ok hrun
    -- the handler runs on an overlay that is new, and so holds the same tables
    have hstage := Store.reliable_stage hstore
    have hold : (ofConfig config).collections.Hold store.stage.contents tables := h
    have effect : Handler.Accomplishes (ofConfig config).collections ctx tables message answer
        overlay := by
      cases message with
      | createUser username bio => exact Handler.createUser_effect hold hstage hrun
      | createBlog title description => exact Handler.createBlog_effect hold hstage hrun
      | changeBlogOwner blogId newOwner =>
        exact Handler.changeBlogOwner_effect hold hstage hrun
      | createArticle blogId title content deleteAt =>
        exact Handler.createArticle_effect hold hstage hrun
      | deleteArticle articleId => exact Handler.deleteArticle_effect hold hstage hrun
      | cancelDeletion taskId => exact Handler.cancelDeletion_effect hold hstage hrun
      | createComment articleId content => exact Handler.createComment_effect hold hstage hrun
      | createLike articleId => exact Handler.createLike_effect hold hstage hrun
    obtain ⟨id, tables', rfl, -, hold', delivered⟩ := effect
    exact .inr ⟨id, tables', after, hdeliver, hafter, hcontents ▸ hold', delivered⟩

end App

end Gazette
