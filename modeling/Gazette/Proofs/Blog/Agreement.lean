import Gazette.Proofs.Blog.Admission
import Gazette.Proofs.Blog.Numbering

set_option autoImplicit false

/-! # Checks and deliveries

A check and a delivery begin with the same preparation, so an error of the check is also that of
the delivery (`App.deliver_of_check_error`). A delivery then writes, which has reasons of its own
to fail; `App.Further` lists for each kind of message what has to hold besides. Nothing else can
go wrong: records that are loaded and put back are still valid, and each later write of a
delivery succeeds if the first does (`App.check_and_deliver_agree`).
-/

namespace Gazette

/-! ## Errors of a check -/

namespace Router

variable {c : Collections} {deletions : Deletions} {gas : GasSchedule} {ctx : Context}
  {message : Message} {store : Store} {error : BlogError}

/-- Each handler begins its delivery with what it checks. -/
theorem mainHandler_error (kind : MessageKind)
    (h : (mainHandler c deletions gas kind).check ctx message store = .error error) :
    store.perform ((mainHandler c deletions gas kind).deliver ctx message) =
      (.error error, store) := by
  cases kind with
  | createUser | createBlog | changeBlogOwner | deleteArticle | createComment | createLike =>
    exact Store.perform_read_bind_of_error (map_eq_error.1 h) _
  | createArticle =>
    refine Store.perform_read_bind_of_error ?_ _
    rcases bind_eq_error.1 h with refused | ⟨article, -, h⟩
    · exact refused
    · cases h
  | cancelDeletion =>
    rcases bind_eq_error.1 h with refused | ⟨taskId, htask, h⟩
    · exact Store.perform_read_bind_of_error refused _
    · rcases bind_eq_error.1 h with refused | ⟨ticket, -, h⟩
      · show store.perform (Tx.read (fun _ => Handler.cancelledTask message) >>= _) = _
        rw [Store.perform_bind, Store.perform_read, htask]
        exact Store.perform_bind_of_error (Store.perform_read_bind_of_error refused _) _
      · cases h

end Router

namespace App

variable {app : App} {ctx : Context} {message : Message} {store : Store} {error : BlogError}

theorem router_deliver_of_check_error (h : app.router.check ctx message store = .error error) :
    store.perform (app.router.deliver ctx message) = (.error error, store) := by
  rcases bind_eq_error.1 h with refused | ⟨handler, hroute, h⟩
  · exact Store.perform_read_bind_of_error refused _
  · obtain ⟨rfl, -⟩ := route_eq_ok hroute
    exact (Store.perform_read_bind_of_ok hroute _).trans
      (Router.mainHandler_error message.kind h)

/-- What a check refuses, the delivery refuses for the same reason. -/
theorem deliver_of_check_error (h : app.check ctx message store = .error error) :
    app.deliver ctx message store = (.error error, store) := by
  rw [deliver, Store.transact, router_deliver_of_check_error h]

end App

/-! ## Handlers that succeed -/

namespace Handler

variable {c : Collections} {gas : GasSchedule} {tables : Tables} {store : Store} {ctx : Context}
  {cost : UInt64}

/-- The step ends with an answer. -/
def Succeeds {ε α : Type} (store : Store) (step : Tx ε α) : Prop :=
  ∃ answer after, store.perform step = (.ok answer, after)

theorem find_valid (h : c.Hold store.contents tables) (kind : RecordKind) {id : RecordId}
    {record : kind.type} (hfind : find (c.bucketOf kind) store id = .ok record) :
    Record.validate record = .ok () :=
  ((h kind).represents.sound id record (find_eq_ok h kind hfind).1).valid

theorem createUser_ok (h : c.Hold store.contents tables) (hstore : store.Reliable)
    {username bio : String} (valid : (Message.createUser username bio).validate = .ok ())
    (dated : (⟨1⟩ : UnixTime) ≤ ctx.blockTime) (room : tables.users.HasRoom)
    (free : ∀ id user, tables.users.records id = some user → user.username ≠ username) :
    Succeeds store ((createUser c gas).deliver ctx (.createUser username bio)) := by
  have checked := ValidationErrors.result_ofChecks.1 valid
  simp only [Message.checks, List.forall_mem_cons] at checked
  let user : User := { id := none, username, bio, registeredAt := ctx.blockTime }
  have valid' : (Record.withId user tables.users.next).validate = .ok () := by
    refine ValidationErrors.result_ofChecks.2 ?_
    simp only [List.forall_mem_cons]
    exact ⟨rfl, checked.1, checked.2.1, Check.time_eq_ok.2 dated, List.forall_mem_nil _⟩
  have admits : c.users.Admits tables.users.records tables.users.next
      (Record.withId user tables.users.next) :=
    Collections.admits_user valid' fun j other hother same => absurd same (free j other hother)
  obtain ⟨after, hsave, -, -⟩ :=
    save_new_ok h hstore .user (User.storable user) rfl room admits
  exact ⟨_, after, Store.perform_read_bind_eq_ok.2
    ⟨user, rfl, Store.perform_map_eq_ok.2 ⟨_, hsave, rfl⟩⟩⟩

theorem createBlog_ok (h : c.Hold store.contents tables) (hstore : store.Reliable)
    {title description : String} (valid : (Message.createBlog title description).validate = .ok ())
    (hcheck : (createBlog c gas).check ctx (.createBlog title description) store = .ok cost)
    (dated : (⟨1⟩ : UnixTime) ≤ ctx.blockTime) (room : tables.blogs.HasRoom)
    (nonzero : ctx.mainSigner ≠ .ok .zero) :
    Succeeds store ((createBlog c gas).deliver ctx (.createBlog title description)) := by
  have checked := ValidationErrors.result_ofChecks.1 valid
  simp only [Message.checks, List.forall_mem_cons] at checked
  obtain ⟨blog, hblog, -⟩ := map_eq_ok.1 hcheck
  obtain ⟨owner, signed, heq⟩ := bind_eq_ok.1 hblog
  cases heq
  let blog : Blog := { id := none, owner, title, description, createdAt := ctx.blockTime }
  have howner : Field.owner owner = .ok () :=
    Field.owner_eq_ok.2 fun zero => nonzero (zero ▸ signed)
  have valid' : (Record.withId blog tables.blogs.next).validate = .ok () := by
    refine ValidationErrors.result_ofChecks.2 ?_
    simp only [List.forall_mem_cons]
    exact ⟨rfl, howner, checked.1, checked.2.1, Check.time_eq_ok.2 dated, List.forall_mem_nil _⟩
  have not_user : RecordKind.blog ≠ .user := by decide
  obtain ⟨after, hsave, -, -⟩ := save_new_ok h hstore .blog (Blog.storable blog) rfl room
    (Collections.admits_of_valid not_user valid')
  exact ⟨_, after, Store.perform_read_bind_eq_ok.2
    ⟨blog, hblog, Store.perform_map_eq_ok.2 ⟨_, hsave, rfl⟩⟩⟩

theorem changeBlogOwner_ok (h : c.Hold store.contents tables) (hstore : store.Reliable)
    {blogId : RecordId} {newOwner : Address}
    (valid : (Message.changeBlogOwner blogId newOwner).validate = .ok ())
    (hcheck : (changeBlogOwner c gas).check ctx (.changeBlogOwner blogId newOwner) store =
      .ok cost) :
    Succeeds store ((changeBlogOwner c gas).deliver ctx (.changeBlogOwner blogId newOwner)) := by
  have checked := ValidationErrors.result_ofChecks.1 valid
  simp only [Message.checks, List.forall_mem_cons] at checked
  obtain ⟨reowned, hblog, -⟩ := map_eq_ok.1 hcheck
  obtain ⟨blog, hfind, heq⟩ := bind_eq_ok.1 hblog
  obtain ⟨signer, -, heq⟩ := bind_eq_ok.1 heq
  cases heq
  have stored := ValidationErrors.result_ofChecks.1 (find_valid h .blog hfind)
  simp only [List.forall_mem_cons] at stored
  -- the blog is valid as it is stored, and the message gives it a valid owner
  let reowned : Blog := { blog with owner := newOwner }
  have valid' : reowned.validate = .ok () := by
    refine ValidationErrors.result_ofChecks.2 ?_
    simp only [List.forall_mem_cons]
    exact ⟨stored.1, checked.2.1, stored.2.2⟩
  have own : reowned.id = some blogId := (find_eq_ok h .blog hfind).2
  have not_user : RecordKind.blog ≠ .user := by decide
  obtain ⟨after, hsave, -, -⟩ := save_own_ok h hstore .blog (Blog.storable reowned) own
    (Collections.admits_of_valid not_user valid')
  exact ⟨_, after, Store.perform_read_bind_eq_ok.2
    ⟨reowned, hblog, Store.perform_map_eq_ok.2 ⟨_, hsave, rfl⟩⟩⟩

/-- A deadline that a new article has lies ahead. -/
theorem requireAhead_of_newArticle {blogId : RecordId} {title content : String} {t : UnixTime}
    {article : Article}
    (harticle : newArticle c ctx (.createArticle blogId title content (some t)) store =
      .ok article) : ctx.requireAhead t = .ok () := by
  obtain ⟨blog, -, harticle⟩ := bind_eq_ok.1 harticle
  obtain ⟨signer, -, harticle⟩ := bind_eq_ok.1 harticle
  obtain ⟨⟨⟩, hahead, -⟩ := bind_eq_ok.1 harticle
  exact hahead

theorem createArticle_ok (h : c.Hold store.contents tables) (hstore : store.Reliable)
    {blogId : RecordId} {title content : String} {deleteAt : Option UnixTime}
    (valid : (Message.createArticle blogId title content deleteAt).validate = .ok ())
    (hcheck : (createArticle c gas ⟨Queue.scheduler, c⟩).check ctx
      (.createArticle blogId title content deleteAt) store = .ok cost)
    (dated : (⟨1⟩ : UnixTime) ≤ ctx.blockTime) (room : tables.articles.HasRoom)
    (queue_room : deleteAt.isSome = true → tables.tasks.HasRoom) :
    Succeeds store ((createArticle c gas ⟨Queue.scheduler, c⟩).deliver ctx
      (.createArticle blogId title content deleteAt)) := by
  have checked := ValidationErrors.result_ofChecks.1 valid
  simp only [Message.checks, List.forall_mem_cons] at checked
  obtain ⟨reference, htitle, hcontent, deadline, -⟩ := checked
  obtain ⟨article, harticle, -⟩ := bind_eq_ok.1 hcheck
  obtain ⟨blog, found, signed, rfl⟩ := newArticle_eq_ok h harticle
  have stored := ValidationErrors.result_ofChecks.1
    ((h .blog).represents.sound blogId blog found).valid
  simp only [List.forall_mem_cons] at stored
  let article : Article :=
    { id := none, blogId, owner := blog.owner, title, content, commentCount := 0, likeCount := 0,
      createdAt := ctx.blockTime, deleteAt }
  have valid' : (Record.withId article tables.articles.next).validate = .ok () := by
    refine ValidationErrors.result_ofChecks.2 ?_
    simp only [List.forall_mem_cons]
    exact ⟨rfl, reference, stored.2.1, htitle, hcontent, Check.time_eq_ok.2 dated, deadline,
      List.forall_mem_nil _⟩
  have not_user : RecordKind.article ≠ .user := by decide
  obtain ⟨saved, hsave, hsaved, hold⟩ := save_new_ok h hstore .article (Article.storable article)
    rfl room (Collections.admits_of_valid not_user valid')
  cases deleteAt with
  | none =>
    exact ⟨_, saved, Store.perform_read_bind_eq_ok.2 ⟨article, harticle,
      Store.perform_bind_eq_ok.2 ⟨_, saved, hsave, rfl⟩⟩⟩
  | some t =>
    -- the article is stored under an ID that is not zero, so a ticket for it is valid
    obtain ⟨taskId, after, hschedule⟩ := hold.schedule_ok hsaved signed stored.2.1
      room.reference_next (requireAhead_of_newArticle harticle) deadline (queue_room rfl)
    exact ⟨_, after, Store.perform_read_bind_eq_ok.2 ⟨article, harticle,
      Store.perform_bind_eq_ok.2 ⟨_, saved, hsave,
        Store.perform_bind_eq_ok.2 ⟨taskId, after, hschedule, rfl⟩⟩⟩⟩

theorem deleteArticle_ok (h : c.Hold store.contents tables) (hstore : store.Reliable)
    {articleId : RecordId}
    (hcheck : (deleteArticle c).check ctx (.deleteArticle articleId) store = .ok cost) :
    Succeeds store ((deleteArticle c).deliver ctx (.deleteArticle articleId)) := by
  obtain ⟨article, harticle, -⟩ := map_eq_ok.1 hcheck
  obtain ⟨found, hfind, heq⟩ := bind_eq_ok.1 harticle
  obtain ⟨signer, -, heq⟩ := bind_eq_ok.1 heq
  cases heq
  have own : article.id = some articleId := (find_eq_ok h .article hfind).2
  obtain ⟨after, hdelete, -, -⟩ := h.delete_eq hstore .article articleId
  refine ⟨some articleId, after, Store.perform_read_bind_eq_ok.2 ⟨article, harticle, ?_⟩⟩
  simp only [own]
  exact Store.perform_bind_eq_ok.2 ⟨_, after, Store.perform_mapError_eq_ok.2 hdelete, rfl⟩

theorem cancelDeletion_ok (h : c.Hold store.contents tables) (hstore : store.Reliable)
    {taskId : RecordId}
    (hcheck : (cancelDeletion ⟨Queue.scheduler, c⟩).check ctx (.cancelDeletion taskId) store =
      .ok cost) (queued : (tables.tasks.records taskId).isSome = true) :
    Succeeds store
      ((cancelDeletion ⟨Queue.scheduler, c⟩).deliver ctx (.cancelDeletion taskId)) := by
  obtain ⟨id, hid, hcheck⟩ := bind_eq_ok.1 hcheck
  cases hid
  obtain ⟨ticket, hauthorized, -⟩ := bind_eq_ok.1 hcheck
  obtain ⟨task, hqueued⟩ := Option.isSome_iff_exists.1 queued
  obtain ⟨after, hcancel⟩ := h.cancel_ok hstore hauthorized hqueued
  exact ⟨some taskId, after, Store.perform_read_bind_eq_ok.2 ⟨taskId, rfl,
    Store.perform_bind_eq_ok.2 ⟨(), after, hcancel, rfl⟩⟩⟩

/-- Saving something new about an article succeeds, and then so does saving the article, which
is valid as it is stored, with a count raised. -/
theorem save_counted_ok (h : c.Hold store.contents tables) (hstore : store.Reliable)
    {kind : RecordKind} (hkind : kind ≠ .user) {record : kind.type} {articleId : RecordId}
    {counted : Article} (hstorable : Record.Storable record) (hnew : Record.id record = none)
    (room : (tables.of kind).HasRoom)
    (valid : Record.validate (Record.withId record (tables.of kind).next) = .ok ())
    (hown : counted.id = some articleId) (hcounted : counted.validate = .ok ()) :
    Succeeds store (do
      let id ← save (c.bucketOf kind) record
      let _ ← save c.articles counted
      return some id) := by
  obtain ⟨saved, hsave, hsaved, hold⟩ := save_new_ok h hstore kind hstorable hnew room
    (Collections.admits_of_valid hkind valid)
  have not_user : RecordKind.article ≠ .user := by decide
  obtain ⟨after, hcount, -, -⟩ := save_own_ok hold hsaved .article (Article.storable counted) hown
    (Collections.admits_of_valid not_user hcounted)
  exact ⟨_, after, Store.perform_bind_eq_ok.2 ⟨_, saved, hsave,
    Store.perform_bind_eq_ok.2 ⟨_, after, hcount, rfl⟩⟩⟩

theorem createComment_ok (h : c.Hold store.contents tables) (hstore : store.Reliable)
    {articleId : RecordId} {content : String}
    (valid : (Message.createComment articleId content).validate = .ok ())
    (hcheck : (createComment c gas).check ctx (.createComment articleId content) store = .ok cost)
    (dated : (⟨1⟩ : UnixTime) ≤ ctx.blockTime) (room : tables.comments.HasRoom)
    (nonzero : ctx.mainSigner ≠ .ok .zero) :
    Succeeds store ((createComment c gas).deliver ctx (.createComment articleId content)) := by
  have checked := ValidationErrors.result_ofChecks.1 valid
  simp only [Message.checks, List.forall_mem_cons] at checked
  obtain ⟨⟨comment, article⟩, hcomment, -⟩ := map_eq_ok.1 hcheck
  obtain ⟨found, hfind, heq⟩ := bind_eq_ok.1 hcomment
  obtain ⟨owner, signed, heq⟩ := bind_eq_ok.1 heq
  cases heq
  let comment : Comment := { id := none, articleId, owner, content, createdAt := ctx.blockTime }
  have howner : Field.owner owner = .ok () :=
    Field.owner_eq_ok.2 fun zero => nonzero (zero ▸ signed)
  have valid' : (Record.withId comment tables.comments.next).validate = .ok () := by
    refine ValidationErrors.result_ofChecks.2 ?_
    simp only [List.forall_mem_cons]
    exact ⟨rfl, checked.1, howner, checked.2.1, Check.time_eq_ok.2 dated, List.forall_mem_nil _⟩
  -- the checks of an article do not look at its counts
  let counted : Article := { article with commentCount := article.commentCount + 1 }
  have own : counted.id = some articleId := (find_eq_ok h .article hfind).2
  have stored : article.validate = .ok () := find_valid h .article hfind
  have stored : counted.validate = .ok () := stored
  have not_user : RecordKind.comment ≠ .user := by decide
  obtain ⟨answer, after, hsave⟩ := save_counted_ok h hstore not_user (Comment.storable comment) rfl
    room valid' own stored
  exact ⟨answer, after, Store.perform_read_bind_eq_ok.2 ⟨(comment, article), hcomment, hsave⟩⟩

theorem createLike_ok (h : c.Hold store.contents tables) (hstore : store.Reliable)
    {articleId : RecordId} (valid : (Message.createLike articleId).validate = .ok ())
    (hcheck : (createLike c gas).check ctx (.createLike articleId) store = .ok cost)
    (dated : (⟨1⟩ : UnixTime) ≤ ctx.blockTime) (room : tables.likes.HasRoom)
    (nonzero : ctx.mainSigner ≠ .ok .zero) :
    Succeeds store ((createLike c gas).deliver ctx (.createLike articleId)) := by
  have checked := ValidationErrors.result_ofChecks.1 valid
  simp only [Message.checks, List.forall_mem_cons] at checked
  obtain ⟨⟨like, article⟩, hlike, -⟩ := map_eq_ok.1 hcheck
  obtain ⟨found, hfind, heq⟩ := bind_eq_ok.1 hlike
  obtain ⟨owner, signed, heq⟩ := bind_eq_ok.1 heq
  cases heq
  let like : Like := { id := none, articleId, owner, createdAt := ctx.blockTime }
  have howner : Field.owner owner = .ok () :=
    Field.owner_eq_ok.2 fun zero => nonzero (zero ▸ signed)
  have valid' : (Record.withId like tables.likes.next).validate = .ok () := by
    refine ValidationErrors.result_ofChecks.2 ?_
    simp only [List.forall_mem_cons]
    exact ⟨rfl, checked.1, howner, Check.time_eq_ok.2 dated, List.forall_mem_nil _⟩
  -- the checks of an article do not look at its counts
  let counted : Article := { article with likeCount := article.likeCount + 1 }
  have own : counted.id = some articleId := (find_eq_ok h .article hfind).2
  have stored : article.validate = .ok () := find_valid h .article hfind
  have stored : counted.validate = .ok () := stored
  have not_user : RecordKind.like ≠ .user := by decide
  obtain ⟨answer, after, hsave⟩ := save_counted_ok h hstore not_user (Like.storable like) rfl
    room valid' own stored
  exact ⟨answer, after, Store.perform_read_bind_eq_ok.2 ⟨(like, article), hlike, hsave⟩⟩

end Handler

/-! ## What a delivery needs besides -/

/-- The counter of the bucket is below its greatest number. -/
def Bucket.HasRoom {ρ : Type} (bucket : Bucket ρ) (store : Store) : Prop :=
  ∃ last, bucket.counter.current store = .ok last ∧ last.toNat + 1 < UInt64.size

namespace App

/-- What has to hold for a delivery besides that the check succeeds. -/
def Further (app : App) (ctx : Context) (store : Store) : Message → Prop
  | .createUser username _ =>
    (⟨1⟩ : UnixTime) ≤ ctx.blockTime ∧ app.collections.users.HasRoom store
      ∧ ∀ id user, app.collections.users.get store id = .ok (some user) →
          user.username ≠ username
  | .createBlog _ _ =>
    (⟨1⟩ : UnixTime) ≤ ctx.blockTime ∧ app.collections.blogs.HasRoom store
      ∧ ctx.mainSigner ≠ .ok .zero
  | .createArticle _ _ _ deleteAt =>
    (⟨1⟩ : UnixTime) ≤ ctx.blockTime ∧ app.collections.articles.HasRoom store
      ∧ (deleteAt.isSome = true → Queue.bucket.HasRoom store)
  | .createComment _ _ =>
    (⟨1⟩ : UnixTime) ≤ ctx.blockTime ∧ app.collections.comments.HasRoom store
      ∧ ctx.mainSigner ≠ .ok .zero
  | .createLike _ =>
    (⟨1⟩ : UnixTime) ≤ ctx.blockTime ∧ app.collections.likes.HasRoom store
      ∧ ctx.mainSigner ≠ .ok .zero
  | .cancelDeletion taskId => Queue.isQueued store taskId = .ok true
  | .changeBlogOwner _ _ | .deleteArticle _ => True

variable {config : Config} {app : App} {store after : Store} {tables tables' : Tables}
  {ctx : Context} {message : Message}

/-! ### In terms of the tables -/

theorem Stands.hasRoom_iff (h : app.Stands store tables) (kind : RecordKind) :
    (app.collections.bucketOf kind).HasRoom store ↔ (tables.of kind).HasRoom := by
  have current := Counter.current_eq h.reliable (h.hold kind).issued
  constructor
  · rintro ⟨last, hlast, room⟩
    obtain rfl := Except.ok.inj (current.symm.trans hlast)
    exact room
  · exact fun room => ⟨_, current, room⟩

theorem Stands.get_user (h : app.Stands store tables) (id : RecordId) :
    app.collections.users.get store id = .ok (tables.users.records id) :=
  (h.hold .user).get_eq h.reliable id

theorem Stands.isQueued (h : app.Stands store tables) (id : RecordId) :
    Queue.isQueued store id = .ok (tables.tasks.records id).isSome :=
  Queue.isQueued_eq (h.hold .task).represents h.reliable id

/-- A record that is stored as new is valid. -/
theorem valid_of_added {c : Collections} {contents : Contents} (hold : c.Hold contents tables')
    (kind : RecordKind) {table : Table kind.type} {record : kind.type}
    (hadd : tables'.of kind = table.add record) :
    Record.validate (Record.withId record table.next) = .ok () := by
  refine ((hold kind).represents.sound table.next _ ?_).valid
  rw [hadd]
  exact table.records_add_next record

/-- What a delivery makes of the tables shows that all was given: what is stored afterwards is
valid, and no two users have one name. -/
theorem Stands.further_of_delivered (h : app.Stands store tables) (numbered : tables.Numbered)
    (hold : app.collections.Hold after.contents tables') {id : RecordId}
    (delivered : Delivered ctx tables message id tables') : app.Further ctx store message := by
  have room_of := fun kind => (h.hasRoom_iff kind).2
  cases delivered with
  | @createUser username bio room =>
    have valid := ValidationErrors.result_ofChecks.1 (valid_of_added hold .user rfl)
    simp only [List.forall_mem_cons] at valid
    refine ⟨Check.time_eq_ok.1 valid.2.2.2.1, room_of .user room, fun i user huser same => ?_⟩
    rw [h.get_user, Except.ok.injEq] at huser
    have old : i ≠ tables.users.next := room.ne_next (numbered.users i user huser)
    -- the new user and the old one would have one key in the index of usernames
    refine old ((hold .user).represents.distinct _ List.mem_cons_self rfl i tables.users.next user _
      (Utf8.encode user.username) ?_ (tables.users.records_add_next _) rfl ?_)
    · exact (tables.users.records_add _ i).trans ((if_neg old).trans huser)
    · rw [same]
      rfl
  | createBlog signed room =>
    have valid := ValidationErrors.result_ofChecks.1 (valid_of_added hold .blog rfl)
    simp only [List.forall_mem_cons] at valid
    refine ⟨Check.time_eq_ok.1 valid.2.2.2.2.1, room_of .blog room, fun zero => ?_⟩
    exact Field.owner_eq_ok.1 valid.2.1 (Except.ok.inj (signed.symm.trans zero))
  | createArticle found signed room =>
    have valid := ValidationErrors.result_ofChecks.1 (valid_of_added hold .article rfl)
    simp only [List.forall_mem_cons] at valid
    exact ⟨Check.time_eq_ok.1 valid.2.2.2.2.2.1, room_of .article room, fun none => by cases none⟩
  | scheduleArticle found signed room ahead queue_room =>
    have valid := ValidationErrors.result_ofChecks.1 (valid_of_added hold .article rfl)
    simp only [List.forall_mem_cons] at valid
    exact ⟨Check.time_eq_ok.1 valid.2.2.2.2.2.1, room_of .article room,
      fun _ => room_of .task queue_room⟩
  | changeBlogOwner | deleteArticle => trivial
  | cancelDeletion found signed queued =>
    show Queue.isQueued store _ = .ok true
    rw [h.isQueued, queued]
    rfl
  | createComment found signed room =>
    have valid := ValidationErrors.result_ofChecks.1 (valid_of_added hold .comment rfl)
    simp only [List.forall_mem_cons] at valid
    refine ⟨Check.time_eq_ok.1 valid.2.2.2.2.1, room_of .comment room, fun zero => ?_⟩
    exact Field.owner_eq_ok.1 valid.2.2.1 (Except.ok.inj (signed.symm.trans zero))
  | createLike found signed room =>
    have valid := ValidationErrors.result_ofChecks.1 (valid_of_added hold .like rfl)
    simp only [List.forall_mem_cons] at valid
    refine ⟨Check.time_eq_ok.1 valid.2.2.2.1, room_of .like room, fun zero => ?_⟩
    exact Field.owner_eq_ok.1 valid.2.2.1 (Except.ok.inj (signed.symm.trans zero))

/-! ### Deliveries that succeed -/

theorem router_check_eq_ok {cost : UInt64} (h : app.router.check ctx message store = .ok cost) :
    message.validate = .ok () ∧ app.router.route message =
        .ok (Router.mainHandler app.collections app.deletions app.config.gas message.kind)
      ∧ (Router.mainHandler app.collections app.deletions app.config.gas message.kind).check ctx
          message store = .ok cost := by
  obtain ⟨handler, hroute, hcheck⟩ := bind_eq_ok.1 h
  obtain ⟨rfl, valid⟩ := route_eq_ok hroute
  exact ⟨valid, hroute, hcheck⟩

/-- What a check accepts is delivered if all else that a delivery needs is given. -/
theorem Stands.deliver_ok (h : (ofConfig config).Stands store tables) {cost : UInt64}
    (hcheck : (ofConfig config).check ctx message store = .ok cost)
    (further : (ofConfig config).Further ctx store message) :
    ∃ answer, ((ofConfig config).deliver ctx message store).1 = .ok answer := by
  obtain ⟨valid, hroute, hcheck⟩ := router_check_eq_ok hcheck
  have hold : (ofConfig config).collections.Hold store.stage.contents tables := h.hold
  have hstage := Store.reliable_stage h.reliable
  have room_of := fun kind => (h.hasRoom_iff kind).1
  have handled : Handler.Succeeds store.stage ((Router.mainHandler (ofConfig config).collections
      (ofConfig config).deletions config.gas message.kind).deliver ctx message) := by
    cases message with
    | createUser username bio =>
      obtain ⟨dated, room, free⟩ := further
      refine Handler.createUser_ok hold hstage valid dated (room_of .user room) ?_
      exact fun id user huser => free id user ((h.get_user id).trans (congrArg Except.ok huser))
    | createBlog title description =>
      obtain ⟨dated, room, nonzero⟩ := further
      exact Handler.createBlog_ok hold hstage valid hcheck dated (room_of .blog room) nonzero
    | changeBlogOwner blogId newOwner => exact Handler.changeBlogOwner_ok hold hstage valid hcheck
    | createArticle blogId title content deleteAt =>
      obtain ⟨dated, room, queue_room⟩ := further
      exact Handler.createArticle_ok hold hstage valid hcheck dated (room_of .article room)
        fun scheduled => room_of .task (queue_room scheduled)
    | deleteArticle articleId => exact Handler.deleteArticle_ok hold hstage hcheck
    | cancelDeletion taskId =>
      have queued : Queue.isQueued store taskId = .ok true := further
      rw [h.isQueued, Except.ok.injEq] at queued
      exact Handler.cancelDeletion_ok hold hstage hcheck queued
    | createComment articleId content =>
      obtain ⟨dated, room, nonzero⟩ := further
      exact Handler.createComment_ok hold hstage valid hcheck dated (room_of .comment room) nonzero
    | createLike articleId =>
      obtain ⟨dated, room, nonzero⟩ := further
      exact Handler.createLike_ok hold hstage valid hcheck dated (room_of .like room) nonzero
  -- what succeeds on the overlay is committed, which a reliable store does not refuse
  obtain ⟨answer, overlay, hrun⟩ := handled
  have hrun : store.stage.perform ((ofConfig config).router.deliver ctx message) =
      (.ok answer, overlay) := Store.perform_read_bind_eq_ok.2 ⟨_, hroute, hrun⟩
  obtain ⟨after, hcommit, -⟩ := Store.commit_perform_stage h.reliable
    ((ofConfig config).router.deliver ctx message)
  rw [hrun] at hcommit
  refine ⟨answer, ?_⟩
  rw [App.deliver, Store.transact, hrun]
  simp only [hcommit]

/-- After every run, a check changes nothing and is followed by the delivery in its errors, and a
delivery succeeds exactly if the check does and all else that it needs is given. A delivery that
fails changes nothing. -/
theorem check_and_deliver_agree (config : Config) (calls : List Call) (ctx : Context)
    (message : Message) :
    let app := ofConfig config
    let store := app.reached calls
    app.step store (.check ctx message) = store
      ∧ (∀ error, app.check ctx message store = .error error →
          (app.deliver ctx message store).1 = .error error)
      ∧ ((∃ answer, (app.deliver ctx message store).1 = .ok answer) ↔
          (∃ cost, app.check ctx message store = .ok cost) ∧ app.Further ctx store message)
      ∧ ∀ error, (app.deliver ctx message store).1 = .error error →
          (app.deliver ctx message store).2 = store := by
  intro app store
  obtain ⟨tables, stands, numbered⟩ := exists_numbered config calls
  refine ⟨rfl, fun error h => congrArg Prod.fst (deliver_of_check_error h), ?_, ?_⟩
  · constructor
    · rintro ⟨answer, hanswer⟩
      refine ⟨?_, ?_⟩
      · cases hcheck : app.check ctx message store with
        | ok cost => exact ⟨cost, rfl⟩
        | error error =>
          rw [deliver_of_check_error hcheck] at hanswer
          cases hanswer
      · rcases deliver_cases stands.reliable stands.hold ctx message with
          ⟨error, hdeliver⟩ | ⟨id, tables', after, -, -, hold, delivered⟩
        · rw [show app.deliver ctx message store = _ from hdeliver] at hanswer
          cases hanswer
        · exact stands.further_of_delivered numbered hold delivered
    · rintro ⟨⟨cost, hcheck⟩, further⟩
      exact stands.deliver_ok hcheck further
  · intro error hfailed
    rcases deliver_cases stands.reliable stands.hold ctx message with
      ⟨error', hdeliver⟩ | ⟨id, tables', after, hdeliver, -⟩
    · exact congrArg Prod.snd hdeliver
    · rw [show app.deliver ctx message store = _ from hdeliver] at hfailed
      cases hfailed

/-- After `posted` the article can be liked, but not at the epoch, although the check does not
mind; a like of another article is refused by both. -/
theorem check_and_deliver_agree_posted :
    let app := ofConfig {}
    let store := app.reached posted
    (∃ answer, (app.deliver ⟨⟨12⟩, [ada]⟩ (.createLike ⟨1⟩) store).1 = .ok answer)
      ∧ app.check ⟨⟨0⟩, [ada]⟩ (.createLike ⟨1⟩) store = .ok 1
      ∧ (app.deliver ⟨⟨0⟩, [ada]⟩ (.createLike ⟨1⟩) store).2 = store
      ∧ (app.deliver ⟨⟨12⟩, [ada]⟩ (.createLike ⟨2⟩) store).1 =
          .error (.store (.notFound "article" ⟨2⟩)) := by
  intro app store
  have accepted : app.check ⟨⟨12⟩, [ada]⟩ (.createLike ⟨1⟩) store = .ok 1 := by decide +kernel
  have counted : app.collections.likes.counter.current store = .ok 0 := by decide +kernel
  have further : app.Further ⟨⟨12⟩, [ada]⟩ store (.createLike ⟨1⟩) :=
    ⟨by decide, ⟨0, counted, by decide⟩, by decide⟩
  have undated : (app.deliver ⟨⟨0⟩, [ada]⟩ (.createLike ⟨1⟩) store).1 =
      .error (.store (.validation ⟨[⟨"CreatedAt", .empty⟩]⟩)) := by decide +kernel
  have absent : app.check ⟨⟨12⟩, [ada]⟩ (.createLike ⟨2⟩) store =
      .error (.store (.notFound "article" ⟨2⟩)) := by decide +kernel
  exact ⟨(check_and_deliver_agree {} posted _ _).2.2.1.2 ⟨⟨1, accepted⟩, further⟩,
    by decide +kernel, (check_and_deliver_agree {} posted _ _).2.2.2 _ undated,
    (check_and_deliver_agree {} posted _ _).2.1 _ absent⟩

end App

end Gazette
