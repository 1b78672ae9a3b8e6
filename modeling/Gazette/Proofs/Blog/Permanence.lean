import Gazette.Proofs.Blog.Counting
import Gazette.Proofs.Blog.Removal

set_option autoImplicit false

/-! # What stays as it is

A call that is not a delivery with success changes no record, but takes away articles with their
tasks if it runs some. A delivery changes at most one record that was there before: the owner of a
blog, or one of the two counts of an article. It can take away an article, or a ticket and its task.

That a record which is new replaces none that was there follows from the order of the IDs
(`Tables.Orderly`), and that a count is raised by one from the counts being right
(`Tables.Counted`).
-/

namespace Gazette

/-! ## Tables before and after -/

namespace Table

variable {ρ : Type} {table table' : Table ρ}

/-- Every record of the one table is in the other, as it is. -/
def Within (table table' : Table ρ) : Prop :=
  table.All fun id record => table'.records id = some record

/-- No ID has different records in the two tables. -/
def Agrees (table table' : Table ρ) : Prop :=
  table.All fun id record => ∀ record', table'.records id = some record' → record' = record

theorem Within.refl (table : Table ρ) : table.Within table := fun _ _ hrecord => hrecord

theorem Within.agrees (h : table.Within table') : table.Agrees table' :=
  fun id record hrecord _ hrecord' =>
    Option.some.inj (hrecord'.symm.trans (h id record hrecord))

/-- If all records have IDs that were issued, a new one replaces none of them. -/
theorem HasRoom.within_add [Record ρ] (room : table.HasRoom)
    (issued : table.All fun id _ => table.HandedOut id) (record : ρ) :
    table.Within (table.add record) :=
  fun id old hold => (room.records_add (issued id old hold).2 record).trans hold

theorem agrees_erase (table : Table ρ) (id : RecordId) : table.Agrees (table.erase id) := by
  intro i record hrecord record' hrecord'
  rw [records_erase] at hrecord'
  by_cases same : i = id
  · rw [if_pos same] at hrecord'
    cases hrecord'
  · rw [if_neg same] at hrecord'
    exact Option.some.inj (hrecord'.symm.trans hrecord)

end Table

/-- Users, comments and likes are still there, as they were. -/
structure Tables.Grow (tables tables' : Tables) : Prop where
  users : tables.users.Within tables'.users
  comments : tables.comments.Within tables'.comments
  likes : tables.likes.Within tables'.likes

theorem Tables.Grow.refl (tables : Tables) : tables.Grow tables :=
  ⟨.refl _, .refl _, .refl _⟩

/-! ## What becomes of a record -/

variable {tables tables' : Tables} {ctx : Context} {message : Message} {id i : RecordId}

/-- What a message that is delivered makes of the blog under this ID. -/
inductive BlogFate (ctx : Context) (message : Message) (id : RecordId) (blog : Blog)
    (after : Option Blog) : Prop
  | given (newOwner : Address) (asked : message = .changeBlogOwner id newOwner)
      (signed : ctx.mainSigner = .ok blog.owner)
      (now : after = some { blog with owner := newOwner })
  | kept (unasked : ∀ newOwner, message ≠ .changeBlogOwner id newOwner)
      (now : after = some blog)

/-- What a message that is delivered makes of the article under this ID. -/
inductive ArticleFate (ctx : Context) (message : Message) (id : RecordId) (article : Article)
    (after : Option Article) : Prop
  | commented (content : String) (asked : message = .createComment id content)
      (fits : article.commentCount.toNat + 1 < UInt64.size)
      (now : after = some { article with commentCount := article.commentCount + 1 })
  | liked (asked : message = .createLike id)
      (fits : article.likeCount.toNat + 1 < UInt64.size)
      (now : after = some { article with likeCount := article.likeCount + 1 })
  | deleted (asked : message = .deleteArticle id)
      (signed : ctx.mainSigner = .ok article.owner) (now : after = none)
  | kept (uncommented : ∀ content, message ≠ .createComment id content)
      (unliked : message ≠ .createLike id) (now : after = some article)

/-- What a message that is delivered makes of the ticket with this ID. -/
inductive TicketFate (ctx : Context) (message : Message) (id : RecordId) (ticket : DeletionTicket)
    (after : Option DeletionTicket) : Prop
  | cancelled (asked : message = .cancelDeletion id)
      (signed : ctx.mainSigner = .ok ticket.owner) (now : after = none)
  | kept (now : after = some ticket)

namespace Delivered

variable (delivered : Delivered ctx tables message id tables') (orderly : tables.Orderly)

include delivered orderly

theorem grow : tables.Grow tables' := by
  have same := Tables.Grow.refl tables
  cases delivered with
  | createUser room => exact { same with users := room.within_add orderly.users.handedOut _ }
  | createComment found signed room =>
    exact { same with comments := room.within_add orderly.comments.handedOut _ }
  | createLike found signed room =>
    exact { same with likes := room.within_add orderly.likes.handedOut _ }
  | createBlog | changeBlogOwner | createArticle | scheduleArticle | deleteArticle
  | cancelDeletion => exact { same with }

theorem blog_fate {blog : Blog} (found : tables.blogs.records i = some blog) :
    BlogFate ctx message i blog (tables'.blogs.records i) := by
  cases delivered with
  | createBlog signed room =>
    exact .kept nofun (room.within_add orderly.blogs.handedOut _ i blog found)
  | @changeBlogOwner _ newOwner old stored signed =>
    by_cases same : i = id
    · subst same
      obtain rfl := Option.some.inj (found.symm.trans stored)
      exact .given newOwner rfl signed (Table.records_set_self ..)
    · refine .kept ?_ ((Table.records_set ..).trans ((if_neg same).trans found))
      intro newOwner asked
      cases asked
      exact same rfl
  | createUser | createArticle | scheduleArticle | deleteArticle | cancelDeletion | createComment
  | createLike => exact .kept nofun found

theorem article_fate (counted : tables.Counted) {article : Article}
    (found : tables.articles.records i = some article) :
    ArticleFate ctx message i article (tables'.articles.records i) := by
  cases delivered with
  | createArticle blog signed room | scheduleArticle blog signed room =>
    exact .kept nofun nofun (room.within_add orderly.articles _ i article found)
  | deleteArticle stored signed =>
    by_cases same : i = id
    · subst same
      obtain rfl := Option.some.inj (found.symm.trans stored)
      exact .deleted rfl signed ((Table.records_erase ..).trans (if_pos rfl))
    · exact .kept nofun nofun ((Table.records_erase ..).trans ((if_neg same).trans found))
  | @createComment articleId content old owner stored signed room =>
    by_cases same : i = articleId
    · subst same
      obtain rfl := Option.some.inj (found.symm.trans stored)
      exact .commented content rfl (counted.comments.fits orderly.comments room i article found)
        (Table.records_set_self ..)
    · refine .kept ?_ nofun ((Table.records_set ..).trans ((if_neg same).trans found))
      intro content asked
      cases asked
      exact same rfl
  | @createLike articleId old owner stored signed room =>
    by_cases same : i = articleId
    · subst same
      obtain rfl := Option.some.inj (found.symm.trans stored)
      exact .liked rfl (counted.likes.fits orderly.likes room i article found)
        (Table.records_set_self ..)
    · refine .kept nofun ?_ ((Table.records_set ..).trans ((if_neg same).trans found))
      intro asked
      cases asked
      exact same rfl
  | createUser | createBlog | changeBlogOwner | cancelDeletion => exact .kept nofun nofun found

theorem ticket_fate {ticket : DeletionTicket} (found : tables.tickets.records i = some ticket) :
    TicketFate ctx message i ticket (tables'.tickets.records i) := by
  cases delivered with
  | scheduleArticle blog signed room ahead queue_room =>
    -- the new ticket has the number of the new task, which no ticket had before
    have other : i ≠ tables.tasks.next := queue_room.ne_next (orderly.tickets i ticket found).2
    exact .kept ((Table.records_set ..).trans ((if_neg other).trans found))
  | cancelDeletion stored signed queued =>
    by_cases same : i = id
    · subst same
      obtain rfl := Option.some.inj (found.symm.trans stored)
      exact .cancelled rfl signed ((Table.records_erase ..).trans (if_pos rfl))
    · exact .kept ((Table.records_erase ..).trans ((if_neg same).trans found))
  | createUser | createBlog | changeBlogOwner | createArticle | deleteArticle | createComment
  | createLike => exact .kept found

theorem tasks_agree : tables.tasks.Agrees tables'.tasks := by
  cases delivered with
  | scheduleArticle blog signed room ahead queue_room =>
    exact (queue_room.within_add orderly.tasks _).agrees
  | cancelDeletion => exact tables.tasks.agrees_erase id
  | createUser | createBlog | changeBlogOwner | createArticle | deleteArticle | createComment
  | createLike => exact (Table.Within.refl _).agrees

end Delivered

/-! ## Tasks that are run -/

variable {now : UnixTime} {ids : List RecordId}

/-- Running tasks is about articles and tasks only. -/
theorem Executed.of_eq {fired : Fired} (executed : Executed now tables id fired tables')
    (kind : RecordKind) (not_article : kind ≠ .article) (not_task : kind ≠ .task) :
    tables'.of kind = tables.of kind := by
  cases executed with
  | missing | notDue => rfl
  | completed =>
    cases kind with
    | article => exact absurd rfl not_article
    | task => exact absurd rfl not_task
    | user | blog | comment | like | ticket => rfl

theorem ExecutedAll.of_eq (executed : ExecutedAll now tables ids tables') (kind : RecordKind)
    (not_article : kind ≠ .article) (not_task : kind ≠ .task) :
    tables'.of kind = tables.of kind := by
  induction executed with
  | nil => rfl
  | cons first later ih => exact ih.trans (first.of_eq kind not_article not_task)

theorem ExecutedAll.frame (executed : ExecutedAll now tables ids tables') :
    (∀ i stored, tables'.articles.records i = some stored →
        tables.articles.records i = some stored)
      ∧ ∀ i task, tables'.tasks.records i = some task → tables.tasks.records i = some task := by
  induction executed with
  | nil => exact ⟨fun _ _ h => h, fun _ _ h => h⟩
  | cons first later ih =>
    exact ⟨fun i stored h => first.frame.1 i stored (ih.1 i stored h),
      fun i task h => first.frame.2 i task (ih.2 i task h)⟩

/-! ## One call -/

namespace App

variable {config : Config} {app : App} {store : Store} {call : Call}

/-- The call delivers the message, with success. -/
def Delivers (app : App) (store : Store) (call : Call) (message : Message) : Prop :=
  ∃ ctx answer, call = .deliver ctx message ∧ (app.deliver ctx message store).1 = .ok answer

/-- What a call makes of the tables: nothing, what a message says that is delivered, or what comes
of running tasks. -/
inductive Effect (app : App) (store : Store) (tables : Tables) : Call → Tables → Prop
  | idle {call : Call} (silent : ∀ message, ¬ app.Delivers store call message) :
      Effect app store tables call tables
  | deliver {ctx : Context} {message : Message} {id : RecordId} {tables' : Tables}
      (done : (app.deliver ctx message store).1 = .ok (some id))
      (delivered : Delivered ctx tables message id tables') :
      Effect app store tables (.deliver ctx message) tables'
  | run {call : Call} {now : UnixTime} {ids : List RecordId} {tables' : Tables}
      (silent : ∀ message, ¬ app.Delivers store call message)
      (executed : ExecutedAll now tables ids tables') : Effect app store tables call tables'

theorem delivers_iff {answer : Option RecordId}
    (done : (app.deliver ctx message store).1 = .ok answer) (asked : Message) :
    app.Delivers store (.deliver ctx message) asked ↔ message = asked := by
  constructor
  · rintro ⟨ctx', answer', same, -⟩
    cases same
    rfl
  · rintro rfl
    exact ⟨ctx, answer, rfl, done⟩

theorem Stands.effect (h : (ofConfig config).Stands store tables) (call : Call) :
    ∃ tables', (ofConfig config).Effect store tables call tables'
      ∧ (ofConfig config).Stands ((ofConfig config).step store call) tables' := by
  cases call with
  | deliver ctx message =>
    rcases h.deliver ctx message with
      ⟨⟨error, hfailed⟩, same⟩ | ⟨id, tables', done, delivered, h'⟩
    · refine ⟨tables, .idle ?_, same.symm ▸ h⟩
      rintro asked ⟨ctx', answer, heq, done⟩
      cases heq
      rw [hfailed] at done
      cases done
    · exact ⟨tables', .deliver done delivered, h'⟩
  | check ctx message => exact ⟨tables, .idle (by rintro _ ⟨_, _, ⟨⟩, -⟩), h⟩
  | tick now =>
    obtain ⟨ids, tables', executed, h'⟩ := h.tick now
    exact ⟨tables', .run (by rintro _ ⟨_, _, ⟨⟩, -⟩) executed, h'⟩
  | fire taskId now =>
    obtain ⟨fired, tables', executed, h'⟩ := h.fire taskId now
    exact ⟨tables', .run (by rintro _ ⟨_, _, ⟨⟩, -⟩) (.cons executed .nil), h'⟩

/-- What a call makes of a blog: it gives the blog away if it delivers that message, and leaves it
as it is otherwise. -/
structure KeepsBlog (app : App) (store : Store) (call : Call) (id : RecordId)
    (blog blog' : Blog) : Prop where
  given : ∀ newOwner, app.Delivers store call (.changeBlogOwner id newOwner) →
    blog' = { blog with owner := newOwner }
  kept : (∀ newOwner, ¬ app.Delivers store call (.changeBlogOwner id newOwner)) → blog' = blog

/-- What a call makes of an article that it does not take away: it raises a count by one if it
delivers a comment on it or a like of it, and leaves it as it is otherwise. -/
structure KeepsArticle (app : App) (store : Store) (call : Call) (id : RecordId)
    (article article' : Article) : Prop where
  commented : ∀ content, app.Delivers store call (.createComment id content) →
    article' = { article with commentCount := article'.commentCount }
      ∧ article'.commentCount.toNat = article.commentCount.toNat + 1
  liked : app.Delivers store call (.createLike id) →
    article' = { article with likeCount := article'.likeCount }
      ∧ article'.likeCount.toNat = article.likeCount.toNat + 1
  kept : (∀ content, ¬ app.Delivers store call (.createComment id content)) →
    ¬ app.Delivers store call (.createLike id) → article' = article

theorem KeepsBlog.of_silent (silent : ∀ message, ¬ app.Delivers store call message)
    (blog : Blog) : app.KeepsBlog store call id blog blog where
  given _ asked := absurd asked (silent _)
  kept _ := rfl

theorem KeepsArticle.of_silent (silent : ∀ message, ¬ app.Delivers store call message)
    (article : Article) : app.KeepsArticle store call id article article where
  commented _ asked := absurd asked (silent _)
  liked asked := absurd asked (silent _)
  kept _ _ := rfl

namespace Effect

variable (effect : Effect app store tables call tables') (orderly : tables.Orderly)

include effect orderly

theorem grow : tables.Grow tables' := by
  cases effect with
  | idle => exact .refl tables
  | deliver done delivered => exact delivered.grow orderly
  | run silent executed =>
    have users : tables'.users = tables.users := executed.of_eq .user nofun nofun
    have comments : tables'.comments = tables.comments := executed.of_eq .comment nofun nofun
    have likes : tables'.likes = tables.likes := executed.of_eq .like nofun nofun
    exact ⟨users ▸ .refl _, comments ▸ .refl _, likes ▸ .refl _⟩

theorem ticket {ticket : DeletionTicket} (found : tables.tickets.records i = some ticket) :
    (app.Delivers store call (.cancelDeletion i) ∧ tables'.tickets.records i = none) ∨
      tables'.tickets.records i = some ticket := by
  cases effect with
  | idle => exact .inr found
  | deliver done delivered =>
    cases delivered.ticket_fate orderly found with
    | cancelled asked signed now => exact .inl ⟨(delivers_iff done _).2 asked, now⟩
    | kept now => exact .inr now
  | run silent executed =>
    have tickets : tables'.tickets = tables.tickets := executed.of_eq .ticket nofun nofun
    exact .inr (tickets ▸ found)

theorem tasks_agree : tables.tasks.Agrees tables'.tasks := by
  cases effect with
  | idle => exact (Table.Within.refl _).agrees
  | deliver done delivered => exact delivered.tasks_agree orderly
  | run silent executed =>
    intro i task htask task' htask'
    exact Option.some.inj ((executed.frame.2 i task' htask').symm.trans htask)

/-- Whatever is no blog and no article is not changed. -/
theorem agrees {kind : RecordKind} (not_blog : kind ≠ .blog) (not_article : kind ≠ .article) :
    (tables.of kind).Agrees (tables'.of kind) := by
  cases kind with
  | user => exact (effect.grow orderly).users.agrees
  | comment => exact (effect.grow orderly).comments.agrees
  | like => exact (effect.grow orderly).likes.agrees
  | task => exact effect.tasks_agree orderly
  | ticket =>
    intro i ticket hticket ticket' hticket'
    rcases effect.ticket orderly hticket with ⟨-, gone⟩ | same
    · cases hticket'.symm.trans gone
    · exact Option.some.inj (hticket'.symm.trans same)
  | blog => exact absurd rfl not_blog
  | article => exact absurd rfl not_article

theorem blog {blog : Blog} (found : tables.blogs.records i = some blog) :
    ∃ blog', tables'.blogs.records i = some blog' ∧ app.KeepsBlog store call i blog blog' := by
  cases effect with
  | idle silent => exact ⟨blog, found, .of_silent silent blog⟩
  | deliver done delivered =>
    have asks := delivers_iff done
    cases delivered.blog_fate orderly found with
    | given newOwner asked signed now =>
      refine ⟨_, now, ⟨fun other hother => ?_, fun unasked => ?_⟩⟩
      · cases asked.symm.trans ((asks _).1 hother)
        rfl
      · exact absurd ((asks _).2 asked) (unasked newOwner)
    | kept unasked now =>
      exact ⟨blog, now, ⟨fun other hother => absurd ((asks _).1 hother) (unasked other),
        fun _ => rfl⟩⟩
  | run silent executed =>
    have blogs : tables'.blogs = tables.blogs := executed.of_eq .blog nofun nofun
    exact ⟨blog, blogs ▸ found, .of_silent silent blog⟩

theorem article (counted : tables.Counted) {article article' : Article}
    (found : tables.articles.records i = some article)
    (found' : tables'.articles.records i = some article') :
    app.KeepsArticle store call i article article' := by
  cases effect with
  | idle silent =>
    obtain rfl := Option.some.inj (found.symm.trans found')
    exact .of_silent silent _
  | deliver done delivered =>
    have asks := delivers_iff done
    cases delivered.article_fate orderly counted found with
    | commented content asked fits now =>
      obtain rfl := Option.some.inj (now.symm.trans found')
      refine ⟨fun _ _ => ⟨rfl, toNat_add_one fits⟩, fun hlike => ?_, fun unasked => ?_⟩
      · cases asked.symm.trans ((asks _).1 hlike)
      · exact absurd ((asks _).2 asked) (unasked content)
    | liked asked fits now =>
      obtain rfl := Option.some.inj (now.symm.trans found')
      refine ⟨fun _ hcomment => ?_, fun _ => ⟨rfl, toNat_add_one fits⟩, fun _ unasked => ?_⟩
      · cases asked.symm.trans ((asks _).1 hcomment)
      · exact absurd ((asks _).2 asked) unasked
    | deleted asked signed now => cases found'.symm.trans now
    | kept uncommented unliked now =>
      obtain rfl := Option.some.inj (now.symm.trans found')
      exact ⟨fun content hcomment => absurd ((asks _).1 hcomment) (uncommented content),
        fun hlike => absurd ((asks _).1 hlike) unliked, fun _ _ => rfl⟩
  | run silent executed =>
    obtain rfl := Option.some.inj ((executed.frame.1 i article' found').symm.trans found)
    exact .of_silent silent _

end Effect

/-- After every run the next call, whatever it is, leaves the records that are stored before and
after it as they are, but for the owner of a blog that is given away and the counts of an article
that is commented on or liked. Users, blogs, comments and likes stay, and a ticket goes only when
its deletion is cancelled. -/
theorem records_permanent (config : Config) (calls : List Call) (call : Call) :
    let app := ofConfig config
    let c := app.collections
    let store := app.reached calls
    let after := app.step store call
    (∀ kind id, (∃ record, (c.bucketOf kind).get store id = .ok record)
      ∧ ∃ record, (c.bucketOf kind).get after id = .ok record)
    ∧ (∀ kind ∈ [RecordKind.user, .comment, .like, .ticket, .task], ∀ id record record',
        (c.bucketOf kind).get store id = .ok (some record) →
        (c.bucketOf kind).get after id = .ok (some record') → record' = record)
    ∧ (∀ id blog blog', c.blogs.get store id = .ok (some blog) →
        c.blogs.get after id = .ok (some blog') → app.KeepsBlog store call id blog blog')
    ∧ (∀ id article article', c.articles.get store id = .ok (some article) →
        c.articles.get after id = .ok (some article') →
        app.KeepsArticle store call id article article')
    ∧ (∀ kind ∈ [RecordKind.user, .blog, .comment, .like], ∀ id,
        c.Stores store kind id → c.Stores after kind id)
    ∧ ∀ id, c.Stores store .ticket id → ¬ c.Stores after .ticket id →
        app.Delivers store call (.cancelDeletion id) := by
  intro app c store after
  obtain ⟨tables, stands, orderly, counted⟩ := exists_counted config calls
  obtain ⟨tables', effect, stands'⟩ := stands.effect call
  have before_iff := fun kind id => stands.stores_iff kind id
  have after_iff := fun kind id => stands'.stores_iff kind id
  refine ⟨fun kind id => ⟨⟨_, stands.get_eq kind id⟩, ⟨_, stands'.get_eq kind id⟩⟩,
    ?_, ?_, ?_, ?_, ?_⟩
  · intro kind hkind id record record' hrecord hrecord'
    rw [stands.get_eq, Except.ok.injEq] at hrecord
    rw [stands'.get_eq, Except.ok.injEq] at hrecord'
    have not_blog : kind ≠ .blog := by rintro rfl; simp at hkind
    have not_article : kind ≠ .article := by rintro rfl; simp at hkind
    exact effect.agrees orderly not_blog not_article id record hrecord record' hrecord'
  · intro id blog blog' hblog hblog'
    have found := Except.ok.inj ((stands.get_eq .blog id).symm.trans hblog)
    obtain ⟨now, hnow, keeps⟩ := effect.blog orderly found
    have found' := Except.ok.inj ((stands'.get_eq .blog id).symm.trans hblog')
    obtain rfl := Option.some.inj (hnow.symm.trans found')
    exact keeps
  · intro id article article' harticle harticle'
    rw [stands.get_article, Except.ok.injEq] at harticle
    rw [stands'.get_article, Except.ok.injEq] at harticle'
    exact effect.article orderly counted harticle harticle'
  · intro kind hkind id hstored
    rw [before_iff] at hstored
    rw [after_iff]
    obtain ⟨record, hrecord⟩ := hstored
    have grow := effect.grow orderly
    simp only [List.mem_cons, List.not_mem_nil, or_false] at hkind
    rcases hkind with rfl | rfl | rfl | rfl
    · exact ⟨record, grow.users id record hrecord⟩
    · obtain ⟨blog', hblog', -⟩ := effect.blog orderly hrecord
      exact ⟨blog', hblog'⟩
    · exact ⟨record, grow.comments id record hrecord⟩
    · exact ⟨record, grow.likes id record hrecord⟩
  · intro id hstored hgone
    rw [before_iff] at hstored
    rw [after_iff] at hgone
    obtain ⟨ticket, hticket⟩ := hstored
    rcases effect.ticket orderly hticket with ⟨asked, -⟩ | same
    · exact asked
    · exact absurd ⟨ticket, same⟩ hgone

/-- After `discussed`, one more like changes nothing about the article but the count of likes, and
the ticket, which a deletion by the queue would leave, goes with a cancellation. -/
theorem records_permanent_discussed :
    let app := ofConfig {}
    let c := app.collections
    let store := app.reached discussed
    let like := Call.deliver ⟨⟨15⟩, [ada]⟩ (.createLike ⟨1⟩)
    let cancel := Call.deliver ⟨⟨15⟩, [ada]⟩ (.cancelDeletion ⟨1⟩)
    app.KeepsArticle store like ⟨1⟩ { wheels with commentCount := 2, likeCount := 1 }
        { wheels with commentCount := 2, likeCount := 2 }
      ∧ c.Stores (app.step store cancel) .comment ⟨2⟩
      ∧ app.Delivers store cancel (.cancelDeletion ⟨1⟩) := by
  intro app c store like cancel
  obtain ⟨-, -, -, articles, -, -⟩ := records_permanent {} discussed like
  obtain ⟨-, -, -, -, stays, tickets⟩ := records_permanent {} discussed cancel
  have evaluated : c.articles.get store ⟨1⟩ =
        .ok (some { wheels with commentCount := 2, likeCount := 1 })
      ∧ c.comments.get store ⟨2⟩ = .ok (some ⟨some ⟨2⟩, ⟨1⟩, ada, "Rounder", ⟨14⟩⟩)
      ∧ c.tickets.get store ⟨1⟩ = .ok (some ⟨some ⟨1⟩, ⟨1⟩, ada⟩)
      ∧ c.articles.get (app.step store like) ⟨1⟩ =
        .ok (some { wheels with commentCount := 2, likeCount := 2 })
      ∧ c.tickets.get (app.step store cancel) ⟨1⟩ = .ok none := by decide +kernel
  obtain ⟨article, comment, ticket, liked, gone⟩ := evaluated
  refine ⟨articles ⟨1⟩ _ _ article liked, stays .comment (by decide) ⟨2⟩ ⟨_, comment⟩,
    tickets ⟨1⟩ ⟨_, ticket⟩ ?_⟩
  rintro ⟨found, hfound⟩
  cases gone.symm.trans hfound

end App

end Gazette
