import Gazette.Proofs.Blog.Keys
import Gazette.Proofs.Blog.Run
import Gazette.Proofs.Bucket.History
import Gazette.Proofs.Bucket.Listing

set_option autoImplicit false

/-! # What the queries of the blog answer

Whatever was put into the buckets and deleted from them, every query gives exactly the stored
records that it asks for, each once and in order, and the pages in which entries are fetched have
no part in it (`Collections.queries_exact`).

Articles of one blog are listed by the time of their creation and, within a second, by ID. The
key of this order is the blog followed by the time, so the articles between two times are those
between two keys (`Article.timedKey_in_range_iff`). Before the epoch a time has no place in the
order, and a query that names such a time is refused.
-/

namespace Gazette

namespace Article

/-- The first article was created before the second, or in the same second with a smaller ID. -/
def Older (a b : Article) : Prop :=
  a.createdAt < b.createdAt ∨ (a.createdAt = b.createdAt ∧ Record.Earlier a b)

theorem not_older_self (a : Article) : ¬ Older a a := by
  rintro (less | ⟨-, earlier⟩)
  · exact absurd (UnixTime.lt_iff.1 less) (Int.lt_irrefl _)
  · exact Record.not_earlier_self a earlier

end Article

namespace Collections

/-- Each query gives exactly what is stored and asked for, in order. -/
structure AnswersExactly (c : Collections) (store : Store) : Prop where
  user : ∀ username, ∃ found, c.userByUsername store username = .ok found
    ∧ ∀ user, found = some user ↔
      (∃ id, c.users.get store id = .ok (some user)) ∧ user.username = username
  blogs : ∀ owner, ∃ found, c.blogsByOwner store owner = .ok found
    ∧ c.blogs.Lists store (·.owner = owner) Record.Earlier found
  articles : ∀ blogId, ∃ found, c.articlesByBlog store blogId = .ok found
    ∧ c.articles.Lists store (·.blogId = blogId) Article.Older found
  articles_between : ∀ blogId first upper, ¬ first.isNegative = true → ¬ upper.isNegative = true →
    ∃ found, c.articlesByBlogBetween store blogId first upper = .ok found
      ∧ c.articles.Lists store
          (fun a => a.blogId = blogId ∧ first ≤ a.createdAt ∧ a.createdAt < upper)
          Article.Older found
      ∧ (upper ≤ first → found = [])
  articles_untimed : ∀ blogId first upper, first.isNegative = true ∨ upper.isNegative = true →
    c.articlesByBlogBetween store blogId first upper =
      .error (.invalidState (.untimed (if first.isNegative then first else upper)))
  comments : ∀ articleId, ∃ found, c.commentsByArticle store articleId = .ok found
    ∧ c.comments.Lists store (·.articleId = articleId) Record.Earlier found
  comments_of_user : ∀ owner, ∃ found, c.commentsByUser store owner = .ok found
    ∧ c.comments.Lists store (·.owner = owner) Record.Earlier found
  comments_of_both : ∀ articleId owner, ∃ found,
    c.commentsByArticleUser store articleId owner = .ok found
      ∧ c.comments.Lists store (fun r => r.articleId = articleId ∧ r.owner = owner)
          Record.Earlier found
  likes : ∀ articleId, ∃ found, c.likesByArticle store articleId = .ok found
    ∧ c.likes.Lists store (·.articleId = articleId) Record.Earlier found

theorem always_eq_ok_iff {ρ : Type} {key : ρ → Bytes} {record : ρ} {k : Bytes} :
    always key record = .ok (some k) ↔ key record = k := by
  rw [always, Except.ok.injEq, Option.some.injEq]

/-! ## Articles by time -/

section articles

variable {c : Collections} {store : Store} {records : RecordId → Option Article}

/-- The index of the order of creation. -/
theorem exists_timed (c : Collections) :
    ∃ index, c.articles.indexNamed "timedblog" = .ok index ∧ index.unique = false
      ∧ index.extract = timedBlog :=
  ⟨_, rfl, rfl, rfl⟩

/-- A stored article has its place in the order of creation and in no other. -/
theorem timed_of_stored (h : c.articles.Represents store.contents records) {id : RecordId}
    {a : Article} (ha : records id = some a) :
    (∀ k, timedBlog a = .ok (some k) ↔ k = Article.timedKey a.blogId a.createdAt)
      ∧ ¬ a.createdAt.isNegative = true := by
  obtain ⟨key, not_negative⟩ := Article.timedBlog_of_valid (h.sound id a ha).valid
  refine ⟨fun k => ?_, not_negative⟩
  rw [key, Except.ok.injEq, Option.some.injEq, eq_comm]

/-- The order of the keys is the order of creation, for articles of one blog. -/
theorem older_of_key_order (h : c.articles.Represents store.contents records) {i j : RecordId}
    {a b : Article} (ha : records i = some a) (hb : records j = some b)
    (hblog : a.blogId = b.blogId)
    (order : ∃ a b k l, records i = some a ∧ records j = some b ∧ timedBlog a = .ok (some k)
      ∧ timedBlog b = .ok (some l) ∧ (k < l ∨ (k = l ∧ i < j))) : Article.Older a b := by
  obtain ⟨a', b', k, l, ha', hb', hk, hl, order⟩ := order
  obtain rfl := Option.some.inj (ha.symm.trans ha')
  obtain rfl := Option.some.inj (hb.symm.trans hb')
  obtain ⟨key, after⟩ := timed_of_stored h ha
  obtain ⟨key', after'⟩ := timed_of_stored h hb
  rw [(key k).1 hk, (key' l).1 hl, ← hblog] at order
  rcases order with less | ⟨same, less⟩
  · rcases (Article.timedKey_lt_iff after after').1 less with less | ⟨-, less⟩
    · exact absurd less (UInt64.lt_irrefl _)
    · exact .inl less
  · exact .inr ⟨(Article.eq_of_timedKey_eq after after' same).2, h.earlier_of_lt ha hb less⟩

/-- A walk through the order of creation that stays within one blog lists its articles oldest
first. -/
theorem load_timed (h : c.articles.Represents store.contents records) (hstore : store.Reliable)
    {scan : IndexScan} {ids : List RecordId} (hitems : scan.items store = ids.map .ok)
    {within : Bytes → Prop}
    (hmem : ∀ id, id ∈ ids ↔ ∃ a k, records id = some a ∧ timedBlog a = .ok (some k) ∧ within k)
    (ordered : ids.Pairwise fun i j => ∃ a b k l, records i = some a ∧ records j = some b
      ∧ timedBlog a = .ok (some k) ∧ timedBlog b = .ok (some l) ∧ (k < l ∨ (k = l ∧ i < j)))
    {wanted : Article → Prop} {blogId : RecordId} (hblog : ∀ a, wanted a → a.blogId = blogId)
    (hwanted : ∀ a : Article, ¬ a.createdAt.isNegative = true →
      (within (Article.timedKey a.blogId a.createdAt) ↔ wanted a)) :
    ∃ found, c.articles.load store scan = .ok found
      ∧ c.articles.Lists store wanted Article.Older found := by
  have exact : ∀ id, id ∈ ids ↔ ∃ a, records id = some a ∧ wanted a := fun id => by
    refine (hmem id).trans (exists_congr fun a => ?_)
    simp only [exists_and_left]
    refine and_congr_right fun ha => ?_
    obtain ⟨key, after⟩ := timed_of_stored h ha
    simp only [key, exists_eq_left]
    exact hwanted a after
  have blog_eq : ∀ i ∈ ids, ∀ a, records i = some a → a.blogId = blogId := fun i hi a ha => by
    obtain ⟨a', ha', want⟩ := (exact i).1 hi
    obtain rfl := Option.some.inj (ha.symm.trans ha')
    exact hblog a want
  have stored : ∀ id ∈ ids, ∃ a, records id = some a := fun id hid => by
    obtain ⟨a, ha, -⟩ := (exact id).1 hid
    exact ⟨a, ha⟩
  obtain ⟨found, hload, hfound⟩ := h.load_eq hstore hitems stored
  refine ⟨found, hload, h.lists hstore hfound exact Article.not_older_self
    (ordered.imp_of_mem fun {i j} hi hj order a ha b hb => ?_)⟩
  exact older_of_key_order h ha hb ((blog_eq i hi a ha).trans (blog_eq j hj b hb).symm) order

theorem articlesByBlog_exact (h : c.articles.Represents store.contents records)
    (hstore : store.Reliable) (blogId : RecordId) :
    ∃ found, c.articlesByBlog store blogId = .ok found
      ∧ c.articles.Lists store (·.blogId = blogId) Article.Older found := by
  obtain ⟨⟨name, unique, extract⟩, named, rfl, rfl⟩ := exists_timed c
  have start_fits : blogId.bytes.length ≤ 16 := by
    rw [RecordId.length_bytes]
    decide
  obtain ⟨scan, ids, hquery, hitems, hmem, ordered⟩ := h.queryPrefix_exact hstore
    named (fun _ _ => Article.length_of_timedBlog) start_fits
  obtain ⟨found, hload, hlists⟩ := load_timed h hstore hitems hmem ordered (fun _ same => same)
    fun _ _ => Article.bytes_prefix_timedKey_iff
  exact ⟨found, bind_eq_ok.2 ⟨scan, hquery, hload⟩, hlists⟩

theorem articlesByBlogBetween_exact (h : c.articles.Represents store.contents records)
    (hstore : store.Reliable) (blogId : RecordId) {first upper : UnixTime}
    (hfirst : ¬ first.isNegative = true) (hupper : ¬ upper.isNegative = true) :
    ∃ found, c.articlesByBlogBetween store blogId first upper = .ok found
      ∧ c.articles.Lists store
          (fun a => a.blogId = blogId ∧ first ≤ a.createdAt ∧ a.createdAt < upper)
          Article.Older found := by
  obtain ⟨⟨name, unique, extract⟩, named, rfl, rfl⟩ := exists_timed c
  have fits : ∀ t, (Article.timedKey blogId t).length ≤ 16 := fun t =>
    Nat.le_of_eq (Article.length_timedKey blogId t)
  obtain ⟨scan, ids, hquery, hitems, hmem, ordered⟩ := h.queryRange_exact hstore
    named (fun _ _ => Article.length_of_timedBlog) (fits first) (fits upper)
  obtain ⟨found, hload, hlists⟩ := load_timed h hstore hitems hmem ordered
    (fun _ want => want.1) fun _ after => Article.timedKey_in_range_iff hfirst hupper after
  refine ⟨found, ?_, hlists⟩
  rw [articlesByBlogBetween, timedBound_of_not_negative hfirst, timedBound_of_not_negative hupper]
  exact mapError_eq_ok.2 (bind_eq_ok.2 ⟨scan, hquery, hload⟩)

end articles

/-! ## All queries -/

section

variable {c : Collections} {contents : Contents} {tables : Tables} {store : Store}

/-- The pages in which entries are fetched have no part in what is stored. -/
theorem Hold.withPages {writer : Collections} (h : writer.Hold contents tables)
    (c : Collections) : c.Hold contents tables := fun kind => by
  have same := h kind
  cases kind with
  | task => exact same
  | user | blog | article | comment | like | ticket => exact same.withPages _

theorem Hold.answersExactly (h : c.Hold store.contents tables) (hstore : store.Reliable) :
    c.AnswersExactly store := by
  have address_iff : ∀ a b : Address, a.bytes = b.bytes ↔ a = b := fun a b => by
    rw [Address.mk.injEq]
  have comments := (h .comment).represents
  have articles : c.articles.Represents store.contents tables.articles.records :=
    (h .article).represents
  constructor
  case user =>
    refine fun username => (h .user).represents.oneByUnique_iff hstore rfl rfl fun user => ?_
    exact always_eq_ok_iff.trans ⟨Utf8.encode_injective, congrArg _⟩
  case blogs =>
    refine fun owner => (h .blog).represents.allWith_lists hstore rfl fun blog => ?_
    exact always_eq_ok_iff.trans (address_iff _ _)
  case articles => exact fun blogId => articlesByBlog_exact articles hstore blogId
  case articles_between =>
    intro blogId first upper hfirst hupper
    obtain ⟨found, hfound, hlists⟩ := articlesByBlogBetween_exact articles hstore blogId hfirst hupper
    refine ⟨found, hfound, hlists, fun crossed => List.eq_nil_iff_forall_not_mem.2 fun a ha => ?_⟩
    obtain ⟨-, after, before⟩ := ((hlists.mem_iff a).1 ha).2
    rw [UnixTime.le_iff] at crossed after
    rw [UnixTime.lt_iff] at before
    omega
  case articles_untimed =>
    intro blogId first upper early
    rw [articlesByBlogBetween]
    cases negative : first.isNegative with
    | true =>
      rw [timedBound_of_negative negative]
      rfl
    | false =>
      have negative_upper : upper.isNegative = true := by simpa [negative] using early
      rw [timedBound_of_not_negative (by simp [negative]), timedBound_of_negative negative_upper]
      rfl
  case comments =>
    refine fun articleId => comments.allWith_lists hstore rfl fun comment => ?_
    exact always_eq_ok_iff.trans RecordId.bytes_inj
  case comments_of_user =>
    refine fun owner => comments.allWith_lists hstore rfl fun comment => ?_
    exact always_eq_ok_iff.trans (address_iff _ _)
  case comments_of_both =>
    refine fun articleId owner => comments.allWith_lists hstore rfl fun comment => ?_
    exact always_eq_ok_iff.trans Comment.articleOwnerKey_inj
  case likes =>
    refine fun articleId => (h .like).represents.allWith_lists hstore rfl fun like => ?_
    exact always_eq_ok_iff.trans RecordId.bytes_inj

/-! ## Calls on the buckets -/

/-- A call that may change a bucket of the blog. -/
structure Call where
  kind : RecordKind
  call : Bucket.Call kind.type

/-- The length of a payload that is put can be written down. -/
def Call.Fits : Call → Prop
  | ⟨.task, .put task⟩ => (Task.payload task).length < UInt64.size
  | _ => True

/-- The store after a call, whether it fails or not. -/
def call (c : Collections) (store : Store) (call : Call) : Store :=
  (c.bucketOf call.kind).call store call.call

/-- The store after some calls. -/
def callAll (c : Collections) (store : Store) (calls : List Call) : Store :=
  calls.foldl c.call store

theorem Call.Fits.storable {kind : RecordKind} {record : kind.type}
    (h : Fits ⟨kind, .put record⟩) : Record.Storable record := by
  cases kind with
  | user => exact User.storable record
  | blog => exact Blog.storable record
  | article => exact Article.storable record
  | comment => exact Comment.storable record
  | like => exact Like.storable record
  | ticket => exact DeletionTicket.storable record
  | task => exact Task.storable h

/-- A call changes at most one table. -/
theorem Hold.call (h : c.Hold store.contents tables) (hstore : store.Reliable) {call : Call}
    (hfits : call.Fits) :
    (c.call store call).Reliable ∧ ∃ tables', c.Hold (c.call store call).contents tables' := by
  obtain ⟨kind, call⟩ := call
  cases call with
  | put record =>
    have storable := hfits.storable
    rcases Bucket.put_cases (c.bucketOf kind) hstore.acceptsWrites record with
      ⟨error, hrun⟩ | ⟨plan, after, -, hrun, -, -⟩
    · simp only [Collections.call, Bucket.call, hrun]
      exact ⟨hstore, tables, h⟩
    · simp only [Collections.call, Bucket.call, hrun]
      cases hid : Record.id record with
      | none =>
        obtain ⟨-, -, hafter, hold⟩ := h.put_new hstore kind storable hid hrun
        exact ⟨hafter, _, hold⟩
      | some id =>
        obtain ⟨-, hafter, hold⟩ := h.put_own hstore kind storable hid hrun
        exact ⟨hafter, _, hold⟩
  | delete id =>
    obtain ⟨after, hrun, hafter, hold⟩ := h.delete_eq hstore kind id
    simp only [Collections.call, Bucket.call, hrun]
    exact ⟨hafter, _, hold⟩

theorem Hold.callAll (h : c.Hold store.contents tables) (hstore : store.Reliable)
    {calls : List Call} (hfits : ∀ call ∈ calls, call.Fits) :
    (c.callAll store calls).Reliable
      ∧ ∃ tables', c.Hold (c.callAll store calls).contents tables' := by
  induction calls generalizing store tables with
  | nil => exact ⟨hstore, tables, h⟩
  | cons call rest ih =>
    obtain ⟨hafter, tables', h'⟩ := h.call hstore (hfits call List.mem_cons_self)
    exact ih h' hafter fun a ha => hfits a (List.mem_cons_of_mem _ ha)

end

/-- After any puts and deletes, and after every run of the application, each query gives exactly
what is stored and asked for, however many entries the calls and the query fetch at a time. -/
theorem queries_exact (c : Collections) :
    (∀ (writer : Collections) (calls : List Call), (∀ call ∈ calls, call.Fits) →
        c.AnswersExactly (writer.callAll .memory calls))
      ∧ ∀ (config : Config) (calls : List App.Call),
          c.AnswersExactly ((App.ofConfig config).reached calls) := by
  constructor
  · intro writer calls fits
    obtain ⟨reliable, tables, hold⟩ :=
      (hold_empty writer).callAll (Store.reliable_memory .empty) fits
    exact (hold.withPages c).answersExactly reliable
  · intro config calls
    obtain ⟨tables, stands⟩ := App.exists_stands config calls
    exact (stands.hold.withPages c).answersExactly stands.reliable

/-- An article of the example. -/
def draft (id : Option RecordId) (blogId : RecordId) (createdAt : UnixTime) : Article :=
  { App.wheels with id, blogId, createdAt, deleteAt := none }

/-- The second article is older than the first, the third is moved to another blog, and the fourth
is deleted. -/
def shelved : List Call :=
  [⟨.article, .put (draft none ⟨1⟩ ⟨30⟩)⟩, ⟨.article, .put (draft none ⟨1⟩ ⟨20⟩)⟩,
   ⟨.article, .put (draft none ⟨1⟩ ⟨25⟩)⟩, ⟨.article, .put (draft none ⟨1⟩ ⟨10⟩)⟩,
   ⟨.article, .put (draft (some ⟨3⟩) ⟨2⟩ ⟨25⟩)⟩, ⟨.article, .delete ⟨4⟩⟩]

theorem queries_exact_shelved :
    let c : Collections := ⟨1⟩
    let store := callAll ⟨64⟩ .memory shelved
    c.AnswersExactly store
      ∧ ∃ found, c.articlesByBlogBetween store ⟨1⟩ ⟨0⟩ ⟨30⟩ = .ok found
        ∧ draft (some ⟨2⟩) ⟨1⟩ ⟨20⟩ ∈ found ∧ draft (some ⟨1⟩) ⟨1⟩ ⟨30⟩ ∉ found
        ∧ draft (some ⟨3⟩) ⟨2⟩ ⟨25⟩ ∉ found := by
  intro c store
  have answers : c.AnswersExactly store :=
    (queries_exact c).1 ⟨64⟩ shelved (by simp [shelved, Call.Fits])
  obtain ⟨found, hfound, lists, -⟩ :=
    answers.articles_between ⟨1⟩ ⟨0⟩ ⟨30⟩ (by decide) (by decide)
  have stored : c.articles.get store ⟨2⟩ = .ok (some (draft (some ⟨2⟩) ⟨1⟩ ⟨20⟩)) := by
    decide +kernel
  refine ⟨answers, found, hfound, (lists.mem_iff _).2 ⟨⟨⟨2⟩, stored⟩, by decide⟩, ?_, ?_⟩
  · intro listed
    exact absurd ((lists.mem_iff _).1 listed).2 (by decide)
  · intro listed
    exact absurd ((lists.mem_iff _).1 listed).2 (by decide)

end Collections

end Gazette
