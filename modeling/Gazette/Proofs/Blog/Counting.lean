import Gazette.Proofs.Blog.Agreement
import Gazette.Proofs.Blog.References
import Gazette.Proofs.Bucket.Query
import Mathlib.Data.Set.Card
import Mathlib.Order.Interval.Finset.Nat

set_option autoImplicit false

/-! # What an article counts

An article counts its comments and its likes, and the count is written when the comment or the like
is stored. It stays right (`Tables.Counted`) because an article starts at zero while nothing is
about it yet: what is stored names articles by numbers that were handed out (`Tables.Orderly`), and
no number is handed out twice.

Each comment on an article took a number of its own, so the count is at most the last number of the
comments, and there are no more numbers before the count can wrap (`Tallied.fits`).
-/

namespace Gazette

/-! ## The number of records with a property -/

namespace Table

variable {ρ : Type} {table : Table ρ} {p : ρ → Prop}

/-- How many records of the table have the property. -/
noncomputable def tally (table : Table ρ) (p : ρ → Prop) : ℕ∞ :=
  Set.encard {id | ∃ record, table.records id = some record ∧ p record}

theorem tally_eq_zero (h : table.All fun _ record => ¬ p record) : table.tally p = 0 := by
  rw [tally, Set.encard_eq_zero, Set.eq_empty_iff_forall_notMem]
  rintro id ⟨record, hrecord, hp⟩
  exact h id record hrecord hp

theorem tally_eq_length {ids : List RecordId} (nodup : ids.Nodup)
    (exact : ∀ id, id ∈ ids ↔ ∃ record, table.records id = some record ∧ p record) :
    table.tally p = ids.length := by
  have same : {id | ∃ record, table.records id = some record ∧ p record} =
      (ids.toFinset : Set RecordId) := by
    ext id
    simp [exact]
  rw [tally, same, Set.encard_coe_eq_coe_finsetCard, List.toFinset_card_of_nodup nodup]

/-- There are no more records than numbers that were handed out. -/
theorem Gapless.tally_le (h : table.Gapless) (p : ρ → Prop) :
    table.tally p ≤ table.last.toNat := by
  let number : RecordId → ℕ := fun id => id.sequence.toNat
  have injective : Function.Injective number := by
    intro i j same
    cases i
    cases j
    exact congrArg RecordId.mk (UInt64.toNat_inj.1 same)
  have within : Set.MapsTo number {id | ∃ record, table.records id = some record ∧ p record}
      (Finset.Icc 1 table.last.toNat : Finset ℕ) := by
    rintro id ⟨record, hrecord, -⟩
    obtain ⟨first, last⟩ := h.handedOut id record hrecord
    exact Finset.mem_coe.2
      (Finset.mem_Icc.2 ⟨UInt64.le_iff_toNat_le.1 first, UInt64.le_iff_toNat_le.1 last⟩)
  calc table.tally p
      ≤ ((Finset.Icc 1 table.last.toNat : Finset ℕ) : Set ℕ).encard :=
        Set.encard_le_encard_of_injOn within injective.injOn
    _ = table.last.toNat := by
        rw [Set.encard_coe_eq_coe_finsetCard, Nat.card_Icc, Nat.add_sub_cancel]

section add

variable [Record ρ] {record : ρ} (fresh : table.records table.next = none)

include fresh

theorem tally_add_of_neg (h : ¬ p (Record.withId record table.next)) :
    (table.add record).tally p = table.tally p := by
  refine congrArg Set.encard (Set.ext fun id => ?_)
  simp only [Set.mem_ofPred_eq, records_add]
  by_cases new : id = table.next
  · simp [new, fresh, h]
  · simp [new]

theorem tally_add_of_pos (h : p (Record.withId record table.next)) :
    (table.add record).tally p = table.tally p + 1 := by
  have absent : table.next ∉ {id | ∃ record, table.records id = some record ∧ p record} := by
    rintro ⟨record, hrecord, -⟩
    rw [fresh] at hrecord
    cases hrecord
  rw [tally, tally, ← Set.encard_insert_of_notMem absent]
  refine congrArg Set.encard (Set.ext fun id => ?_)
  simp only [Set.mem_ofPred_eq, Set.mem_insert_iff, records_add]
  by_cases new : id = table.next
  · simp [new, h]
  · simp [new]

end add

end Table

/-! ## Counts that are right -/

section Tallied

variable {σ : Type} {articles : Table Article} {things : Table σ} {about : σ → RecordId}
  {count : Article → UInt64} {id : RecordId} {old new : Article}

/-- Each article has counted the things that are about it. -/
def Tallied (articles : Table Article) (things : Table σ) (about : σ → RecordId)
    (count : Article → UInt64) : Prop :=
  articles.All fun id article => things.tally (about · = id) = (count article).toNat

namespace Tallied

/-- There is a number for another thing only as long as the count can be raised. -/
theorem fits (h : Tallied articles things about count) (gapless : things.Gapless)
    (room : things.HasRoom) :
    articles.All fun _ article => (count article).toNat + 1 < UInt64.size := by
  intro id article hstored
  have few : ((count article).toNat : ℕ∞) ≤ things.last.toNat := by
    rw [← h id article hstored]
    exact gapless.tally_le _
  have few : (count article).toNat ≤ things.last.toNat := Nat.cast_le.1 few
  have room : things.last.toNat + 1 < UInt64.size := room
  omega

/-- An article that is new counts from zero, and nothing is about it. -/
theorem add_article (h : Tallied articles things about count)
    (unnamed : things.All fun _ thing => about thing ≠ articles.next)
    (zero : count (Record.withId new articles.next) = 0) :
    Tallied (articles.add new) things about count := by
  refine Table.All.add h (fun _ _ counted => counted) ?_
  rw [Table.tally_eq_zero unnamed, zero]
  rfl

theorem set_article (h : Tallied articles things about count)
    (hold : articles.records id = some old) (same : count new = count old) :
    Tallied (articles.set id new) things about count := by
  refine Table.All.set h (fun _ _ _ counted => counted) ?_
  rw [same]
  exact h id old hold

theorem erase_article (h : Tallied articles things about count) (id : RecordId) :
    Tallied (articles.erase id) things about count :=
  Table.All.erase h id

/-- One more thing about an article, which counts it. -/
theorem raise [Record σ] (h : Tallied articles things about count) (gapless : things.Gapless)
    (room : things.HasRoom) {thing : σ} (hold : articles.records id = some old)
    (named : about (Record.withId thing things.next) = id) (raised : count new = count old + 1) :
    Tallied (articles.set id new) (things.add thing) about count := by
  have fresh : things.records things.next = none :=
    room.unused (UInt64.le_refl _) gapless.handedOut
  refine Table.All.set h (fun i article other counted => ?_) ?_
  · have elsewhere : ¬ about (Record.withId thing things.next) = i := named ▸ other.symm
    rw [Table.tally_add_of_neg fresh elsewhere, counted]
  · rw [Table.tally_add_of_pos fresh named, h id old hold, raised,
      toNat_add_one (h.fits gapless room id old hold), Nat.cast_add, Nat.cast_one]

end Tallied

end Tallied

/-- Every article has counted its comments and its likes. -/
structure Tables.Counted (tables : Tables) : Prop where
  comments : Tallied tables.articles tables.comments Comment.articleId Article.commentCount
  likes : Tallied tables.articles tables.likes Like.articleId Article.likeCount

theorem Tables.counted_empty : Tables.empty.Counted where
  comments id article hstored := by cases hstored
  likes id article hstored := by cases hstored

/-! ## One call -/

variable {tables tables' : Tables} {ctx : Context} {message : Message} {id : RecordId}
  {now : UnixTime}

/-- A new article without comments and likes. -/
theorem Tables.Counted.add_article (h : tables.Counted) (orderly : tables.Orderly)
    (room : tables.articles.HasRoom) {article : Article} (uncommented : article.commentCount = 0)
    (unliked : article.likeCount = 0) :
    Counted { tables with articles := tables.articles.add article } where
  comments := h.comments.add_article
    (orderly.commented.imp fun _ _ handed => room.ne_next handed.2) uncommented
  likes := h.likes.add_article (orderly.liked.imp fun _ _ handed => room.ne_next handed.2) unliked

theorem Delivered.counted (h : tables.Counted) (orderly : tables.Orderly)
    (delivered : Delivered ctx tables message id tables') : tables'.Counted := by
  cases delivered with
  | createUser | createBlog | changeBlogOwner | cancelDeletion => exact { h with }
  | createArticle found signed room => exact h.add_article orderly room rfl rfl
  | scheduleArticle found signed room => exact { h.add_article orderly room rfl rfl with }
  | deleteArticle =>
    exact { comments := h.comments.erase_article id, likes := h.likes.erase_article id }
  | createComment found signed room =>
    exact {
      comments := h.comments.raise orderly.comments room found rfl rfl
      likes := h.likes.set_article found rfl }
  | createLike found signed room =>
    exact {
      comments := h.comments.set_article found rfl
      likes := h.likes.raise orderly.likes room found rfl rfl }

theorem Executed.counted {fired : Fired} (h : tables.Counted)
    (executed : Executed now tables id fired tables') : tables'.Counted := by
  cases executed with
  | missing | notDue => exact h
  | completed =>
    exact { comments := h.comments.erase_article _, likes := h.likes.erase_article _ }

theorem ExecutedAll.counted {ids : List RecordId} (h : tables.Counted)
    (executed : ExecutedAll now tables ids tables') : tables'.Counted := by
  induction executed with
  | nil => exact h
  | cons first later ih => exact ih (first.counted h)

/-! ## Reading the count off a bucket -/

/-- The number is that of the records with the property that are stored and that a query has found,
and the counter of the bucket has come as far. -/
structure Bucket.Tallies {ρ : Type} [Record ρ] (bucket : Bucket ρ) (store : Store) (p : ρ → Prop)
    (found : Except StoreError (List ρ)) (number : UInt64) : Prop where
  stored : Set.encard {id | ∃ record, bucket.get store id = .ok (some record) ∧ p record} =
    number.toNat
  queried : ∃ records, found = .ok records ∧ records.length = number.toNat
  issued : ∃ last, bucket.counter.current store = .ok last ∧ number ≤ last

/-- A query by an index whose key is the ID that a record is about finds as many as there are. -/
theorem Bucket.Holds.tallies {ρ : Type} [Record ρ] {bucket : Bucket ρ} {store : Store}
    {table : Table ρ} (h : bucket.Holds store.contents table) (hstore : store.Reliable)
    (gapless : table.Gapless) {name : String} {index : Index ρ}
    (hname : bucket.indexNamed name = .ok index) {about : ρ → RecordId}
    (hextract : ∀ record, index.extract record = .ok (some (about record).bytes))
    {number : UInt64} (htally : table.tally (about · = id) = number.toNat) :
    bucket.Tallies store (about · = id) (bucket.allWith store name id.bytes) number where
  stored := by
    simp only [h.get_eq hstore, Except.ok.injEq]
    exact htally
  queried := by
    obtain ⟨found, ids, hfound, hrecords, exact, ascending⟩ :=
      h.represents.allWith_exact hstore hname id.bytes
    refine ⟨found, hfound, ?_⟩
    have named : ∀ i, i ∈ ids ↔ ∃ record, table.records i = some record ∧ about record = id := by
      intro i
      simp only [exact, hextract, Except.ok.injEq, Option.some.injEq, RecordId.bytes_inj]
    have distinct : ids.Nodup := by
      refine ascending.imp ?_
      rintro i j less rfl
      exact UInt64.lt_irrefl _ less
    have lengths : found.length = ids.length := by
      simpa using congrArg List.length hrecords
    rw [lengths]
    exact Nat.cast_inj.1 ((Table.tally_eq_length distinct named).symm.trans htally)
  issued := by
    refine ⟨table.last, Counter.current_eq hstore h.issued, UInt64.le_iff_toNat_le.2 ?_⟩
    have few := gapless.tally_le (about · = id)
    rw [htally] at few
    exact Nat.cast_le.1 few

/-! ## Runs -/

namespace App

variable {config : Config} {app : App} {store : Store} {article : Article}

theorem Transition.counted {call : Call} (transition : Transition tables call tables')
    (orderly : tables.Orderly) (h : tables.Counted) : tables'.Counted := by
  cases transition with
  | idle => exact h
  | deliver delivered => exact delivered.counted h orderly
  | tick executed => exact executed.counted h
  | fire executed => exact executed.counted h

theorem exists_counted (config : Config) (calls : List Call) :
    ∃ tables, (ofConfig config).Stands ((ofConfig config).reached calls) tables
      ∧ tables.Orderly ∧ tables.Counted :=
  exists_stands_with ⟨Tables.orderly_empty, Tables.counted_empty⟩
    (fun transition h => ⟨transition.orderly h.1, transition.counted h.1 h.2⟩) config calls

/-- The delivery of a message that the check accepts ends with the error of its handler. -/
theorem deliver_of_handler_error {cost : UInt64} {error : BlogError} {after : Store}
    (hcheck : app.check ctx message store = .ok cost)
    (hrefused : store.stage.perform ((Router.mainHandler app.collections app.deletions
      app.config.gas message.kind).deliver ctx message) = (.error error, after)) :
    app.deliver ctx message store = (.error error, store) := by
  have hrun : store.stage.perform (app.router.deliver ctx message) = (.error error, after) :=
    (Store.perform_read_bind_of_ok (router_check_eq_ok hcheck).2.1 _).trans hrefused
  rw [deliver, Store.transact, hrun]

/-- The message raises a count of the article by one whenever it is delivered. At the greatest
count it is refused, by the check or because there is no ID left for what it creates. -/
structure Raises (app : App) (store : Store) (message : Message) (id : RecordId)
    (article : Article) (count : Article → UInt64) (label : String) : Prop where
  raised : ∀ ctx answer, (app.deliver ctx message store).1 = .ok answer →
    ∃ later, app.collections.articles.get (app.deliver ctx message store).2 id = .ok (some later)
      ∧ (count later).toNat = (count article).toNat + 1
  refused : (count article).toNat + 1 = UInt64.size → ∀ ctx, ∃ error,
    app.deliver ctx message store = (.error error, store)
      ∧ ∀ cost, app.check ctx message store = .ok cost → error = .store (.exhausted label)

/-- What a message creates is of this kind, and is counted by the article. -/
theorem Stands.raises (stands : (ofConfig config).Stands store tables) (kind : RecordKind)
    {count : Article → UInt64}
    (fits : (tables.of kind).HasRoom → (count article).toNat + 1 < UInt64.size)
    (counts : ∀ ctx i tables', Delivered ctx tables message i tables' →
      (tables.of kind).HasRoom ∧ ∃ later, tables'.articles.records id = some later
        ∧ count later = count article + 1)
    (refuses : ¬ (tables.of kind).HasRoom → ∀ ctx cost,
      (ofConfig config).check ctx message store = .ok cost →
      store.stage.perform ((Router.mainHandler (ofConfig config).collections
          (ofConfig config).deletions config.gas message.kind).deliver ctx message) =
        (.error (.store (.exhausted kind.label)), store.stage)) :
    (ofConfig config).Raises store message id article count kind.label where
  raised ctx answer hanswer := by
    rcases stands.deliver ctx message with
      ⟨⟨error, hfailed⟩, -⟩ | ⟨i, tables', -, delivered, h'⟩
    · rw [hfailed] at hanswer
      cases hanswer
    · obtain ⟨room, later, hlater, hcount⟩ := counts ctx i tables' delivered
      refine ⟨later, (h'.get_article id).trans (congrArg Except.ok hlater), ?_⟩
      rw [hcount, toNat_add_one (fits room)]
  refused top ctx := by
    have full : ¬ (tables.of kind).HasRoom := fun room => Nat.ne_of_lt (fits room) top
    cases hcheck : (ofConfig config).check ctx message store with
    | error error =>
      exact ⟨error, deliver_of_check_error hcheck, fun cost accepted => by cases accepted⟩
    | ok cost =>
      exact ⟨_, deliver_of_handler_error hcheck (refuses full ctx cost hcheck), fun _ _ => rfl⟩

theorem Stands.raises_comments (stands : (ofConfig config).Stands store tables)
    (orderly : tables.Orderly) (counted : tables.Counted)
    (stored : tables.articles.records id = some article) (content : String) :
    (ofConfig config).Raises store (.createComment id content) id article Article.commentCount
      "comment" := by
  refine stands.raises .comment
    (fun room => counted.comments.fits orderly.comments room id article stored) ?_ ?_
  · intro ctx i tables' delivered
    cases delivered with
    | createComment found signed room =>
      obtain rfl := Option.some.inj (stored.symm.trans found)
      exact ⟨room, _, Table.records_set_self _ _ _, rfl⟩
  · intro full ctx cost hcheck
    have hstage := Store.reliable_stage stands.reliable
    have hold : (ofConfig config).collections.Hold store.stage.contents tables := stands.hold
    obtain ⟨⟨comment, found⟩, hcomment, -⟩ := map_eq_ok.1 (router_check_eq_ok hcheck).2.2
    refine (Store.perform_read_bind_of_ok hcomment _).trans ?_
    have new : comment.id = none := by
      obtain ⟨found', -, heq⟩ := bind_eq_ok.1 hcomment
      obtain ⟨owner, -, heq⟩ := bind_eq_ok.1 heq
      cases heq
      rfl
    exact Store.perform_bind_of_error (Handler.save_exhausted hold hstage .comment new full) _

theorem Stands.raises_likes (stands : (ofConfig config).Stands store tables)
    (orderly : tables.Orderly) (counted : tables.Counted)
    (stored : tables.articles.records id = some article) :
    (ofConfig config).Raises store (.createLike id) id article Article.likeCount "like" := by
  refine stands.raises .like
    (fun room => counted.likes.fits orderly.likes room id article stored) ?_ ?_
  · intro ctx i tables' delivered
    cases delivered with
    | createLike found signed room =>
      obtain rfl := Option.some.inj (stored.symm.trans found)
      exact ⟨room, _, Table.records_set_self _ _ _, rfl⟩
  · intro full ctx cost hcheck
    have hstage := Store.reliable_stage stands.reliable
    have hold : (ofConfig config).collections.Hold store.stage.contents tables := stands.hold
    obtain ⟨⟨like, found⟩, hlike, -⟩ := map_eq_ok.1 (router_check_eq_ok hcheck).2.2
    refine (Store.perform_read_bind_of_ok hlike _).trans ?_
    have new : like.id = none := by
      obtain ⟨found', -, heq⟩ := bind_eq_ok.1 hlike
      obtain ⟨owner, -, heq⟩ := bind_eq_ok.1 heq
      cases heq
      rfl
    exact Store.perform_bind_of_error (Handler.save_exhausted hold hstage .like new full) _

/-- After every run each article has counted its comments and its likes, and commenting on it or
liking it raises the count by one. From the greatest count nothing is added: the IDs have come to
an end by then. -/
theorem counters_exact (config : Config) (calls : List Call) :
    let app := ofConfig config
    let c := app.collections
    let store := app.reached calls
    (∀ id, ∃ found, c.articles.get store id = .ok found)
    ∧ ∀ id article, c.articles.get store id = .ok (some article) →
        c.comments.Tallies store (·.articleId = id) (c.commentsByArticle store id)
          article.commentCount
        ∧ c.likes.Tallies store (·.articleId = id) (c.likesByArticle store id) article.likeCount
        ∧ (∀ content, app.Raises store (.createComment id content) id article
            Article.commentCount "comment")
        ∧ app.Raises store (.createLike id) id article Article.likeCount "like" := by
  intro app c store
  obtain ⟨tables, stands, orderly, counted⟩ := exists_counted config calls
  refine ⟨fun id => ⟨_, stands.get_article id⟩, fun id article harticle => ?_⟩
  rw [stands.get_article, Except.ok.injEq] at harticle
  have comments : c.comments.Holds store.contents tables.comments := stands.hold .comment
  have likes : c.likes.Holds store.contents tables.likes := stands.hold .like
  refine ⟨?_, ?_, ?_, ?_⟩
  · exact comments.tallies stands.reliable orderly.comments rfl (fun _ => rfl)
      (counted.comments id article harticle)
  · exact likes.tallies stands.reliable orderly.likes rfl (fun _ => rfl)
      (counted.likes id article harticle)
  · exact stands.raises_comments orderly counted harticle
  · exact stands.raises_likes orderly counted harticle

/-- The article of `posted` is commented on twice and liked once. -/
def discussed : List Call :=
  posted ++
    [.deliver ⟨⟨12⟩, [ada]⟩ (.createComment ⟨1⟩ "Round"),
     .deliver ⟨⟨13⟩, [ada]⟩ (.createLike ⟨1⟩),
     .deliver ⟨⟨14⟩, [ada]⟩ (.createComment ⟨1⟩ "Rounder")]

theorem counters_exact_discussed :
    let app := ofConfig {}
    let c := app.collections
    let store := app.reached discussed
    let counted := { wheels with commentCount := 2, likeCount := 1 }
    c.articles.get store ⟨1⟩ = .ok (some counted)
      ∧ Set.encard {id | ∃ comment, c.comments.get store id = .ok (some comment)
          ∧ comment.articleId = ⟨1⟩} = 2
      ∧ (∃ likes, c.likesByArticle store ⟨1⟩ = .ok likes ∧ likes.length = 1)
      ∧ app.Raises store (.createLike ⟨1⟩) ⟨1⟩ counted Article.likeCount "like" := by
  intro app c store counted
  have stored : c.articles.get store ⟨1⟩ = .ok (some counted) := by decide +kernel
  obtain ⟨comments, likes, -, liked⟩ := (counters_exact {} discussed).2 ⟨1⟩ counted stored
  exact ⟨stored, comments.stored, likes.queried, liked⟩

end App

end Gazette
