import Gazette.Blog.Config
import Gazette.Blog.Deletions

set_option autoImplicit false

/-! # Handlers

A handler serves one kind of message. Checking looks up what the message refers to, makes sure
that the signer may do it, and answers the cost; it reads the store and cannot change it.
Delivering does the same and then writes. Both begin with the same preparation, so what one
refuses the other refuses.
-/

namespace Gazette

/-- Serves one kind of message. -/
structure Handler where
  /-- What the message costs. -/
  check : Context → Message → Store → Except BlogError UInt64
  /-- Do what the message asks for. The answer is the record that it created or touched. -/
  deliver : Context → Message → Tx BlogError (Option RecordId)

namespace Handler

/-- The refusal of a message of another kind. -/
def unexpected {α : Type} (expected : MessageKind) (message : Message) : Except BlogError α :=
  .error (.unexpectedMessage expected message.kind)

/-- Store a record, and give its ID. -/
def save {ρ : Type} [Record ρ] (bucket : Bucket ρ) (record : ρ) : Tx BlogError RecordId :=
  Prod.fst <$> Tx.mapError .store (bucket.put record)

/-- A record that a message refers to. -/
def find {ρ : Type} [Record ρ] (bucket : Bucket ρ) (store : Store) (id : RecordId) :
    Except BlogError ρ :=
  (bucket.one store id).mapError .store

variable (c : Collections) (gas : GasSchedule)

/-! ## Users and blogs -/

/-- The user that a message registers. -/
def newUser (ctx : Context) : Message → Except BlogError User
  | .createUser username bio =>
    .ok { id := none, username, bio, registeredAt := ctx.blockTime }
  | message => unexpected .createUser message

/-- Registration. It needs no signer. -/
def createUser : Handler where
  check ctx message _ := (fun _ => gas.createUser) <$> newUser ctx message
  deliver ctx message := do
    let user ← Tx.read fun _ => newUser ctx message
    some <$> save c.users user

/-- The blog that a message opens. -/
def newBlog (ctx : Context) : Message → Except BlogError Blog
  | .createBlog title description => do
    let owner ← ctx.mainSigner
    .ok { id := none, owner, title, description, createdAt := ctx.blockTime }
  | message => unexpected .createBlog message

/-- Opening a blog, which belongs to the main signer. -/
def createBlog : Handler where
  check ctx message _ := (fun _ => gas.createBlog) <$> newBlog ctx message
  deliver ctx message := do
    let blog ← Tx.read fun _ => newBlog ctx message
    some <$> save c.blogs blog

/-- The blog with the owner that a message gives it. -/
def reownedBlog (ctx : Context) (message : Message) (store : Store) : Except BlogError Blog :=
  match message with
  | .changeBlogOwner blogId newOwner => do
    let blog ← find c.blogs store blogId
    let _ ← ctx.requireOwner blog.owner (.changeOwner blogId)
    .ok { blog with owner := newOwner }
  | message => unexpected .changeBlogOwner message

/-- Giving a blog away, which only its owner can do. -/
def changeBlogOwner : Handler where
  check ctx message store := (fun _ => gas.changeBlogOwner) <$> reownedBlog c ctx message store
  deliver ctx message := do
    let blog ← Tx.read (reownedBlog c ctx message)
    some <$> save c.blogs blog

/-! ## Articles -/

/-- The article that a message posts. -/
def newArticle (ctx : Context) (message : Message) (store : Store) : Except BlogError Article :=
  match message with
  | .createArticle blogId title content deleteAt => do
    let blog ← find c.blogs store blogId
    let owner ← ctx.requireOwner blog.owner (.postArticle blogId)
    if let some t := deleteAt then ctx.requireAhead t
    .ok { id := none, blogId, owner, title, content, commentCount := 0, likeCount := 0,
          createdAt := ctx.blockTime, deleteAt }
  | message => unexpected .createArticle message

/-- Posting an article to a blog of one's own, with its deletion scheduled if it has a deadline. -/
def createArticle (deletions : Deletions) : Handler where
  check ctx message store := do
    let article ← newArticle c ctx message store
    .ok (gas.article article.content.utf8ByteSize)
  deliver ctx message := do
    let article ← Tx.read (newArticle c ctx message)
    let id ← save c.articles article
    if let some t := article.deleteAt then
      let _ ← deletions.schedule ctx id t
    return some id

/-- The article that a message deletes. -/
def ownArticle (ctx : Context) (message : Message) (store : Store) : Except BlogError Article :=
  match message with
  | .deleteArticle articleId => do
    let article ← find c.articles store articleId
    let _ ← ctx.requireOwner article.owner (.deleteArticle articleId)
    .ok article
  | message => unexpected .deleteArticle message

/-- Deletion by the owner. -/
def deleteArticle : Handler where
  check ctx message store := (fun _ => 0) <$> ownArticle c ctx message store
  deliver ctx message := do
    let article ← Tx.read (ownArticle c ctx message)
    match article.id with
    | none => return none
    | some id =>
      let _ ← Tx.mapError .store (c.articles.delete id)
      return some id

/-- The article that a scheduled message deletes. -/
def scheduledArticle : Message → Except BlogError RecordId
  | .deleteArticle articleId => .ok articleId
  | message => unexpected .deleteArticle message

/-- Deletion by the queue. The owner was checked when it was scheduled, so no signer is asked
for, and an article that is gone already is as good as deleted. -/
def deleteScheduledArticle : Handler where
  check _ message _ := (fun _ => 0) <$> scheduledArticle message
  deliver _ message := do
    let id ← Tx.read fun _ => scheduledArticle message
    let _ ← Tx.mapError .store (c.articles.delete id)
    return some id

/-- The task that a message cancels. -/
def cancelledTask : Message → Except BlogError RecordId
  | .cancelDeletion taskId => .ok taskId
  | message => unexpected .cancelDeletion message

/-- Cancelling a deletion that one has scheduled. -/
def cancelDeletion (deletions : Deletions) : Handler where
  check ctx message store := do
    let taskId ← cancelledTask message
    let _ ← deletions.authorizeCancel ctx taskId store
    .ok 0
  deliver ctx message := do
    let taskId ← Tx.read fun _ => cancelledTask message
    deletions.cancel ctx taskId
    return some taskId

/-! ## Comments and likes -/

/-- The comment that a message makes, and the article that it is made on. -/
def newComment (ctx : Context) (message : Message) (store : Store) :
    Except BlogError (Comment × Article) :=
  match message with
  | .createComment articleId content => do
    let article ← find c.articles store articleId
    let owner ← ctx.mainSigner
    .ok ({ id := none, articleId, owner, content, createdAt := ctx.blockTime }, article)
  | message => unexpected .createComment message

/-- Commenting on an article, which counts its comments. -/
def createComment : Handler where
  check ctx message store := (fun _ => gas.createComment) <$> newComment c ctx message store
  deliver ctx message := do
    let (comment, article) ← Tx.read (newComment c ctx message)
    let id ← save c.comments comment
    let _ ← save c.articles { article with commentCount := article.commentCount + 1 }
    return some id

/-- The like that a message gives, and the article that it is given to. -/
def newLike (ctx : Context) (message : Message) (store : Store) :
    Except BlogError (Like × Article) :=
  match message with
  | .createLike articleId => do
    let article ← find c.articles store articleId
    let owner ← ctx.mainSigner
    .ok ({ id := none, articleId, owner, createdAt := ctx.blockTime }, article)
  | message => unexpected .createLike message

/-- Liking an article, which counts its likes. -/
def createLike : Handler where
  check ctx message store := (fun _ => gas.createLike) <$> newLike c ctx message store
  deliver ctx message := do
    let (like, article) ← Tx.read (newLike c ctx message)
    let id ← save c.likes like
    let _ ← save c.articles { article with likeCount := article.likeCount + 1 }
    return some id

end Handler

end Gazette
