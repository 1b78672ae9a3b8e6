import Gazette.Blog.Error
import Gazette.Bucket.IndexScan

set_option autoImplicit false

/-! # The collections of the blog

One bucket for each kind of record, with these indexes:

    user       username      the name                     unique
    blog       user          the owner
    article    blog          the blog
    article    timedblog     the blog, then the time of creation
    comment    article       the article
    comment    user          the owner
    comment    articleuser   the article, then the owner
    like       article       the article
    deleteart  (none)
-/

namespace Gazette

/-- The buckets of the blog, all of which fetch the same number of entries at a time. -/
structure Collections where
  pageSize : Nat
  deriving DecidableEq, Repr

namespace Collections

/-- An index function that always gives a key. -/
def always {ρ : Type} (key : ρ → Bytes) (record : ρ) : Except String (Option Bytes) :=
  .ok (some (key record))

/-- The index function of the articles of a blog in the order of their creation. -/
def timedBlog (article : Article) : Except String (Option Bytes) :=
  match Article.timedKey? article.blogId article.createdAt with
  | some key => .ok (some key)
  | none => .error (Article.untimedReason article.createdAt)

variable (c : Collections)

/-- Users, no two of the same name. -/
def users : Bucket User where
  name := { text := "user" }
  indexes :=
    [{ name := { text := "username" }, unique := true
       extract := always fun user => Utf8.encode user.username }]
  pageSize := max c.pageSize 1

/-- Blogs, by owner. -/
def blogs : Bucket Blog where
  name := { text := "blog" }
  indexes :=
    [{ name := { text := "user" }, unique := false, extract := always (·.owner.bytes) }]
  pageSize := max c.pageSize 1

/-- Articles, by blog, and by blog and time of creation. -/
def articles : Bucket Article where
  name := { text := "article" }
  indexes :=
    [{ name := { text := "blog" }, unique := false, extract := always (·.blogId.bytes) },
     { name := { text := "timedblog" }, unique := false, extract := timedBlog }]
  pageSize := max c.pageSize 1

/-- Comments, by article, by owner, and by both. -/
def comments : Bucket Comment where
  name := { text := "comment" }
  indexes :=
    [{ name := { text := "article" }, unique := false, extract := always (·.articleId.bytes) },
     { name := { text := "user" }, unique := false, extract := always (·.owner.bytes) },
     { name := { text := "articleuser" }, unique := false
       extract := always fun comment =>
         Comment.articleOwnerKey comment.articleId comment.owner }]
  pageSize := max c.pageSize 1

/-- Likes, by article. -/
def likes : Bucket Like where
  name := { text := "like" }
  indexes :=
    [{ name := { text := "article" }, unique := false, extract := always (·.articleId.bytes) }]
  pageSize := max c.pageSize 1

/-- Deletion tickets, which are looked up by ID alone. -/
def tickets : Bucket DeletionTicket where
  name := { text := "deleteart" }
  pageSize := max c.pageSize 1

/-! ## Queries -/

variable (store : Store)

/-- The user of this name, if there is one. -/
def userByUsername (username : String) : Except StoreError (Option User) :=
  c.users.oneByUnique store "username" (Utf8.encode username)

/-- The blogs of an owner, in the order of their IDs. -/
def blogsByOwner (owner : Address) : Except StoreError (List Blog) :=
  c.blogs.allWith store "user" owner.bytes

/-- The articles of a blog, oldest first. -/
def articlesByBlog (blogId : RecordId) : Except StoreError (List Article) := do
  c.articles.load store (← c.articles.queryPrefix "timedblog" blogId.bytes)

/-- The place of a time among the articles of a blog. -/
def timedBound (blogId : RecordId) (t : UnixTime) : Except BlogError Bytes :=
  match Article.timedKey? blogId t with
  | some key => .ok key
  | none => .error (.invalidState (.untimed t))

/-- The articles of a blog that were created at or after one time and before another, oldest
first. -/
def articlesByBlogBetween (blogId : RecordId) (first upper : UnixTime) :
    Except BlogError (List Article) := do
  let start ← timedBound blogId first
  let bound ← timedBound blogId upper
  Except.mapError .store do
    c.articles.load store (← c.articles.queryRange "timedblog" start (some bound))

/-- The comments on an article, in the order of their IDs. -/
def commentsByArticle (articleId : RecordId) : Except StoreError (List Comment) :=
  c.comments.allWith store "article" articleId.bytes

/-- The comments of a user, in the order of their IDs. -/
def commentsByUser (owner : Address) : Except StoreError (List Comment) :=
  c.comments.allWith store "user" owner.bytes

/-- The comments of a user on an article, in the order of their IDs. -/
def commentsByArticleUser (articleId : RecordId) (owner : Address) :
    Except StoreError (List Comment) :=
  c.comments.allWith store "articleuser" (Comment.articleOwnerKey articleId owner)

/-- The likes of an article, in the order of their IDs. -/
def likesByArticle (articleId : RecordId) : Except StoreError (List Like) :=
  c.likes.allWith store "article" articleId.bytes

end Collections

end Gazette
