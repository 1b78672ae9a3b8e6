import Gazette.Blog.Fields
import Gazette.Bucket.Index

set_option autoImplicit false

/-! # Records of the blog

The six kinds of records, with the rules for their fields, their binary layout, and the keys
under which they are indexed.
-/

namespace Gazette

/-! ## Users -/

/-- Someone who registered under a name. -/
structure User where
  id : Option RecordId
  username : String
  bio : String
  registeredAt : UnixTime
  deriving DecidableEq, Repr

namespace User

/-- Check every field. -/
def validate (user : User) : Except ValidationErrors Unit :=
  (ValidationErrors.ofChecks
    [("ID", Check.assigned user.id), ("Username", Field.username user.username),
     ("Bio", Field.bio user.bio), ("RegisteredAt", Check.time user.registeredAt)]).result

/-- The fields in their order. -/
def codec : Codec User :=
  ((Codec.optional .recordId).pair (Codec.text.pair (Codec.text.pair .time))).map
    (fun (id, username, bio, registeredAt) => { id, username, bio, registeredAt })
    (fun user => (user.id, user.username, user.bio, user.registeredAt))

instance : Record User where
  id := User.id
  withId user id := { user with id := some id }
  validate := validate
  codec := codec

end User

/-! ## Blogs -/

/-- A blog, to which its owner posts articles. -/
structure Blog where
  id : Option RecordId
  owner : Address
  title : String
  description : String
  createdAt : UnixTime
  deriving DecidableEq, Repr

namespace Blog

/-- Check every field. -/
def validate (blog : Blog) : Except ValidationErrors Unit :=
  (ValidationErrors.ofChecks
    [("ID", Check.assigned blog.id), ("Owner", Field.owner blog.owner),
     ("Title", Field.title blog.title), ("Description", Field.longText blog.description),
     ("CreatedAt", Check.time blog.createdAt)]).result

/-- The fields in their order. -/
def codec : Codec Blog :=
  ((Codec.optional .recordId).pair
    (Codec.address.pair (Codec.text.pair (Codec.text.pair .time)))).map
    (fun (id, owner, title, description, createdAt) =>
      { id, owner, title, description, createdAt })
    (fun blog => (blog.id, blog.owner, blog.title, blog.description, blog.createdAt))

instance : Record Blog where
  id := Blog.id
  withId blog id := { blog with id := some id }
  validate := validate
  codec := codec

end Blog

/-! ## Articles -/

/-- An article, with the numbers of its comments and likes. -/
structure Article where
  id : Option RecordId
  blogId : RecordId
  owner : Address
  title : String
  content : String
  commentCount : UInt64
  likeCount : UInt64
  createdAt : UnixTime
  /-- If given, the article is scheduled for deletion at this time. -/
  deleteAt : Option UnixTime
  deriving DecidableEq, Repr

namespace Article

/-- Check every field. -/
def validate (article : Article) : Except ValidationErrors Unit :=
  (ValidationErrors.ofChecks
    [("ID", Check.assigned article.id), ("BlogID", Field.reference article.blogId),
     ("Owner", Field.owner article.owner), ("Title", Field.title article.title),
     ("Content", Field.longText article.content), ("CreatedAt", Check.time article.createdAt),
     ("DeleteAt", Field.deadline article.deleteAt)]).result

/-- The fields in their order. -/
def codec : Codec Article :=
  ((Codec.optional .recordId).pair (Codec.recordId.pair (Codec.address.pair
    (Codec.text.pair (Codec.text.pair (Codec.word64.pair (Codec.word64.pair
      (Codec.time.pair (Codec.optional .time))))))))).map
    (fun (id, blogId, owner, title, content, commentCount, likeCount, createdAt, deleteAt) =>
      { id, blogId, owner, title, content, commentCount, likeCount, createdAt, deleteAt })
    (fun a => (a.id, a.blogId, a.owner, a.title, a.content, a.commentCount, a.likeCount,
      a.createdAt, a.deleteAt))

instance : Record Article where
  id := Article.id
  withId article id := { article with id := some id }
  validate := validate
  codec := codec

/-- The key that puts the articles of one blog in the order of their creation: the blog, then
the time. A time before the epoch has no place in it. -/
def timedKey? (blogId : RecordId) (createdAt : UnixTime) : Option Bytes :=
  (blogId.bytes ++ ·) <$> createdAt.keyBytes?

/-- Why a time has no place in the order of creation. -/
def untimedReason (createdAt : UnixTime) : String := "cannot index negative time " ++ createdAt.text

end Article

/-! ## Comments -/

/-- A comment on an article. -/
structure Comment where
  id : Option RecordId
  articleId : RecordId
  owner : Address
  content : String
  createdAt : UnixTime
  deriving DecidableEq, Repr

namespace Comment

/-- Check every field. -/
def validate (comment : Comment) : Except ValidationErrors Unit :=
  (ValidationErrors.ofChecks
    [("ID", Check.assigned comment.id), ("ArticleID", Field.reference comment.articleId),
     ("Owner", Field.owner comment.owner), ("Content", Field.comment comment.content),
     ("CreatedAt", Check.time comment.createdAt)]).result

/-- The fields in their order. -/
def codec : Codec Comment :=
  ((Codec.optional .recordId).pair
    (Codec.recordId.pair (Codec.address.pair (Codec.text.pair .time)))).map
    (fun (id, articleId, owner, content, createdAt) =>
      { id, articleId, owner, content, createdAt })
    (fun c => (c.id, c.articleId, c.owner, c.content, c.createdAt))

instance : Record Comment where
  id := Comment.id
  withId comment id := { comment with id := some id }
  validate := validate
  codec := codec

/-- The key of the comments of one user under one article. -/
def articleOwnerKey (articleId : RecordId) (owner : Address) : Bytes :=
  articleId.bytes ++ owner.bytes

end Comment

/-! ## Likes -/

/-- A like of an article. -/
structure Like where
  id : Option RecordId
  articleId : RecordId
  owner : Address
  createdAt : UnixTime
  deriving DecidableEq, Repr

namespace Like

/-- Check every field. -/
def validate (like : Like) : Except ValidationErrors Unit :=
  (ValidationErrors.ofChecks
    [("ID", Check.assigned like.id), ("ArticleID", Field.reference like.articleId),
     ("Owner", Field.owner like.owner), ("CreatedAt", Check.time like.createdAt)]).result

/-- The fields in their order. -/
def codec : Codec Like :=
  ((Codec.optional .recordId).pair (Codec.recordId.pair (Codec.address.pair .time))).map
    (fun (id, articleId, owner, createdAt) => { id, articleId, owner, createdAt })
    (fun l => (l.id, l.articleId, l.owner, l.createdAt))

instance : Record Like where
  id := Like.id
  withId like id := { like with id := some id }
  validate := validate
  codec := codec

end Like

/-! ## Deletion tickets -/

/-- The right to cancel the scheduled deletion of an article. Its ID is that of the task in the
queue, not a number of its own bucket. -/
structure DeletionTicket where
  id : Option RecordId
  articleId : RecordId
  owner : Address
  deriving DecidableEq, Repr

namespace DeletionTicket

/-- Check every field. -/
def validate (ticket : DeletionTicket) : Except ValidationErrors Unit :=
  (ValidationErrors.ofChecks
    [("ID", Check.assigned ticket.id), ("ArticleID", Field.reference ticket.articleId),
     ("TaskOwner", Field.owner ticket.owner)]).result

/-- The fields in their order. -/
def codec : Codec DeletionTicket :=
  ((Codec.optional .recordId).pair (Codec.recordId.pair .address)).map
    (fun (id, articleId, owner) => { id, articleId, owner })
    (fun ticket => (ticket.id, ticket.articleId, ticket.owner))

instance : Record DeletionTicket where
  id := DeletionTicket.id
  withId ticket id := { ticket with id := some id }
  validate := validate
  codec := codec

end DeletionTicket

end Gazette
