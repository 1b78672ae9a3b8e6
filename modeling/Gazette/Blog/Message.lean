import Gazette.Blog.Fields
import Gazette.Wire

set_option autoImplicit false

/-! # Messages

The requests that the blog understands. A message has a kind, which gives the path that it is
routed by; it can be validated on its own, before any store is looked at; and it has a binary
form, in which it also waits in the task queue.
-/

namespace Gazette

/-- What a message asks for. -/
inductive MessageKind where
  | createUser
  | createBlog
  | changeBlogOwner
  | createArticle
  | deleteArticle
  | cancelDeletion
  | createComment
  | createLike
  deriving DecidableEq, Repr

namespace MessageKind

/-- The path by which messages of a kind are routed. -/
def path : MessageKind → String
  | .createUser => "blog/create_user"
  | .createBlog => "blog/create_blog"
  | .changeBlogOwner => "blog/change_blog_owner"
  | .createArticle => "blog/create_article"
  | .deleteArticle => "blog/delete_article"
  | .cancelDeletion => "blog/cancel_delete_article_task"
  | .createComment => "blog/create_comment"
  | .createLike => "blog/create_like"

/-- The name of a kind in messages about it. -/
def label : MessageKind → String
  | .createUser => "CreateUser"
  | .createBlog => "CreateBlog"
  | .changeBlogOwner => "ChangeBlogOwner"
  | .createArticle => "CreateArticle"
  | .deleteArticle => "DeleteArticle"
  | .cancelDeletion => "CancelDeleteArticleTask"
  | .createComment => "CreateComment"
  | .createLike => "CreateLike"

/-- All kinds, in the order of their numbers in the binary form. -/
def all : List MessageKind :=
  [.createUser, .createBlog, .changeBlogOwner, .createArticle, .deleteArticle, .cancelDeletion,
    .createComment, .createLike]

/-- The number of a kind in the binary form. -/
def number : MessageKind → UInt32
  | .createUser => 0
  | .createBlog => 1
  | .changeBlogOwner => 2
  | .createArticle => 3
  | .deleteArticle => 4
  | .cancelDeletion => 5
  | .createComment => 6
  | .createLike => 7

end MessageKind

/-- A request to the blog. -/
inductive Message where
  | createUser (username bio : String)
  | createBlog (title description : String)
  | changeBlogOwner (blogId : RecordId) (newOwner : Address)
  /-- If `deleteAt` is given, the article is to be deleted at that time. -/
  | createArticle (blogId : RecordId) (title content : String) (deleteAt : Option UnixTime)
  | deleteArticle (articleId : RecordId)
  | cancelDeletion (taskId : RecordId)
  | createComment (articleId : RecordId) (content : String)
  | createLike (articleId : RecordId)
  deriving DecidableEq, Repr

namespace Message

/-- The kind of a message. -/
def kind : Message → MessageKind
  | .createUser .. => .createUser
  | .createBlog .. => .createBlog
  | .changeBlogOwner .. => .changeBlogOwner
  | .createArticle .. => .createArticle
  | .deleteArticle _ => .deleteArticle
  | .cancelDeletion _ => .cancelDeletion
  | .createComment .. => .createComment
  | .createLike _ => .createLike

/-- The path by which the message is routed. -/
def path (message : Message) : String := message.kind.path

/-- The checks of a message's fields. -/
def checks : Message → List (String × Except FieldFault Unit)
  | .createUser username bio => [("Username", Field.username username), ("Bio", Field.bio bio)]
  | .createBlog title description =>
    [("Title", Field.title title), ("Description", Field.longText description)]
  | .changeBlogOwner blogId newOwner =>
    [("BlogID", Field.reference blogId), ("NewOwner", Field.owner newOwner)]
  | .createArticle blogId title content deleteAt =>
    [("BlogID", Field.reference blogId), ("Title", Field.title title),
     ("Content", Field.longText content), ("DeleteAt", Field.deadline deleteAt)]
  | .deleteArticle articleId => [("ArticleID", Field.reference articleId)]
  | .cancelDeletion taskId => [("TaskID", Field.reference taskId)]
  | .createComment articleId content =>
    [("ArticleID", Field.reference articleId), ("Content", Field.comment content)]
  | .createLike articleId => [("ArticleID", Field.reference articleId)]

/-- Check every field. -/
def validate (message : Message) : Except ValidationErrors Unit :=
  (ValidationErrors.ofChecks message.checks).result

/-! ## Binary form -/

/-- The fields of a message, without its number. -/
def encodeFields : Message → Bytes
  | .createUser username bio => (Codec.text.pair .text).encode (username, bio)
  | .createBlog title description => (Codec.text.pair .text).encode (title, description)
  | .changeBlogOwner blogId newOwner =>
    (Codec.recordId.pair .address).encode (blogId, newOwner)
  | .createArticle blogId title content deleteAt =>
    (Codec.recordId.pair (Codec.text.pair (Codec.text.pair (Codec.optional .time)))).encode
      (blogId, title, content, deleteAt)
  | .deleteArticle articleId => Codec.recordId.encode articleId
  | .cancelDeletion taskId => Codec.recordId.encode taskId
  | .createComment articleId content => (Codec.recordId.pair .text).encode (articleId, content)
  | .createLike articleId => Codec.recordId.encode articleId

/-- Read one value and make a message of it. -/
def fieldsOf {α : Type} (codec : Codec α) (make : α → Message) (b : Bytes) :
    Except Wire.Fault (Message × Bytes) :=
  (fun (fields, rest) => (make fields, rest)) <$> codec.decode b

/-- Read the fields of a message of a known kind. -/
def decodeFields : MessageKind → Bytes → Except Wire.Fault (Message × Bytes)
  | .createUser => fieldsOf (Codec.text.pair .text) fun (name, bio) => .createUser name bio
  | .createBlog =>
    fieldsOf (Codec.text.pair .text) fun (title, description) => .createBlog title description
  | .changeBlogOwner =>
    fieldsOf (Codec.recordId.pair .address) fun (blogId, owner) => .changeBlogOwner blogId owner
  | .createArticle =>
    fieldsOf (Codec.recordId.pair (Codec.text.pair (Codec.text.pair (Codec.optional .time))))
      fun (blogId, title, content, deleteAt) => .createArticle blogId title content deleteAt
  | .deleteArticle => fieldsOf Codec.recordId .deleteArticle
  | .cancelDeletion => fieldsOf Codec.recordId .cancelDeletion
  | .createComment =>
    fieldsOf (Codec.recordId.pair .text) fun (articleId, content) =>
      .createComment articleId content
  | .createLike => fieldsOf Codec.recordId .createLike

/-- A message is its number followed by its fields. -/
def codec : Codec Message where
  encode message := Codec.word32.encode message.kind.number ++ message.encodeFields
  decode b := do
    let (number, rest) ← Codec.word32.decode b
    match MessageKind.all.find? (·.number = number) with
    | some kind => decodeFields kind rest
    | none => .error (.badChoice number MessageKind.all.length)

end Message

end Gazette
