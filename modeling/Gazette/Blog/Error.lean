import Gazette.Blog.Message
import Gazette.Blog.Records
import Gazette.Schedule.Queue

set_option autoImplicit false

/-! # Errors of the blog -/

namespace Gazette

/-- What a signer may lack the right to do. -/
inductive Action where
  | changeOwner (blogId : RecordId)
  | postArticle (blogId : RecordId)
  | deleteArticle (articleId : RecordId)
  | cancelDeletion (taskId : RecordId)
  deriving DecidableEq, Repr

/-- The action as it completes "is unauthorized to". -/
def Action.text : Action → String
  | .changeOwner id => s!"change the owner of blog {id.toHex}"
  | .postArticle id => s!"post an article to blog {id.toHex}"
  | .deleteArticle id => s!"delete article {id.toHex}"
  | .cancelDeletion id => s!"cancel delete task {id.toHex}"

/-- Why a well-formed request does not apply. -/
inductive StateFault where
  /-- A deletion must be scheduled for after the block. -/
  | deletionNotAhead (deleteAt blockTime : UnixTime)
  /-- Articles are not ordered by times before the epoch. -/
  | untimed (time : UnixTime)
  deriving DecidableEq, Repr

/-- The text of the fault. -/
def StateFault.message : StateFault → String
  | .deletionNotAhead deleteAt blockTime =>
    s!"delete at {deleteAt.text} is not after block time {blockTime.text}"
  | .untimed time => Article.untimedReason time

/-- What is wrong with a configuration. -/
inductive ConfigFault where
  /-- The text is no document, or a value does not fit its field. -/
  | unreadable
  /-- There is no such file. -/
  | missingFile
  /-- A setting that must not be zero is. -/
  | zero (setting : String)
  /-- A number is too large to be written. -/
  | tooLarge (number : UInt64)
  deriving DecidableEq, Repr

/-- The text of the fault. -/
def ConfigFault.message : ConfigFault → String
  | .unreadable => "not a configuration"
  | .missingFile => "no such file"
  | .zero setting => setting ++ " must be at least 1"
  | .tooLarge number => s!"{number} cannot be written"

/-- Why a request to the blog failed. -/
inductive BlogError where
  /-- The fields of the message are refused. -/
  | validation (errors : ValidationErrors)
  /-- The signer may not do this. -/
  | unauthorized (signer : Address) (action : Action)
  /-- The request is not signed. -/
  | missingSigner
  | invalidState (fault : StateFault)
  /-- Nothing serves this path. -/
  | noRoute (path : String)
  /-- A handler was given a message of another kind. -/
  | unexpectedMessage (expected got : MessageKind)
  /-- The path is served already. -/
  | duplicateRoute (path : String)
  /-- Bytes are no message. -/
  | codec (fault : Wire.Fault)
  | config (fault : ConfigFault)
  | store (error : StoreError)
  | schedule (error : ScheduleError)
  deriving DecidableEq, Repr

namespace BlogError

/-- The text of the error. Errors of the layers below speak for themselves. -/
def message : BlogError → String
  | .validation errors => errors.message
  | .unauthorized signer action =>
    s!"signer {signer.toHex} is unauthorized to {action.text}"
  | .missingSigner => "no signer in context"
  | .invalidState fault => "invalid state: " ++ fault.message
  | .noRoute path => "no handler registered for " ++ path
  | .unexpectedMessage expected got => s!"handler for {expected.label} received {got.path}"
  | .duplicateRoute path => s!"route {path} registered twice"
  | .codec fault => "message codec error: " ++ fault.message
  | .config fault => "configuration error: " ++ fault.message
  | .store error => error.message
  | .schedule error => error.message

/-- Whether the error must end the enclosing block. -/
def isFatal : BlogError → Bool
  | .store error => error.isFatal
  | .schedule error => error.isFatal
  | _ => false

/-- Whether what is missing is a record or a task. -/
def isNotFound : BlogError → Bool
  | .store (.notFound ..) => true
  | .schedule (.taskNotFound _) => true
  | _ => false

/-- The error as the queue sees it when a task fails with it. -/
def toScheduleError : BlogError → ScheduleError
  | .store error => .store error
  | .schedule error => error
  | error => .handler error.message

end BlogError

end Gazette
