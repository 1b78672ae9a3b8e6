import Gazette.Blog.Handler

set_option autoImplicit false

/-! # Routing

A router gives each message to the handler of its path. The path is looked up first, then the
message is validated, and only then the handler sees it. No path has two handlers.

There are two sets of routes. Ordinary requests reach all eight kinds of messages. The queue
reaches deletion alone, and by another handler.
-/

namespace Gazette

/-- Handlers by path, in ascending order of the paths. -/
structure Router where
  routes : List (String × Handler) := []

namespace Router

/-- The paths that are served, in ascending order. -/
def paths (router : Router) : List String := router.routes.map (·.1)

/-- The handler of a path. -/
def handler? (router : Router) (path : String) : Option Handler := router.routes.lookup path

/-- Whether a path is served. -/
def hasRoute (router : Router) (path : String) : Bool := (router.handler? path).isSome

/-- The routes with one more, put before the first with a greater path. -/
def insertRoute (path : String) (handler : Handler) :
    List (String × Handler) → List (String × Handler)
  | [] => [(path, handler)]
  | route :: rest =>
    if path < route.1 then (path, handler) :: route :: rest
    else route :: insertRoute path handler rest

/-- The router with one more route; its path must not be served yet. -/
def add (router : Router) (path : String) (handler : Handler) : Except BlogError Router :=
  if router.hasRoute path then .error (.duplicateRoute path)
  else .ok ⟨insertRoute path handler router.routes⟩

/-- Add routes up to the first whose path is served already, and keep those before it. -/
def addAll (router : Router) : List (String × Handler) → Except BlogError Unit × Router
  | [] => (.ok (), router)
  | (path, handler) :: rest =>
    match router.add path handler with
    | .ok router => router.addAll rest
    | .error error => (.error error, router)

/-- The router as shown in diagnostics. -/
def debug (router : Router) : String :=
  "Router \x7b routes: [" ++ String.intercalate ", " (router.paths.map Text.quoted) ++ "] \x7d"

/-- The handler for a message, once the message is found valid. -/
def route (router : Router) (message : Message) : Except BlogError Handler :=
  match router.handler? message.path with
  | none => .error (.noRoute message.path)
  | some handler =>
    match message.validate with
    | .error errors => .error (.validation errors)
    | .ok () => .ok handler

/-- What a message costs. -/
def check (router : Router) (ctx : Context) (message : Message) (store : Store) :
    Except BlogError UInt64 := do
  let handler ← router.route message
  handler.check ctx message store

/-- Do what a message asks for. -/
def deliver (router : Router) (ctx : Context) (message : Message) :
    Tx BlogError (Option RecordId) := do
  let handler ← Tx.read fun _ => router.route message
  handler.deliver ctx message

/-! ## The routes of the blog -/

/-- The handler for ordinary requests of a kind. -/
def mainHandler (c : Collections) (deletions : Deletions) (gas : GasSchedule) :
    MessageKind → Handler
  | .createUser => Handler.createUser c gas
  | .createBlog => Handler.createBlog c gas
  | .changeBlogOwner => Handler.changeBlogOwner c gas
  | .createArticle => Handler.createArticle c gas deletions
  | .deleteArticle => Handler.deleteArticle c
  | .cancelDeletion => Handler.cancelDeletion deletions
  | .createComment => Handler.createComment c gas
  | .createLike => Handler.createLike c gas

/-- The routes for ordinary requests. -/
def mainRoutes (c : Collections) (deletions : Deletions) (gas : GasSchedule) :
    List (String × Handler) :=
  MessageKind.all.map fun kind => (kind.path, mainHandler c deletions gas kind)

/-- The routes for scheduled tasks. -/
def taskRoutes (c : Collections) : List (String × Handler) :=
  [(MessageKind.deleteArticle.path, Handler.deleteScheduledArticle c)]

end Router

end Gazette
