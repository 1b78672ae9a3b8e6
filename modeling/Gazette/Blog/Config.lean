set_option autoImplicit false

/-! # Configuration -/

namespace Gazette

/-- What each kind of message costs. -/
structure GasSchedule where
  createUser : UInt64 := 1
  createBlog : UInt64 := 10
  changeBlogOwner : UInt64 := 5
  /-- The price of `articleUnit` octets of content. -/
  createArticle : UInt64 := 1
  articleUnit : UInt64 := 1000
  createComment : UInt64 := 1
  createLike : UInt64 := 1
  deriving DecidableEq, Repr

/-- The settings of the blog. -/
structure Config where
  gas : GasSchedule := {}
  /-- How many index entries a query fetches at a time. -/
  scanPageSize : UInt64 := 64
  /-- How many scheduled tasks a block may run. -/
  maxTasksPerTick : UInt64 := 100
  deriving DecidableEq, Repr

namespace GasSchedule

/-- The cost of an article with `length` octets of content: the price times the length, capped
at the greatest word, divided by the unit. A unit of zero counts as one. -/
def article (gas : GasSchedule) (length : Nat) : UInt64 :=
  let product := min (length * gas.createArticle.toNat) (UInt64.size - 1)
  UInt64.ofNat (product / max gas.articleUnit.toNat 1)

/-- The prices as shown in diagnostics. -/
def debug (gas : GasSchedule) : String :=
  "GasSchedule \x7b create_user: " ++ toString gas.createUser
    ++ ", create_blog: " ++ toString gas.createBlog
    ++ ", change_blog_owner: " ++ toString gas.changeBlogOwner
    ++ ", create_article: " ++ toString gas.createArticle
    ++ ", article_cost_unit: " ++ toString gas.articleUnit
    ++ ", create_comment: " ++ toString gas.createComment
    ++ ", create_like: " ++ toString gas.createLike ++ " \x7d"

end GasSchedule

/-- The settings as shown in diagnostics. -/
def Config.debug (config : Config) : String :=
  "BlogConfig \x7b gas: " ++ config.gas.debug
    ++ ", scan_page_size: " ++ toString config.scanPageSize
    ++ ", max_tasks_per_tick: " ++ toString config.maxTasksPerTick ++ " \x7d"

end Gazette
