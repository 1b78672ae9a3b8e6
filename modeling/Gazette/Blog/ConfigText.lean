import Gazette.Blog.Config
import Gazette.Blog.Error
import Gazette.Toml.Reader

set_option autoImplicit false

/-! # Configuration as text

A configuration is written as a TOML document: the single settings first, then the prices as a
table of their own. Settings that are left out keep their defaults, and unknown ones are ignored.
Prices can also be given as an array, in the order in which they are declared.
-/

namespace Gazette

open Toml (Fields Item)

/-- A number that is not negative. -/
def Toml.Item.word? : Item → Option UInt64
  | .integer n => if 0 ≤ n then some (UInt64.ofNat n.toNat) else none
  | _ => none

/-- The number that an optional value gives, or a default if there is none. -/
def Config.wordOr (default : UInt64) : Option Item → Option UInt64
  | none => some default
  | some item => item.word?

namespace GasSchedule

/-- The prices whose values `at?` gives by name and place. -/
def ofItems (item? : String → Nat → Option Item) : Option GasSchedule := do
  let defaults : GasSchedule := {}
  some {
    createUser := ← Config.wordOr defaults.createUser (item? "create_user" 0)
    createBlog := ← Config.wordOr defaults.createBlog (item? "create_blog" 1)
    changeBlogOwner := ← Config.wordOr defaults.changeBlogOwner (item? "change_blog_owner" 2)
    createArticle := ← Config.wordOr defaults.createArticle (item? "create_article" 3)
    articleUnit := ← Config.wordOr defaults.articleUnit (item? "article_cost_unit" 4)
    createComment := ← Config.wordOr defaults.createComment (item? "create_comment" 5)
    createLike := ← Config.wordOr defaults.createLike (item? "create_like" 6) }

/-- The prices that a value gives: by name, by place, or, for a date, which has neither, all by
default. -/
def ofItem? : Item → Option GasSchedule
  | .table _ fields => ofItems fun name _ => fields.lookup name
  | .array items => ofItems fun _ place => items[place]?
  | .dateTime _ => some {}
  | _ => none

/-- The prices by name. -/
def settings (gas : GasSchedule) : List (String × UInt64) :=
  [("create_user", gas.createUser), ("create_blog", gas.createBlog),
   ("change_blog_owner", gas.changeBlogOwner), ("create_article", gas.createArticle),
   ("article_cost_unit", gas.articleUnit), ("create_comment", gas.createComment),
   ("create_like", gas.createLike)]

end GasSchedule

namespace Config

/-! ## Reading -/

/-- The configuration that a document gives. -/
def ofFields? (fields : Fields) : Option Config := do
  let defaults : Config := {}
  some {
    gas := ← match fields.lookup "gas" with
      | none => some defaults.gas
      | some item => GasSchedule.ofItem? item
    scanPageSize := ← wordOr defaults.scanPageSize (fields.lookup "scan_page_size")
    maxTasksPerTick := ← wordOr defaults.maxTasksPerTick (fields.lookup "max_tasks_per_tick") }

/-- The first setting that is zero and must not be. -/
def zeroSetting? (config : Config) : Option String :=
  if config.scanPageSize = 0 then some "scan_page_size"
  else if config.maxTasksPerTick = 0 then some "max_tasks_per_tick"
  else if config.gas.articleUnit = 0 then some "gas.article_cost_unit"
  else none

/-- Read a configuration. -/
def ofText (s : String) : Except BlogError Config :=
  match (Toml.read s).bind ofFields? with
  | none => .error (.config .unreadable)
  | some config =>
    match config.zeroSetting? with
    | some setting => .error (.config (.zero setting))
    | none => .ok config

/-- Read a configuration from the contents of a file, if there is one. -/
def load : (contents : Option String) → Except BlogError Config
  | none => .error (.config .missingFile)
  | some s => ofText s

/-! ## Writing -/

/-- The settings that stand by themselves. -/
def settings (config : Config) : List (String × UInt64) :=
  [("scan_page_size", config.scanPageSize), ("max_tasks_per_tick", config.maxTasksPerTick)]

/-- One setting on a line. -/
def line (setting : String × UInt64) : String :=
  setting.1 ++ " = " ++ Nat.repr setting.2.toNat ++ "\n"

/-- The text of a configuration. -/
def text (config : Config) : String :=
  String.join (config.settings.map line) ++ "\n[gas]\n"
    ++ String.join (config.gas.settings.map line)

/-- Write a configuration. Numbers beyond the signed 64-bit words have no written form. -/
def toText (config : Config) : Except BlogError String :=
  match (config.settings ++ config.gas.settings).find? (Int64.maxValue.toInt < ·.2.toNat) with
  | some setting => .error (.config (.tooLarge setting.2))
  | none => .ok config.text

end Config

end Gazette
