import Gazette.Blog.ConfigText
import Gazette.Proofs.Toml.Sections
import Gazette.Proofs.Toml.Sizes

set_option autoImplicit false

/-! # Configurations that are read and written

A document holds signed words only, so none of the settings that are read is too large to be
written, whether it stands in the text or is a default (`Config.small_ofFields?`). What is written are
numbers under bare keys, and these read back (`Config.ofText_text`). So whatever else a text may hold, the
configuration that is read from it has a text of its own, which gives the same configuration
(`Config.ofText_stable`).
-/

namespace Gazette

open Toml (Fields Item Setting)

/-- A number that is not too large to be written. -/
def IsSmall (word : UInt64) : Prop := word.toNat ≤ Int64.maxValue.toInt

instance : DecidablePred IsSmall := fun _ => inferInstanceAs (Decidable (_ ≤ _))

/-! ## Single numbers -/

theorem isSmall_word {item : Item} (h : item.Fits) {word : UInt64} (read : item.word? = some word) :
    IsSmall word := by
  cases h with
  | @integer n least most =>
    rw [Item.word?] at read
    split at read
    · cases read
      have bounded : (UInt64.ofNat n.toNat).toNat ≤ n.toNat := Nat.mod_le _ _
      show ((UInt64.ofNat n.toNat).toNat : Int) ≤ _
      omega
    · cases read
  | _ => cases read

theorem word?_field (word : UInt64) : (Item.integer word.toNat).word? = some word := by
  have positive : (0 : Int) ≤ word.toNat := Int.natCast_nonneg _
  rw [Item.word?, if_pos positive, Int.toNat_natCast, UInt64.ofNat_toNat]

theorem isSmall_wordOr {default word : UInt64} {item? : Option Item} (hdefault : IsSmall default)
    (h : ∀ item, item? = some item → item.Fits)
    (read : Config.wordOr default item? = some word) : IsSmall word := by
  cases item? with
  | none =>
    cases read
    exact hdefault
  | some item => exact isSmall_word (h item rfl) read

/-! ## Prices -/

namespace GasSchedule

/-- None of the prices is too large to be written. -/
def Small (gas : GasSchedule) : Prop := ∀ setting ∈ gas.settings, IsSmall setting.2

theorem small_default : Small {} := by
  unfold Small
  decide

/-- Each price is read for itself. -/
theorem ofItems_eq_some {item? : String → Nat → Option Item} {gas : GasSchedule} :
    ofItems item? = some gas ↔
      Config.wordOr ({} : GasSchedule).createUser (item? "create_user" 0) = some gas.createUser
      ∧ Config.wordOr ({} : GasSchedule).createBlog (item? "create_blog" 1) = some gas.createBlog
      ∧ Config.wordOr ({} : GasSchedule).changeBlogOwner (item? "change_blog_owner" 2)
          = some gas.changeBlogOwner
      ∧ Config.wordOr ({} : GasSchedule).createArticle (item? "create_article" 3)
          = some gas.createArticle
      ∧ Config.wordOr ({} : GasSchedule).articleUnit (item? "article_cost_unit" 4)
          = some gas.articleUnit
      ∧ Config.wordOr ({} : GasSchedule).createComment (item? "create_comment" 5)
          = some gas.createComment
      ∧ Config.wordOr ({} : GasSchedule).createLike (item? "create_like" 6)
          = some gas.createLike := by
  cases gas
  simp [ofItems, Option.bind_eq_some_iff]

theorem small_ofItems (item? : String → Nat → Option Item) {gas : GasSchedule}
    (h : ∀ name place item, item? name place = some item → item.Fits)
    (read : ofItems item? = some gas) : gas.Small := by
  have price : ∀ {default word name place}, IsSmall default →
      Config.wordOr default (item? name place) = some word → IsSmall word :=
    fun hdefault => isSmall_wordOr hdefault (h _ _)
  obtain ⟨createUser, createBlog, changeBlogOwner, createArticle, articleUnit, createComment,
    createLike⟩ := ofItems_eq_some.1 read
  simp only [Small, settings, List.forall_mem_cons]
  exact ⟨price (by decide) createUser, price (by decide) createBlog,
    price (by decide) changeBlogOwner, price (by decide) createArticle,
    price (by decide) articleUnit, price (by decide) createComment,
    price (by decide) createLike, fun _ h => absurd h List.not_mem_nil⟩

theorem small_ofItem? {item : Item} (h : item.Fits) {gas : GasSchedule}
    (read : ofItem? item = some gas) : gas.Small := by
  cases h with
  | @table origin fields each =>
    exact small_ofItems (fun name _ => fields.lookup name)
      (fun _ _ _ found => Fields.Fit.lookup each found) read
  | @array items each =>
    exact small_ofItems (fun _ place => items[place]?)
      (fun _ _ _ found => each _ (List.mem_of_getElem? found)) read
  | dateTime literal =>
    cases read
    exact small_default
  | _ => cases read

end GasSchedule

namespace Config

/-- The prices that an optional value gives. -/
def gasOr : Option Item → Option GasSchedule
  | none => some ({} : Config).gas
  | some item => GasSchedule.ofItem? item

theorem ofFields?_eq_some {fields : Fields} {config : Config} :
    ofFields? fields = some config ↔
      gasOr (fields.lookup "gas") = some config.gas
      ∧ wordOr ({} : Config).scanPageSize (fields.lookup "scan_page_size")
          = some config.scanPageSize
      ∧ wordOr ({} : Config).maxTasksPerTick (fields.lookup "max_tasks_per_tick")
          = some config.maxTasksPerTick := by
  cases config
  rw [ofFields?]
  cases fields.lookup "gas" with
  | none => simp [gasOr, Option.bind_eq_some_iff, and_comm, and_assoc, and_left_comm]
  | some item => simp [gasOr, Option.bind_eq_some_iff]

/-! ## What is read -/

/-- None of the settings is too large to be written. -/
def Small (config : Config) : Prop :=
  ∀ setting ∈ config.settings ++ config.gas.settings, IsSmall setting.2

theorem small_ofFields? {fields : Fields} (fit : fields.Fit) {config : Config}
    (read : ofFields? fields = some config) : config.Small := by
  obtain ⟨gas, page, tasks⟩ := ofFields?_eq_some.1 read
  have prices : config.gas.Small := by
    cases found : fields.lookup "gas" with
    | none =>
      rw [found] at gas
      rw [← Option.some.inj gas]
      exact GasSchedule.small_default
    | some item =>
      rw [found] at gas
      exact GasSchedule.small_ofItem? (fit.lookup found) gas
  intro setting hsetting
  rcases List.mem_append.1 hsetting with single | price
  · simp only [settings, List.mem_cons, List.not_mem_nil, or_false] at single
    rcases single with rfl | rfl
    · exact isSmall_wordOr (by decide) (fun _ found => fit.lookup found) page
    · exact isSmall_wordOr (by decide) (fun _ found => fit.lookup found) tasks
  · exact prices setting price

/-! ## What is written -/

theorem toText_of_small {config : Config} (small : config.Small) :
    config.toText = .ok config.text := by
  have none_large : (config.settings ++ config.gas.settings).find?
      (Int64.maxValue.toInt < ·.2.toNat) = none := by
    refine List.find?_eq_none.2 fun setting hsetting => ?_
    have fits : (setting.2.toNat : Int) ≤ Int64.maxValue.toInt := small setting hsetting
    simpa using fits
  rw [toText, none_large]

theorem toList_line (setting : Setting) : (line setting).toList = setting.line := by
  simp [line, Setting.line]

theorem toList_text (config : Config) :
    config.text.toList = Toml.sections config.settings "gas" config.gas.settings := by
  have lines : ∀ settings : List Setting,
      (String.join (settings.map line)).toList = settings.flatMap Setting.line := by
    intro settings
    rw [String.toList_join, List.flatMap_map]
    exact congrArg settings.flatMap (funext toList_line)
  rw [text, String.toList_append, String.toList_append, lines, lines, Toml.sections,
    List.append_assoc]
  rfl

/-- The keys of the settings that stand by themselves. -/
theorem keys_settings (config : Config) :
    config.settings.map (·.1) = ["scan_page_size", "max_tasks_per_tick"] := rfl

/-- The keys of the prices. -/
theorem keys_prices (config : Config) :
    config.gas.settings.map (·.1) = ["create_user", "create_blog", "change_blog_owner",
      "create_article", "article_cost_unit", "create_comment", "create_like"] := rfl

theorem writable_of_small {config : Config} (small : config.Small) :
    ∀ setting ∈ config.settings ++ config.gas.settings, Setting.Writable setting := by
  have bare : ∀ key ∈ (config.settings ++ config.gas.settings).map (·.1), Toml.IsBare key := by
    rw [List.map_append, keys_settings, keys_prices]
    decide
  exact fun setting h => ⟨bare setting.1 (List.mem_map_of_mem h), small setting h⟩

theorem read_text {config : Config} (small : config.Small) :
    Toml.read config.text = some (config.settings.map Setting.field
      ++ [("gas", .table .header (config.gas.settings.map Setting.field))]) := by
  have writable := writable_of_small small
  refine Toml.read_sections (toList_text config)
    (fun setting h => writable setting (List.mem_append_left _ h)) (by decide)
    (fun setting h => writable setting (List.mem_append_right _ h)) ?_ ?_ ?_
  · rw [keys_settings]
    decide
  · rw [keys_settings]
    decide
  · rw [keys_prices]
    decide

/-- What is written is read back. -/
theorem ofText_text {config : Config} (small : config.Small) (valid : config.zeroSetting? = none) :
    ofText config.text = .ok config := by
  have read : (Toml.read config.text).bind ofFields? = some config := by
    rw [read_text small, Option.bind_some, ofFields?_eq_some]
    refine ⟨?_, word?_field config.scanPageSize, word?_field config.maxTasksPerTick⟩
    show GasSchedule.ofItems (fun name _ => (config.gas.settings.map Setting.field).lookup name) = _
    rw [GasSchedule.ofItems_eq_some]
    exact ⟨word?_field config.gas.createUser, word?_field config.gas.createBlog,
      word?_field config.gas.changeBlogOwner, word?_field config.gas.createArticle,
      word?_field config.gas.articleUnit, word?_field config.gas.createComment,
      word?_field config.gas.createLike⟩
  rw [ofText, read]
  simp only [valid]

/-- Settings that pass the check are at least one where zero is refused. -/
theorem positive_of_zeroSetting? {config : Config} (h : config.zeroSetting? = none) :
    1 ≤ config.scanPageSize ∧ 1 ≤ config.maxTasksPerTick ∧ 1 ≤ config.gas.articleUnit := by
  have one_le : ∀ {word : UInt64}, word ≠ 0 → 1 ≤ word := by
    intro word nonzero
    have positive : word.toNat ≠ 0 := fun zero => nonzero (UInt64.toNat_inj.1 zero)
    exact UInt64.le_iff_toNat_le.2 (Nat.one_le_iff_ne_zero.2 positive)
  rw [zeroSetting?] at h
  split at h
  · cases h
  · rename_i page
    split at h
    · cases h
    · rename_i tasks
      split at h
      · cases h
      · rename_i unit
        exact ⟨one_le page, one_le tasks, one_le unit⟩

/-- Whatever text a configuration is read from, and whichever settings it leaves out or holds
besides: no setting is zero where it must not be, the configuration has a text of its own, and
from that text the same configuration is read. -/
theorem ofText_stable {s : String} {config : Config} (h : ofText s = .ok config) :
    1 ≤ config.scanPageSize ∧ 1 ≤ config.maxTasksPerTick ∧ 1 ≤ config.gas.articleUnit
      ∧ ∃ t, config.toText = .ok t ∧ ofText t = .ok config := by
  rw [ofText] at h
  split at h
  · cases h
  · rename_i read
    split at h
    · cases h
    · rename_i valid
      cases h
      obtain ⟨fields, document, given⟩ := Option.bind_eq_some_iff.1 read
      have small : config.Small := small_ofFields? (Toml.fit_of_read document) given
      obtain ⟨page, tasks, unit⟩ := positive_of_zeroSetting? valid
      exact ⟨page, tasks, unit, config.text, toText_of_small small, ofText_text small valid⟩

/-- A text that leaves settings out and holds others that mean nothing, of both kinds. -/
theorem ofText_stable_partial :
    ofText "max_tasks_per_tick = 7\ncolour = 3\n\n[gas]\ncreate_like = 16\nspare = 2\n"
        = .ok { gas := { createLike := 16 }, maxTasksPerTick := 7 }
      ∧ (1 : UInt64) ≤ 64 ∧ (1 : UInt64) ≤ 7 ∧ (1 : UInt64) ≤ 1000
      ∧ ∃ t, toText { gas := { createLike := 16 }, maxTasksPerTick := 7 } = .ok t
        ∧ ofText t = .ok { gas := { createLike := 16 }, maxTasksPerTick := 7 } := by
  have written : "max_tasks_per_tick = 7\ncolour = 3\n\n[gas]\ncreate_like = 16\nspare = 2\n".toList
      = Toml.sections [("max_tasks_per_tick", 7), ("colour", 3)] "gas"
          [("create_like", 16), ("spare", 2)] := by decide
  have document := Toml.read_sections written (by decide) (by decide) (by decide) (by decide)
    (by decide) (by decide)
  have read : ofText
      "max_tasks_per_tick = 7\ncolour = 3\n\n[gas]\ncreate_like = 16\nspare = 2\n"
      = .ok { gas := { createLike := 16 }, maxTasksPerTick := 7 } := by
    rw [ofText, document]
    rfl
  exact ⟨read, ofText_stable read⟩

end Config

end Gazette
