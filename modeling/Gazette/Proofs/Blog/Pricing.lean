import Gazette.Proofs.Blog.Agreement

set_option autoImplicit false

/-! # What an article costs

The price of an article is meant to be charged once per full unit of its content
(`GasSchedule.perFullUnit`). What a check charges is the price of all octets, capped at the
greatest word and then divided by the unit. So long as the cap is not reached, that is the
announced cost and a share of the price for the octets beyond the last full unit
(`GasSchedule.toNat_article_of_le`); beyond it, the cost no longer depends on the article
(`GasSchedule.toNat_article_of_gt`). The main statement `App.article_charged` says for which
lengths the two costs are the same.
-/

namespace Gazette

namespace GasSchedule

/-- The greatest cost. -/
def costCap : Nat := UInt64.size - 1

/-- The cost of an article that is charged once per full unit of its content. -/
def perFullUnit (gas : GasSchedule) (length : Nat) : UInt64 :=
  UInt64.ofNat (min (gas.createArticle.toNat * (length / gas.articleUnit.toNat)) costCap)

theorem toNat_perFullUnit (gas : GasSchedule) (length : Nat) :
    (gas.perFullUnit length).toNat =
      min (gas.createArticle.toNat * (length / gas.articleUnit.toNat)) costCap := by
  have fits : min (gas.createArticle.toNat * (length / gas.articleUnit.toNat)) costCap
      < UInt64.size := by
    have := Nat.min_le_right (gas.createArticle.toNat * (length / gas.articleUnit.toNat)) costCap
    unfold costCap UInt64.size at *
    omega
  exact UInt64.toNat_ofNat_of_lt fits

variable {gas : GasSchedule}

theorem toNat_article (h : 0 < gas.articleUnit.toNat) (length : Nat) :
    (gas.article length).toNat =
      min (length * gas.createArticle.toNat) costCap / gas.articleUnit.toNat := by
  have unit : max gas.articleUnit.toNat 1 = gas.articleUnit.toNat := Nat.max_eq_left h
  have fits : min (length * gas.createArticle.toNat) costCap / gas.articleUnit.toNat
      < UInt64.size := by
    have small := Nat.div_le_self (min (length * gas.createArticle.toNat) costCap)
      gas.articleUnit.toNat
    have capped := Nat.min_le_right (length * gas.createArticle.toNat) costCap
    unfold costCap UInt64.size at *
    omega
  rw [article, unit]
  exact UInt64.toNat_ofNat_of_lt fits

/-- The price of all octets is that of the full units and of the octets that are left. -/
theorem price_eq (gas : GasSchedule) (length : Nat) :
    length * gas.createArticle.toNat =
      length % gas.articleUnit.toNat * gas.createArticle.toNat
        + gas.articleUnit.toNat * (gas.createArticle.toNat * (length / gas.articleUnit.toNat)) := by
  calc length * gas.createArticle.toNat
      = (length % gas.articleUnit.toNat + gas.articleUnit.toNat * (length / gas.articleUnit.toNat))
          * gas.createArticle.toNat := by rw [Nat.mod_add_div]
    _ = length % gas.articleUnit.toNat * gas.createArticle.toNat
          + gas.articleUnit.toNat * (gas.createArticle.toNat
            * (length / gas.articleUnit.toNat)) := by
        rw [Nat.add_mul, Nat.mul_assoc, Nat.mul_comm (length / gas.articleUnit.toNat)]

/-- Below the cap, the octets beyond the last full unit are charged a share of the price. -/
theorem toNat_article_of_le (h : 0 < gas.articleUnit.toNat) {length : Nat}
    (below : length * gas.createArticle.toNat ≤ costCap) :
    (gas.article length).toNat =
      gas.createArticle.toNat * (length / gas.articleUnit.toNat)
        + length % gas.articleUnit.toNat * gas.createArticle.toNat / gas.articleUnit.toNat := by
  rw [toNat_article h, Nat.min_eq_left below, price_eq, Nat.add_mul_div_left _ _ h, Nat.add_comm]

/-- Beyond the cap, all articles cost the same. -/
theorem toNat_article_of_gt (h : 0 < gas.articleUnit.toNat) {length : Nat}
    (beyond : costCap < length * gas.createArticle.toNat) :
    (gas.article length).toNat = costCap / gas.articleUnit.toNat := by
  rw [toNat_article h, Nat.min_eq_right (Nat.le_of_lt beyond)]

theorem article_eq_perFullUnit_of_le (h : 0 < gas.articleUnit.toNat) {length : Nat}
    (below : length * gas.createArticle.toNat ≤ costCap) :
    gas.article length = gas.perFullUnit length ↔
      length % gas.articleUnit.toNat * gas.createArticle.toNat < gas.articleUnit.toNat := by
  -- the announced cost is not greater than the price of all octets, so the cap does not touch it
  have announced : gas.createArticle.toNat * (length / gas.articleUnit.toNat) ≤ costCap :=
    calc gas.createArticle.toNat * (length / gas.articleUnit.toNat)
        ≤ gas.createArticle.toNat * length := Nat.mul_le_mul_left _ (Nat.div_le_self _ _)
      _ = length * gas.createArticle.toNat := Nat.mul_comm _ _
      _ ≤ costCap := below
  rw [← UInt64.toNat_inj, toNat_article_of_le h below, toNat_perFullUnit,
    Nat.min_eq_left announced, ← Nat.div_eq_zero_iff_lt h]
  omega

theorem article_eq_perFullUnit_of_gt (h : 0 < gas.articleUnit.toNat) {length : Nat}
    (beyond : costCap < length * gas.createArticle.toNat) :
    gas.article length = gas.perFullUnit length ↔
      gas.articleUnit.toNat = 1 ∨
        gas.createArticle.toNat * (length / gas.articleUnit.toNat) =
          costCap / gas.articleUnit.toNat := by
  rw [← UInt64.toNat_inj, toNat_article_of_gt h beyond, toNat_perFullUnit]
  by_cases single : gas.articleUnit.toNat = 1
  · rw [single, Nat.div_one, Nat.div_one, Nat.mul_comm]
    exact iff_of_true (Nat.min_eq_right (Nat.le_of_lt beyond)).symm (.inl rfl)
  · -- a unit of two octets or more leaves the quotient below the cap
    have less : costCap / gas.articleUnit.toNat < costCap :=
      Nat.div_lt_self (by decide) (by omega)
    omega

end GasSchedule

/-! ## Checks of articles -/

theorem Handler.content_of_newArticle {c : Collections} {ctx : Context} {store : Store}
    {blogId : RecordId} {title content : String} {deleteAt : Option UnixTime} {article : Article}
    (h : newArticle c ctx (.createArticle blogId title content deleteAt) store = .ok article) :
    article.content = content := by
  obtain ⟨blog, -, h⟩ := bind_eq_ok.1 h
  obtain ⟨owner, -, h⟩ := bind_eq_ok.1 h
  cases deleteAt with
  | none => exact (Except.ok.inj h) ▸ rfl
  | some t =>
    obtain ⟨⟨⟩, -, h⟩ := bind_eq_ok.1 h
    exact (Except.ok.inj h) ▸ rfl

namespace App

/-- An article costs the price of all its octets, capped and divided by the unit, and this is what
a check of it answers. It is what the full units cost just if the unit is one octet, or the cap is
not reached and the price of the octets beyond the last full unit is less than the unit, or the cap
is reached and the full units happen to cost what is left of it. -/
theorem article_charged (app : App) (h : 1 ≤ app.config.gas.articleUnit.toNat) :
    let gas := app.config.gas
    let price := gas.createArticle.toNat
    let unit := gas.articleUnit.toNat
    (∀ length, (gas.article length).toNat = min (length * price) GasSchedule.costCap / unit)
      ∧ (∀ length, gas.article length = gas.perFullUnit length ↔
          unit = 1
          ∨ (length * price ≤ GasSchedule.costCap ∧ length % unit * price < unit)
          ∨ (GasSchedule.costCap < length * price
            ∧ price * (length / unit) = GasSchedule.costCap / unit))
      ∧ ∀ ctx store blogId title content deleteAt cost,
          app.check ctx (.createArticle blogId title content deleteAt) store = .ok cost →
            cost = gas.article content.utf8ByteSize := by
  intro gas price unit
  refine ⟨GasSchedule.toNat_article h, fun length => ?_, ?_⟩
  · rcases Nat.lt_or_ge GasSchedule.costCap (length * price) with beyond | below
    · rw [GasSchedule.article_eq_perFullUnit_of_gt h beyond]
      have reached : ¬ length * price ≤ GasSchedule.costCap := Nat.not_le.2 beyond
      simp only [reached, false_and, false_or, beyond, true_and]
      exact Iff.rfl
    · rw [GasSchedule.article_eq_perFullUnit_of_le h below]
      have spared : ¬ GasSchedule.costCap < length * price := Nat.not_lt.2 below
      simp only [below, true_and, spared, false_and, or_false]
      -- if the unit is one octet, there are no octets beyond the last full unit
      refine ⟨.inr, fun exact => exact.elim (fun single => ?_) id⟩
      show length % unit * price < unit
      rw [single, Nat.mod_one, Nat.zero_mul]
      exact Nat.one_pos
  · intro ctx store blogId title content deleteAt cost hcheck
    obtain ⟨-, -, hcheck⟩ := router_check_eq_ok hcheck
    obtain ⟨article, harticle, hcost⟩ := bind_eq_ok.1 hcheck
    rw [← Except.ok.inj hcost, Handler.content_of_newArticle harticle]

/-- Seven octets at two for each four cost three, although they hold one full unit. -/
theorem article_charged_posted :
    let app := ofConfig { gas := { createArticle := 2, articleUnit := 4 } }
    let message := Message.createArticle ⟨1⟩ "Wheels" "Rolling" (some ⟨30⟩)
    1 ≤ app.config.gas.articleUnit.toNat
      ∧ app.check ⟨⟨12⟩, [ada]⟩ message (app.reached posted) = .ok 3
      ∧ app.config.gas.article 7 = 3
      ∧ app.config.gas.perFullUnit 7 = 2 := by
  intro app message
  have unit : 1 ≤ app.config.gas.articleUnit.toNat := by decide
  have checked : app.check ⟨⟨12⟩, [ada]⟩ message (app.reached posted) = .ok 3 := by decide +kernel
  exact ⟨unit, checked, ((article_charged app unit).2.2 _ _ _ _ _ _ _ checked).symm, by decide⟩

/-- The price is not charged once per full unit. -/
theorem not_article_perFullUnit :
    ¬ ∀ (gas : GasSchedule) (length : Nat), 1 ≤ gas.articleUnit.toNat →
      gas.article length = gas.perFullUnit length := fun claimed =>
  absurd (claimed { createArticle := 2 } 1500 (by decide)) (by decide)

end App

end Gazette
