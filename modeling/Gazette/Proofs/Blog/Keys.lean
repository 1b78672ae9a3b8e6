import Gazette.Proofs.Blog.Admission
import Mathlib.Data.Prod.Lex

set_option autoImplicit false

/-! # Keys made of several values

Each part of a compound key has a width of its own, so the keys are in the order of their parts,
the first before the others, and give them back. Articles are in the order of their blogs and
then of their times (`Article.timedKey_lt_iff`), and those of one blog and one time in the order
of their IDs once these follow the keys (`Article.timedKey_append_lt_iff`). The keys of the
comments on one article are those that start with its octets
(`Comment.exists_articleOwnerKey_iff`).
-/

namespace Gazette

/-! ## Articles by blog and time -/

namespace Article

theorem length_timedKey (blogId : RecordId) (t : UnixTime) : (timedKey blogId t).length = 16 := by
  rw [timedKey, List.length_append, RecordId.length_bytes, UnixTime.length_key]
  rfl

theorem length_of_timedBlog {article : Article} {k : Bytes}
    (h : Collections.timedBlog article = .ok (some k)) : k.length = 16 := by
  unfold Collections.timedBlog timedKey? at h
  cases hkey : article.createdAt.keyBytes? with
  | none =>
    rw [hkey] at h
    cases h
  | some octets =>
    rw [hkey] at h
    cases h
    rw [List.length_append, RecordId.length_bytes, UnixTime.length_of_keyBytes? hkey]
    rfl

theorem bytes_prefix_timedKey_iff {blogId blogId' : RecordId} {t : UnixTime} :
    blogId.bytes <+: timedKey blogId' t ↔ blogId' = blogId :=
  RecordId.bytes_prefix_append_iff

section

variable {s t : UnixTime} (hs : ¬ s.isNegative = true) (ht : ¬ t.isNegative = true)

include hs ht

theorem timedKey_lt_iff {b b' : RecordId} :
    timedKey b s < timedKey b' t ↔ b < b' ∨ (b = b' ∧ s < t) := by
  rw [UnixTime.isNegative_iff, Int.not_lt] at hs ht
  rw [timedKey, timedKey, RecordId.bytes_append_lt_iff, UnixTime.key_lt_key_iff hs ht]

theorem eq_of_timedKey_eq {b b' : RecordId} (h : timedKey b s = timedKey b' t) :
    b = b' ∧ s = t := by
  rw [UnixTime.isNegative_iff, Int.not_lt] at hs ht
  obtain ⟨blogs, times⟩ := RecordId.bytes_append_inj.1 h
  exact ⟨blogs, UnixTime.key_inj hs ht times⟩

/-- The entries of one blog and one time are in the order of the IDs that follow the keys. -/
theorem timedKey_append_lt_iff {b b' i j : RecordId} :
    timedKey b s ++ i.bytes < timedKey b' t ++ j.bytes ↔
      b < b' ∨ (b = b' ∧ (s < t ∨ (s = t ∧ i < j))) := by
  rw [UnixTime.isNegative_iff, Int.not_lt] at hs ht
  have width : s.key.length = t.key.length := by rw [UnixTime.length_key, UnixTime.length_key]
  have times : s.key = t.key ↔ s = t := ⟨UnixTime.key_inj hs ht, congrArg _⟩
  rw [timedKey, timedKey, List.append_assoc, List.append_assoc, RecordId.bytes_append_lt_iff,
    Bytes.append_lt_append_iff_of_length_eq width, UnixTime.key_lt_key_iff hs ht, times,
    RecordId.bytes_lt_iff]

theorem eq_of_timedKey_append_eq {b b' i j : RecordId}
    (h : timedKey b s ++ i.bytes = timedKey b' t ++ j.bytes) : b = b' ∧ s = t ∧ i = j := by
  obtain ⟨keys, ids⟩ := List.append_inj' h (by simp)
  obtain ⟨blogs, times⟩ := eq_of_timedKey_eq hs ht keys
  exact ⟨blogs, times, RecordId.bytes_injective ids⟩

end

/-- Between two keys of a blog there are its articles of the times between. -/
theorem timedKey_in_range_iff {blogId blogId' : RecordId} {first upper t : UnixTime}
    (hfirst : ¬ first.isNegative = true) (hupper : ¬ upper.isNegative = true)
    (ht : ¬ t.isNegative = true) :
    (timedKey blogId first ≤ timedKey blogId' t ∧ timedKey blogId' t < timedKey blogId upper) ↔
      blogId' = blogId ∧ first ≤ t ∧ t < upper := by
  have not_before : ¬ t < first ↔ first ≤ t := by
    rw [UnixTime.lt_iff, UnixTime.le_iff, Int.not_lt]
  rw [← List.not_lt, timedKey_lt_iff ht hfirst, timedKey_lt_iff ht hupper, ← not_before]
  constructor
  · rintro ⟨from_start, less | ⟨same, before⟩⟩
    · exact absurd (.inl less) from_start
    · exact ⟨same, fun early => from_start (.inr ⟨same, early⟩), before⟩
  · rintro ⟨rfl, not_early, before⟩
    refine ⟨?_, .inr ⟨rfl, before⟩⟩
    rintro (less | ⟨-, early⟩)
    · exact UInt64.lt_irrefl _ less
    · exact not_early early

/-- A time before the epoch has no place in the order, and no other time has none. -/
theorem timedKey?_eq_none_iff {blogId : RecordId} {t : UnixTime} :
    timedKey? blogId t = none ↔ t.isNegative = true := by
  constructor
  · intro none
    by_contra not_negative
    rw [timedKey?_of_not_negative not_negative] at none
    cases none
  · intro negative
    rw [timedKey?, UnixTime.keyBytes?, if_pos negative]
    rfl

theorem timedBlog_of_negative {article : Article} (h : article.createdAt.isNegative = true) :
    Collections.timedBlog article = .error (untimedReason article.createdAt) := by
  rw [Collections.timedBlog, timedKey?_eq_none_iff.2 h]

end Article

/-! ## Comments by article and owner -/

namespace Comment

theorem length_articleOwnerKey (articleId : RecordId) (owner : Address) :
    (articleOwnerKey articleId owner).length = 28 := by
  rw [articleOwnerKey, List.length_append, RecordId.length_bytes, owner.length_bytes]
  rfl

theorem articleOwnerKey_inj {articleId articleId' : RecordId} {owner owner' : Address} :
    articleOwnerKey articleId owner = articleOwnerKey articleId' owner' ↔
      articleId = articleId' ∧ owner = owner' := by
  rw [articleOwnerKey, articleOwnerKey, RecordId.bytes_append_inj, Address.mk.injEq]

/-- What has the width of a key and starts with the octets of an article is a key of it. -/
theorem exists_articleOwnerKey_iff {articleId : RecordId} {k : Bytes} :
    (∃ owner, articleOwnerKey articleId owner = k) ↔ k.length = 28 ∧ articleId.bytes <+: k := by
  constructor
  · rintro ⟨owner, rfl⟩
    exact ⟨length_articleOwnerKey articleId owner, List.prefix_append _ _⟩
  · rintro ⟨length, rest, rfl⟩
    rw [List.length_append, RecordId.length_bytes, RecordId.width] at length
    exact ⟨⟨rest, by omega⟩, rfl⟩

/-- The keys of all comments are the strings of their width. -/
theorem exists_articleOwnerKey_iff_length {k : Bytes} :
    (∃ articleId owner, articleOwnerKey articleId owner = k) ↔ k.length = 28 := by
  constructor
  · rintro ⟨articleId, owner, rfl⟩
    exact length_articleOwnerKey articleId owner
  · intro length
    obtain ⟨articleId, starts⟩ := RecordId.exists_bytes_prefix (b := k) (by rw [length]; decide)
    exact ⟨articleId, exists_articleOwnerKey_iff.2 ⟨length, starts⟩⟩

end Comment

/-! ## Values and keys -/

/-- From the epoch on, the keys of articles are in the order of the numbers that they are made
of, and so are they with IDs after them; before the epoch there are none. The keys of comments
give back the article and the owner, and those of one article are the keys that start with its
octets. -/
theorem compoundKeys_exact :
    (∀ (b c : RecordId) (s t : UnixTime), 0 ≤ s.seconds → 0 ≤ t.seconds →
        ∃ k l, Article.timedKey? b s = some k ∧ Article.timedKey? c t = some l
          ∧ (k < l ↔ toLex (b.sequence, s.seconds) < toLex (c.sequence, t.seconds))
          ∧ (k = l ↔ (b.sequence, s.seconds) = (c.sequence, t.seconds))
          ∧ ∀ i j : RecordId,
            (k ++ i.bytes < l ++ j.bytes ↔
              toLex (b.sequence, toLex (s.seconds, i.sequence))
                < toLex (c.sequence, toLex (t.seconds, j.sequence)))
            ∧ (k ++ i.bytes = l ++ j.bytes ↔
              (b.sequence, s.seconds, i.sequence) = (c.sequence, t.seconds, j.sequence)))
      ∧ (∀ b t, t.seconds < 0 → Article.timedKey? b t = none
          ∧ Collections.timedBound b t = .error (.invalidState (.untimed t)))
      ∧ (∀ article : Article, article.createdAt.seconds < 0 →
          Collections.timedBlog article = .error (Article.untimedReason article.createdAt))
      ∧ (∀ a b o p, Comment.articleOwnerKey a o = Comment.articleOwnerKey b p ↔ a = b ∧ o = p)
      ∧ ∀ k, ((∃ b o, Comment.articleOwnerKey b o = k) ↔ k.length = 28)
        ∧ ∀ a, (∃ o, Comment.articleOwnerKey a o = k) ↔
            (∃ b o, Comment.articleOwnerKey b o = k) ∧ a.bytes <+: k := by
  have negative_iff : ∀ t : UnixTime, t.isNegative = true ↔ t.seconds < 0 := fun t =>
    decide_eq_true_iff
  have ids : ∀ i j : RecordId, i = j ↔ i.sequence = j.sequence := fun i j => by
    rw [← RecordId.mk.injEq]
  have times : ∀ s t : UnixTime, s = t ↔ s.seconds = t.seconds := fun s t => by
    rw [← UnixTime.mk.injEq]
  refine ⟨fun b c s t hs ht => ?_, fun b t negative => ?_, fun article negative => ?_,
    fun _ _ _ _ => Comment.articleOwnerKey_inj,
    fun k => ⟨Comment.exists_articleOwnerKey_iff_length, fun a => ?_⟩⟩
  · rw [← Int64.not_lt, ← negative_iff] at hs ht
    refine ⟨_, _, Article.timedKey?_of_not_negative hs b, Article.timedKey?_of_not_negative ht c,
      ?_, ?_, fun i j => ⟨?_, ?_⟩⟩
    · rw [Article.timedKey_lt_iff hs ht, Prod.Lex.toLex_lt_toLex, ids]
      exact Iff.rfl
    · rw [Prod.mk.injEq, ← ids, ← times]
      exact ⟨Article.eq_of_timedKey_eq hs ht, fun ⟨blogs, instants⟩ => by rw [blogs, instants]⟩
    · rw [Article.timedKey_append_lt_iff hs ht, Prod.Lex.toLex_lt_toLex, Prod.Lex.toLex_lt_toLex,
        ids, times]
      exact Iff.rfl
    · rw [Prod.mk.injEq, Prod.mk.injEq, ← ids, ← times, ← ids]
      exact ⟨Article.eq_of_timedKey_append_eq hs ht,
        fun ⟨blogs, instants, same⟩ => by rw [blogs, instants, same]⟩
  · rw [← negative_iff] at negative
    exact ⟨Article.timedKey?_eq_none_iff.2 negative, Collections.timedBound_of_negative negative b⟩
  · exact Article.timedBlog_of_negative ((negative_iff _).2 negative)
  · rw [Comment.exists_articleOwnerKey_iff, Comment.exists_articleOwnerKey_iff_length]

/-- The last second of one blog comes before the epoch of the next, also where the number of the
blog carries into another octet. Keys of one article differ in the owners. -/
theorem compoundKeys_exact_carry :
    (∃ k l, Article.timedKey? ⟨255⟩ UnixTime.last = some k ∧ Article.timedKey? ⟨256⟩ ⟨0⟩ = some l
        ∧ k < l ∧ k ≠ l ∧ k ++ (⟨2⟩ : RecordId).bytes < l ++ (⟨1⟩ : RecordId).bytes)
      ∧ Article.timedKey? ⟨255⟩ ⟨-1⟩ = none
      ∧ Comment.articleOwnerKey ⟨1⟩ ⟨List.replicate 20 1, rfl⟩ ≠
          Comment.articleOwnerKey ⟨1⟩ .zero := by
  obtain ⟨timed, untimed, -, inj, -⟩ := compoundKeys_exact
  obtain ⟨k, l, hk, hl, lt_iff, eq_iff, entries⟩ :=
    timed ⟨255⟩ ⟨256⟩ UnixTime.last ⟨0⟩ (by decide) (by decide)
  have carries : (255 : UInt64) < 256 := by decide
  refine ⟨⟨k, l, hk, hl, ?_, ?_, ?_⟩, (untimed ⟨255⟩ ⟨-1⟩ (by decide)).1, ?_⟩
  · exact lt_iff.2 (Prod.Lex.toLex_lt_toLex.2 (.inl carries))
  · rw [ne_eq, eq_iff]
    decide
  · exact (entries _ _).1.2 (Prod.Lex.toLex_lt_toLex.2 (.inl carries))
  · rw [ne_eq, inj]
    decide

end Gazette
