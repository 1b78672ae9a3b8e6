import Gazette.Blog.Message
import Gazette.Proofs.Blog.Tables
import Gazette.Proofs.Canonical

set_option autoImplicit false

/-! # The formats of messages and records

A record is written as the list of its fields, and a message as the number of its kind and the
list of its fields. All fields have lossless codecs, so messages and records of every kind have
(`Message.lossless`, `RecordKind.lossless`), and a byte string stands for at most one of them
(`formats_exact`).
-/

namespace Gazette

open Codec

/-! ## Messages -/

namespace Message

/-- Reading the fields of a kind gives a message of this kind, and what is written for its fields
is what was read. -/
theorem decodeFields_eq_ok {kind : MessageKind} {b rest : Bytes} {message : Message}
    (h : decodeFields kind b = .ok (message, rest)) :
    message.kind = kind ∧ b = message.encodeFields ++ rest := by
  have ids := lossless_recordId.canonical
  have texts := lossless_text.canonical
  cases kind with
  | createUser | createBlog =>
    obtain ⟨⟨fields, left⟩, hfields, same⟩ := map_eq_ok.1 h
    cases same
    exact ⟨rfl, (texts.pair texts) _ _ _ hfields⟩
  | changeBlogOwner =>
    obtain ⟨⟨fields, left⟩, hfields, same⟩ := map_eq_ok.1 h
    cases same
    exact ⟨rfl, (ids.pair lossless_address.canonical) _ _ _ hfields⟩
  | createArticle =>
    obtain ⟨⟨fields, left⟩, hfields, same⟩ := map_eq_ok.1 h
    cases same
    have deadlines := lossless_time.optional.canonical
    exact ⟨rfl, (ids.pair (texts.pair (texts.pair deadlines))) _ _ _ hfields⟩
  | createComment =>
    obtain ⟨⟨fields, left⟩, hfields, same⟩ := map_eq_ok.1 h
    cases same
    exact ⟨rfl, (ids.pair texts) _ _ _ hfields⟩
  | deleteArticle | cancelDeletion | createLike =>
    obtain ⟨⟨id, left⟩, hid, same⟩ := map_eq_ok.1 h
    cases same
    exact ⟨rfl, ids _ _ _ hid⟩

/-- The fields of a message read back, if the kind is known. -/
theorem decodeFields_encodeFields {message : Message}
    (h : message.encodeFields.length < UInt64.size) (rest : Bytes) :
    decodeFields message.kind (message.encodeFields ++ rest) = .ok (message, rest) := by
  cases message with
  | createUser username bio =>
    exact map_eq_ok.2 ⟨_, (lossless_text.pair lossless_text).reads_back (username, bio) h rest, rfl⟩
  | createBlog title description =>
    exact map_eq_ok.2
      ⟨_, (lossless_text.pair lossless_text).reads_back (title, description) h rest, rfl⟩
  | changeBlogOwner blogId newOwner =>
    exact map_eq_ok.2
      ⟨_, (lossless_recordId.pair lossless_address).reads_back (blogId, newOwner) h rest, rfl⟩
  | createArticle blogId title content deleteAt =>
    have fields := lossless_recordId.pair
      (lossless_text.pair (lossless_text.pair lossless_time.optional))
    exact map_eq_ok.2 ⟨_, fields.reads_back (blogId, title, content, deleteAt) h rest, rfl⟩
  | deleteArticle id | cancelDeletion id | createLike id =>
    exact map_eq_ok.2 ⟨_, lossless_recordId.reads_back id h rest, rfl⟩
  | createComment articleId content =>
    exact map_eq_ok.2
      ⟨_, (lossless_recordId.pair lossless_text).reads_back (articleId, content) h rest, rfl⟩

theorem lossless : codec.Lossless where
  reads_back message hlength rest := by
    have lengths : (word32.encode message.kind.number ++ message.encodeFields).length
        < UInt64.size := hlength
    rw [List.length_append] at lengths
    show codec.decode ((word32.encode message.kind.number ++ message.encodeFields) ++ rest) = _
    rw [List.append_assoc]
    have known : MessageKind.all.find? (·.number = message.kind.number) = some message.kind := by
      cases message <;> rfl
    refine bind_eq_ok.2 ⟨_, readsBack_word32 _ _, ?_⟩
    simp only [known]
    exact decodeFields_encodeFields (by omega) rest
  canonical b message rest h := by
    obtain ⟨⟨number, fields⟩, hnumber, h⟩ := bind_eq_ok.1 h
    simp only at h
    split at h
    · rename_i kind known
      obtain ⟨rfl, rfl⟩ := decodeFields_eq_ok h
      obtain rfl : message.kind.number = number := by simpa using List.find?_some known
      show b = (word32.encode message.kind.number ++ message.encodeFields) ++ rest
      rw [List.append_assoc]
      exact canonical_word32 _ _ _ hnumber
    · cases h

end Message

/-! ## Records -/

theorem RecordKind.lossless (kind : RecordKind) : (Record.codec : Codec kind.type).Lossless := by
  have ids := lossless_recordId
  have owners := lossless_address
  have texts := lossless_text
  have times := lossless_time
  have counts := lossless_word64
  cases kind with
  | user =>
    show User.codec.Lossless
    refine .map ?_ (fun _ => rfl) fun _ => rfl
    exact ids.optional.pair (texts.pair (texts.pair times))
  | blog =>
    show Blog.codec.Lossless
    refine .map ?_ (fun _ => rfl) fun _ => rfl
    exact ids.optional.pair (owners.pair (texts.pair (texts.pair times)))
  | article =>
    show Article.codec.Lossless
    refine .map ?_ (fun _ => rfl) fun _ => rfl
    exact ids.optional.pair (ids.pair (owners.pair (texts.pair (texts.pair (counts.pair
      (counts.pair (times.pair times.optional)))))))
  | comment =>
    show Comment.codec.Lossless
    refine .map ?_ (fun _ => rfl) fun _ => rfl
    exact ids.optional.pair (ids.pair (owners.pair (texts.pair times)))
  | like =>
    show Like.codec.Lossless
    refine .map ?_ (fun _ => rfl) fun _ => rfl
    exact ids.optional.pair (ids.pair (owners.pair times))
  | ticket =>
    show DeletionTicket.codec.Lossless
    refine .map ?_ (fun _ => rfl) fun _ => rfl
    exact ids.optional.pair (ids.pair owners)
  | task =>
    show Task.codec.Lossless
    refine .map ?_ (fun _ => rfl) fun _ => rfl
    exact ids.optional.pair (times.pair lossless_blob)

/-- For messages and for records of every kind, a byte string is read as a value if and only if
it begins with what is written for the value. -/
theorem formats_exact :
    Message.codec.ExactBelow UInt64.size
      ∧ ∀ kind : RecordKind, (Record.codec : Codec kind.type).ExactBelow UInt64.size :=
  ⟨Message.lossless.exact, fun kind => kind.lossless.exact⟩

/-- A message and a task that carries it, each with two octets after it. -/
theorem formats_exact_delete :
    let message : Message := .deleteArticle ⟨7⟩
    let task : Task := ⟨some ⟨1⟩, ⟨20⟩, Message.codec.encode message⟩
    Message.codec.read (Message.codec.encode message ++ [1, 0]) = .ok message
      ∧ Task.codec.read (Task.codec.encode task ++ [1, 0]) = .ok task := by
  intro message task
  obtain ⟨messages, records⟩ := formats_exact
  have tasks : Task.codec.ExactBelow UInt64.size := records .task
  exact ⟨(messages.read_iff message _ (by decide)).2 (List.prefix_append _ _),
    (tasks.read_iff task _ (by decide)).2 (List.prefix_append _ _)⟩

end Gazette
