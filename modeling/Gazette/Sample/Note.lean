import Gazette.Bucket.Basic

set_option autoImplicit false

/-! # Notes

A small record type for trying out buckets, with an index function of every sort: always a key,
sometimes one, never one, always the same one, and functions that refuse some notes or all.
-/

namespace Gazette

/-- A note on a topic. -/
structure Note where
  id : Option RecordId
  author : String
  topic : UInt8
  time : Int64
  deriving DecidableEq, Repr

namespace Note

/-- The author is named by 1 to 16 letters and digits. -/
def validate (note : Note) : Except ValidationErrors Unit :=
  (ValidationErrors.ofChecks
    [("Author", Check.text 1 16 Char.isAlphanum note.author)]).result

/-- The fields in their order. -/
def codec : Codec Note :=
  ((Codec.optional .recordId).pair (Codec.text.pair (Codec.word8.pair .int64))).map
    (fun (id, author, topic, time) => { id, author, topic, time })
    (fun note => (note.id, note.author, note.topic, note.time))

instance : Record Note where
  id := Note.id
  withId note id := { note with id := some id }
  validate := validate
  codec := codec

/-- By author. -/
def authorKey (note : Note) : Except String (Option Bytes) := .ok (some (Utf8.encode note.author))

/-- By topic; topic zero is left out. -/
def topicKey (note : Note) : Except String (Option Bytes) :=
  .ok (if note.topic = 0 then none else some [note.topic])

/-- By topic, then by time. -/
def topicTimeKey (note : Note) : Except String (Option Bytes) :=
  match (UnixTime.mk note.time).keyBytes? with
  | some time => .ok (some (note.topic :: time))
  | none => .error "negative time"

/-- No note has a key. -/
def noKey (_ : Note) : Except String (Option Bytes) := .ok none

/-- All notes have the empty key. -/
def emptyKey (_ : Note) : Except String (Option Bytes) := .ok (some [])

/-- Every note is refused. -/
def refusedKey (_ : Note) : Except String (Option Bytes) := .error "always fails"

end Note

end Gazette
