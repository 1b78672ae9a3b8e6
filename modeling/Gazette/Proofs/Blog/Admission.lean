import Gazette.Proofs.Blog.Delivery
import Gazette.Proofs.Bucket.Admission
import Gazette.Proofs.UnixTime

set_option autoImplicit false

/-! # What the collections take

The collections have one unique index, by username. All other records are taken if their fields
are valid, because the rules for the fields leave no index a reason to refuse (`admits_of_valid`).
So saving a valid record that is no user succeeds as soon as there is an ID for it, and so do
queueing a task and issuing a ticket.
-/

namespace Gazette

/-! ## Fields -/

theorem Address.isZero_iff {a : Address} : a.isZero = true ↔ a = .zero := by
  obtain ⟨b, length⟩ := a
  rw [Address.isZero, List.all_eq_true]
  constructor
  · intro h
    have same : b = List.replicate 20 0 :=
      List.eq_replicate_iff.2 ⟨length, fun octet hoctet => by simpa using h octet hoctet⟩
    subst same
    rfl
  · intro h
    obtain rfl : b = List.replicate 20 0 := congrArg Address.bytes h
    exact fun octet hoctet => decide_eq_true (List.eq_of_mem_replicate hoctet)

namespace Field

theorem owner_eq_ok {a : Address} : owner a = .ok () ↔ a ≠ .zero := by
  rw [owner, ne_eq, ← Address.isZero_iff]
  split
  · rename_i zero
    exact iff_of_false (fun h => by cases h) (not_not_intro zero)
  · rename_i not_zero
    exact iff_of_true rfl not_zero

theorem reference_eq_ok {id : RecordId} : reference id = .ok () ↔ id.sequence ≠ 0 := by
  rw [reference]
  split
  · rename_i zero
    exact iff_of_false (fun h => by cases h) (not_not_intro zero)
  · rename_i not_zero
    exact iff_of_true rfl not_zero

end Field

/-- The next ID of a table is not zero. -/
theorem Table.HasRoom.reference_next {ρ : Type} {table : Table ρ} (h : table.HasRoom) :
    Field.reference table.next = .ok () := by
  refine Field.reference_eq_ok.2 fun zero => ?_
  have less := h.last_lt
  rw [show table.last + 1 = 0 from zero] at less
  exact UInt64.not_lt_zero less

/-! ## The order of creation -/

namespace Article

/-- The key of an article of the blog that was created at this time, from the epoch on. -/
def timedKey (blogId : RecordId) (t : UnixTime) : Bytes := blogId.bytes ++ t.key

theorem timedKey?_of_not_negative {t : UnixTime} (h : ¬ t.isNegative = true) (blogId : RecordId) :
    timedKey? blogId t = some (timedKey blogId t) := by
  rw [timedKey?, UnixTime.keyBytes?_of_not_negative h]
  rfl

/-- A valid article has its place in the order. -/
theorem timedBlog_of_valid {article : Article} (valid : article.validate = .ok ()) :
    Collections.timedBlog article = .ok (some (timedKey article.blogId article.createdAt))
      ∧ ¬ article.createdAt.isNegative = true := by
  have checked := ValidationErrors.result_ofChecks.1 valid
  simp only [List.forall_mem_cons] at checked
  obtain ⟨-, -, -, -, -, created, -⟩ := checked
  have not_negative := UnixTime.not_negative_of_time created
  exact ⟨by rw [Collections.timedBlog, timedKey?_of_not_negative not_negative], not_negative⟩

end Article

namespace Collections

variable {t : UnixTime}

theorem timedBound_of_not_negative (h : ¬ t.isNegative = true) (blogId : RecordId) :
    timedBound blogId t = .ok (Article.timedKey blogId t) := by
  rw [timedBound, Article.timedKey?_of_not_negative h]

theorem timedBound_of_negative (h : t.isNegative = true) (blogId : RecordId) :
    timedBound blogId t = .error (.invalidState (.untimed t)) := by
  rw [timedBound, Article.timedKey?, UnixTime.keyBytes?, if_pos h]
  rfl

/-! ## Admission -/

variable {c : Collections}

/-- The index of usernames is the only unique one. -/
theorem unique_eq_false {kind : RecordKind} (hkind : kind ≠ .user) :
    ∀ index ∈ (c.bucketOf kind).indexes, index.unique = false := by
  cases kind with
  | user => exact absurd rfl hkind
  | blog | like | task => exact List.forall_mem_singleton.2 rfl
  | article => exact List.forall_mem_cons.2 ⟨rfl, List.forall_mem_singleton.2 rfl⟩
  | comment =>
    exact List.forall_mem_cons.2 ⟨rfl, List.forall_mem_cons.2 ⟨rfl, List.forall_mem_singleton.2 rfl⟩⟩
  | ticket => exact List.forall_mem_nil _

/-- No index refuses a valid record. -/
theorem extract_eq_ok {kind : RecordKind} {record : kind.type}
    (valid : Record.validate record = .ok ()) :
    ∀ index ∈ (c.bucketOf kind).indexes, ∃ key, index.extract record = .ok key := by
  cases kind with
  | user | blog | like => exact List.forall_mem_singleton.2 ⟨_, rfl⟩
  | article =>
    obtain ⟨hkey, -⟩ := Article.timedBlog_of_valid valid
    exact List.forall_mem_cons.2 ⟨⟨_, rfl⟩, List.forall_mem_singleton.2 ⟨_, hkey⟩⟩
  | comment =>
    exact List.forall_mem_cons.2
      ⟨⟨_, rfl⟩, List.forall_mem_cons.2 ⟨⟨_, rfl⟩, List.forall_mem_singleton.2 ⟨_, rfl⟩⟩⟩
  | ticket => exact List.forall_mem_nil _
  | task => exact List.forall_mem_singleton.2 ⟨_, Task.runAtKey_eq_ok valid⟩

/-- A valid record that is no user is admitted under any ID. -/
theorem admits_of_valid {kind : RecordKind} (hkind : kind ≠ .user)
    {records : RecordId → Option kind.type} {id : RecordId} {record : kind.type}
    (valid : Record.validate record = .ok ()) :
    (c.bucketOf kind).Admits records id record where
  valid := valid
  indexed := extract_eq_ok valid
  free index hindex hunique := by
    rw [unique_eq_false hkind index hindex] at hunique
    cases hunique

/-- A valid user is admitted if no other user has the name. -/
theorem admits_user {records : RecordId → Option User} {id : RecordId} {user : User}
    (valid : user.validate = .ok ())
    (free : ∀ j other, records j = some other → other.username = user.username → j = id) :
    c.users.Admits records id user where
  valid := valid
  indexed := (extract_eq_ok valid :
    ∀ index ∈ (c.bucketOf .user).indexes, ∃ key, index.extract user = .ok key)
  free := List.forall_mem_singleton.2 fun _ j other k hother hk hk' => by
    have same : Utf8.encode user.username = Utf8.encode other.username :=
      Option.some.inj ((Except.ok.inj hk).trans (Except.ok.inj hk').symm)
    exact free j other hother (Utf8.encode_injective same).symm

end Collections

/-! ## Saving -/

namespace Handler

variable {c : Collections} {tables : Tables} {store : Store}

theorem save_new_ok (h : c.Hold store.contents tables) (hstore : store.Reliable)
    (kind : RecordKind) {record : kind.type} (hstorable : Record.Storable record)
    (hnew : Record.id record = none) (room : (tables.of kind).HasRoom)
    (admits : (c.bucketOf kind).Admits (tables.of kind).records (tables.of kind).next
      (Record.withId record (tables.of kind).next)) :
    ∃ after, store.perform (save (c.bucketOf kind) record) = (.ok (tables.of kind).next, after)
      ∧ after.Reliable
      ∧ c.Hold after.contents (tables.set kind ((tables.of kind).add record)) := by
  obtain ⟨answer, after, hput⟩ := ((h kind).put_new_iff hstore hnew).2 ⟨room, admits⟩
  have hsave : store.perform (save (c.bucketOf kind) record) = (.ok answer.1, after) :=
    Store.perform_map_eq_ok.2 ⟨answer, Store.perform_mapError_eq_ok.2 hput, rfl⟩
  obtain ⟨hid, -, hafter, hold⟩ := save_new h hstore kind hsave hstorable hnew
  exact ⟨after, hid ▸ hsave, hafter, hold⟩

theorem save_exhausted (h : c.Hold store.contents tables) (hstore : store.Reliable)
    (kind : RecordKind) {record : kind.type} (hnew : Record.id record = none)
    (full : ¬ (tables.of kind).HasRoom) :
    store.perform (save (c.bucketOf kind) record) =
      (.error (.store (.exhausted kind.label)), store) := by
  refine Store.perform_bind_of_error ?_ _
  rw [Store.perform_mapError, (h kind).put_exhausted hstore hnew full, c.text_bucketOf]
  rfl

theorem save_own_ok (h : c.Hold store.contents tables) (hstore : store.Reliable)
    (kind : RecordKind) {record : kind.type} {id : RecordId} (hstorable : Record.Storable record)
    (hown : Record.id record = some id)
    (admits : (c.bucketOf kind).Admits (tables.of kind).records id record) :
    ∃ after, store.perform (save (c.bucketOf kind) record) = (.ok id, after)
      ∧ after.Reliable
      ∧ c.Hold after.contents (tables.set kind ((tables.of kind).set id record)) := by
  obtain ⟨answer, after, hput⟩ := ((h kind).put_own_iff hstore hown).2 admits
  have hsave : store.perform (save (c.bucketOf kind) record) = (.ok answer.1, after) :=
    Store.perform_map_eq_ok.2 ⟨answer, Store.perform_mapError_eq_ok.2 hput, rfl⟩
  obtain ⟨hid, hafter, hold⟩ := save_own h hstore kind hsave hstorable hown
  exact ⟨after, hid ▸ hsave, hafter, hold⟩

end Handler

/-! ## Scheduling -/

namespace Collections.Hold

variable {c : Collections} {tables : Tables} {store : Store} {ctx : Context}

theorem queue_schedule_ok (h : c.Hold store.contents tables) (hstore : store.Reliable)
    {runAt : UnixTime} {payload : Bytes} (hpayload : payload.length < UInt64.size)
    (hrunAt : Check.time runAt = .ok ()) (room : tables.tasks.HasRoom) :
    ∃ after, store.perform (Queue.schedule runAt payload) = (.ok tables.tasks.next, after)
      ∧ after.Reliable
      ∧ c.Hold after.contents
          { tables with tasks := tables.tasks.add { id := none, runAt, payload } } := by
  let task : Task := { id := none, runAt, payload }
  have not_user : RecordKind.task ≠ .user := by decide
  have valid : Record.validate (Record.withId task tables.tasks.next) = .ok () :=
    ValidationErrors.result_ofChecks.2
      (List.forall_mem_cons.2 ⟨rfl, List.forall_mem_singleton.2 hrunAt⟩)
  have admits : (c.bucketOf .task).Admits tables.tasks.records tables.tasks.next
      (Record.withId task tables.tasks.next) := admits_of_valid not_user valid
  obtain ⟨answer, after, hput⟩ := ((h .task).put_new_iff hstore rfl).2 ⟨room, admits⟩
  have not_negative : ¬ runAt.isNegative = true := by
    intro negative
    rw [Check.time, if_pos negative] at hrunAt
    cases hrunAt
  have hschedule : store.perform (Queue.schedule runAt payload) = (.ok answer.1, after) := by
    unfold Queue.schedule
    rw [if_neg not_negative]
    exact Store.perform_bind_eq_ok.2
      ⟨answer, after, Store.perform_mapError_eq_ok.2 hput, rfl⟩
  obtain ⟨hid, -, hafter, hold⟩ := h.queue_schedule hstore hpayload hschedule
  exact ⟨after, hid ▸ hschedule, hafter, hold⟩

/-- The deletion of an article can be scheduled for a time after the block. -/
theorem schedule_ok (h : c.Hold store.contents tables) (hstore : store.Reliable)
    {articleId : RecordId} {owner : Address} {runAt : UnixTime}
    (hsigned : ctx.mainSigner = .ok owner) (howner : Field.owner owner = .ok ())
    (harticle : Field.reference articleId = .ok ()) (hahead : ctx.requireAhead runAt = .ok ())
    (hrunAt : Check.time runAt = .ok ()) (room : tables.tasks.HasRoom) :
    ∃ taskId after, store.perform (Deletions.schedule ⟨Queue.scheduler, c⟩ ctx articleId runAt) =
      (.ok taskId, after) := by
  obtain ⟨queued, hqueue, hqueued, hold⟩ :=
    h.queue_schedule_ok hstore (Deletions.length_payload_lt articleId) hrunAt room
  let ticket : DeletionTicket := { id := some tables.tasks.next, articleId, owner }
  have valid : Record.validate ticket = .ok () :=
    ValidationErrors.result_ofChecks.2 (List.forall_mem_cons.2
      ⟨rfl, List.forall_mem_cons.2 ⟨harticle, List.forall_mem_singleton.2 howner⟩⟩)
  have not_user : RecordKind.ticket ≠ .user := by decide
  have admits : (c.bucketOf .ticket).Admits tables.tickets.records tables.tasks.next ticket :=
    admits_of_valid not_user valid
  obtain ⟨answer, after, hput⟩ := ((hold .ticket).put_own_iff hqueued rfl).2 admits
  refine ⟨tables.tasks.next, after, ?_⟩
  unfold Deletions.schedule
  refine Store.perform_read_bind_eq_ok.2 ⟨(), hahead, ?_⟩
  refine Store.perform_read_bind_eq_ok.2 ⟨owner, hsigned, ?_⟩
  refine Store.perform_bind_eq_ok.2
    ⟨tables.tasks.next, queued, Store.perform_mapError_eq_ok.2 hqueue, ?_⟩
  exact Store.perform_bind_eq_ok.2 ⟨answer, after, Store.perform_mapError_eq_ok.2 hput, rfl⟩

/-- A deletion that one may cancel can be cancelled as long as its task is queued. -/
theorem cancel_ok (h : c.Hold store.contents tables) (hstore : store.Reliable)
    {taskId : RecordId} {ticket : DeletionTicket} {task : Task}
    (hauthorized : Deletions.authorizeCancel ⟨Queue.scheduler, c⟩ ctx taskId store = .ok ticket)
    (hqueued : tables.tasks.records taskId = some task) :
    ∃ after, store.perform (Deletions.cancel ⟨Queue.scheduler, c⟩ ctx taskId) =
      (.ok (), after) := by
  obtain ⟨dequeued, hremove, hdequeued, hold⟩ := h.delete_eq hstore .task taskId
  obtain ⟨after, hdelete, -, -⟩ := hold.delete_eq hdequeued .ticket taskId
  have present : ((tables.of .task).records taskId).isSome = true := by
    show (tables.tasks.records taskId).isSome = true
    rw [hqueued]
    rfl
  have hcancel : store.perform (Queue.cancel taskId) = (.ok (), dequeued) := by
    unfold Queue.cancel
    refine Store.perform_bind_eq_ok.2
      ⟨true, dequeued, Store.perform_mapError_eq_ok.2 (present ▸ hremove), rfl⟩
  refine ⟨after, ?_⟩
  unfold Deletions.cancel
  refine Store.perform_read_bind_eq_ok.2 ⟨ticket, hauthorized, ?_⟩
  refine Store.perform_bind_eq_ok.2
    ⟨(), dequeued, Store.perform_mapError_eq_ok.2 hcancel, ?_⟩
  exact Store.perform_bind_eq_ok.2 ⟨_, after, Store.perform_mapError_eq_ok.2 hdelete, rfl⟩

end Collections.Hold

end Gazette
