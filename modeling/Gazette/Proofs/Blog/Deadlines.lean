import Gazette.Proofs.Blog.Permanence

set_option autoImplicit false

/-! # What becomes of deadlines

An article is posted together with the task that deletes it at its deadline, and both stay in step,
as a deadline is never changed, until the deletion is cancelled. That takes the task and its ticket
away, but leaves the article as it is: the deadline is still there, and nothing will happen when
it is reached (`App.deadline_outlives_task`).

So the tables do not tell whether a deadline still means something; the run does
(`App.CalledOff`). The invariant is about the tickets (`Tables.Tracks`): an article has none once
its deletion was called off, since tickets are only issued for new articles, and as long as it is
stored with a deadline it has one until then.
-/

namespace Gazette

/-- Which articles have tickets: none whose deletion was called off, and of the others all that are
stored with a deadline. -/
structure Tables.Tracks (tables : Tables) (calledOff : RecordId → Prop) : Prop where
  released : ∀ a, calledOff a → tables.articles.Issued a ∧ ¬ tables.Ticketed a
  ticketed : tables.articles.All fun a article =>
    article.deleteAt ≠ none → ¬ calledOff a → tables.Ticketed a

theorem Tables.tracks_empty : Tables.empty.Tracks fun _ => False where
  released _ off := off.elim
  ticketed _ _ hstored := by cases hstored

variable {tables tables' : Tables} {a : RecordId} {article : Article}

theorem Tables.Tracks.congr {p q : RecordId → Prop} (h : tables.Tracks p) (same : ∀ a, q a ↔ p a) :
    tables.Tracks q := by
  obtain rfl : q = p := funext fun a => propext (same a)
  exact h

/-- An article with a deadline had the deadline before the message was delivered, or it is new and
has a ticket. -/
theorem Delivered.deadline {ctx : Context} {message : Message} {id : RecordId}
    (h : Delivered ctx tables message id tables')
    (hstored : tables'.articles.records a = some article) (hdeadline : article.deleteAt ≠ none) :
    (∃ old, tables.articles.records a = some old ∧ old.deleteAt = article.deleteAt)
      ∨ tables'.Ticketed a := by
  cases h with
  | createUser | createBlog | changeBlogOwner | cancelDeletion =>
    exact .inl ⟨article, hstored, rfl⟩
  | createArticle =>
    rw [Table.records_add] at hstored
    split at hstored
    · cases hstored
      exact absurd rfl hdeadline
    · exact .inl ⟨article, hstored, rfl⟩
  | scheduleArticle =>
    simp only [Tables.schedule, Table.records_add] at hstored
    split at hstored
    · rename_i new
      exact .inr ⟨_, _, Table.records_set_self .., new.symm⟩
    · exact .inl ⟨article, hstored, rfl⟩
  | deleteArticle =>
    rw [Table.records_erase] at hstored
    split at hstored
    · cases hstored
    · exact .inl ⟨article, hstored, rfl⟩
  | createComment found | createLike found =>
    rw [Table.records_set] at hstored
    split at hstored
    · rename_i same
      cases hstored
      subst same
      exact .inl ⟨_, found, rfl⟩
    · exact .inl ⟨article, hstored, rfl⟩

namespace App

variable {config : Config} {app : App} {store : Store} {call : Call}

/-- The call cancels the deletion of the article, with success. -/
def CallsOff (app : App) (store : Store) (call : Call) (a : RecordId) : Prop :=
  ∃ taskId ticket, app.Delivers store call (.cancelDeletion taskId)
    ∧ app.collections.tickets.get store taskId = .ok (some ticket) ∧ ticket.articleId = a

/-- In the course of the run the deletion of the article was cancelled. -/
def CalledOff (app : App) (calls : List Call) (a : RecordId) : Prop :=
  ∃ earlier call later, calls = earlier ++ call :: later
    ∧ app.CallsOff (app.reached earlier) call a

/-- The task with this ID is queued to delete the article at this time. -/
def Awaits (store : Store) (a : RecordId) (t : UnixTime) (taskId : RecordId) : Prop :=
  Queue.get store taskId =
    .ok (some { id := some taskId, runAt := t, payload := Deletions.payload a })

theorem not_calledOff_nil (app : App) (a : RecordId) : ¬ app.CalledOff [] a :=
  not_exists_split_nil

theorem calledOff_concat (app : App) (calls : List Call) (call : Call) (a : RecordId) :
    app.CalledOff (calls ++ [call]) a ↔
      app.CalledOff calls a ∨ app.CallsOff (app.reached calls) call a :=
  exists_split_concat

/-! ## One call -/

namespace Effect

variable (effect : Effect app store tables call tables')

include effect

theorem orderly (h : tables.Orderly) : tables'.Orderly := by
  cases effect with
  | idle => exact h
  | deliver done delivered => exact delivered.orderly h
  | run silent executed => exact executed.orderly h

theorem older : tables.Older tables' := by
  cases effect with
  | idle => exact .refl tables
  | deliver done delivered => exact delivered.older
  | run silent executed => exact executed.older

theorem ticketed (hissued : tables.articles.Issued a) (h : tables'.Ticketed a) :
    tables.Ticketed a := by
  cases effect with
  | idle => exact h
  | deliver done delivered => exact delivered.ticketed hissued h
  | run silent executed =>
    have tickets : tables'.tickets = tables.tickets := executed.of_eq .ticket nofun nofun
    simpa only [Tables.Ticketed, tickets] using h

theorem not_ticketed_of_cancelled (linked : tables.Linked) {taskId : RecordId}
    {ticket : DeletionTicket} (cancels : app.Delivers store call (.cancelDeletion taskId))
    (hticket : tables.tickets.records taskId = some ticket) :
    ¬ tables'.Ticketed ticket.articleId := by
  cases effect with
  | idle silent | run silent => exact absurd cancels (silent _)
  | deliver done delivered =>
    obtain rfl := (delivers_iff done _).1 cancels
    cases delivered
    exact linked.not_ticketed_cancel hticket

theorem deadline (hstored : tables'.articles.records a = some article)
    (hdeadline : article.deleteAt ≠ none) :
    (∃ old, tables.articles.records a = some old ∧ old.deleteAt = article.deleteAt)
      ∨ tables'.Ticketed a := by
  cases effect with
  | idle => exact .inl ⟨article, hstored, rfl⟩
  | deliver done delivered => exact delivered.deadline hstored hdeadline
  | run silent executed => exact .inl ⟨article, executed.frame.1 a article hstored, rfl⟩

/-- What was called off before, and what this call calls off, has no ticket after it, and what
has a deadline still has one. -/
theorem tracks (stands : app.Stands store tables) (orderly : tables.Orderly)
    {calledOff : RecordId → Prop} (h : tables.Tracks calledOff) :
    tables'.Tracks fun a => calledOff a ∨ app.CallsOff store call a where
  released a off := by
    have later : ∀ {a}, tables.articles.Issued a → tables'.articles.Issued a :=
      fun hissued => UInt64.le_trans hissued (effect.older .article)
    rcases off with off | ⟨taskId, ticket, cancels, hticket, rfl⟩
    · obtain ⟨hissued, unticketed⟩ := h.released a off
      exact ⟨later hissued, fun hticketed => unticketed (effect.ticketed hissued hticketed)⟩
    · rw [stands.get_ticket, Except.ok.injEq] at hticket
      exact ⟨later (stands.linked.named_issued taskId ticket hticket),
        effect.not_ticketed_of_cancelled stands.linked cancels hticket⟩
  ticketed a article hstored hdeadline on := by
    rw [not_or] at on
    rcases effect.deadline hstored hdeadline with ⟨old, hold, same⟩ | hticketed
    · obtain ⟨i, ticket, hticket, rfl⟩ := h.ticketed a old hold (same ▸ hdeadline) on.1
      -- the ticket stays unless it is this call that cancels the deletion
      rcases effect.ticket orderly hticket with ⟨cancels, -⟩ | kept
      · refine absurd ⟨i, ticket, cancels, ?_, rfl⟩ on.2
        rw [stands.get_ticket, hticket]
      · exact ⟨i, ticket, kept, rfl⟩
    · exact hticketed

end Effect

/-! ## All calls -/

/-- The induction is from the end of the run, where what was called off before is known. -/
theorem exists_tracks (config : Config) (calls : List Call) :
    ∃ tables, (ofConfig config).Stands ((ofConfig config).reached calls) tables
      ∧ tables.Orderly ∧ tables.Tracks ((ofConfig config).CalledOff calls) := by
  induction calls using List.reverseRecOn with
  | nil =>
    exact ⟨.empty, stands_memory _, Tables.orderly_empty,
      Tables.tracks_empty.congr fun a => iff_false_intro (not_calledOff_nil _ a)⟩
  | append_singleton calls call ih =>
    obtain ⟨tables, stands, orderly, tracks⟩ := ih
    obtain ⟨tables', effect, stands'⟩ := stands.effect call
    rw [reached_concat]
    exact ⟨tables', stands', effect.orderly orderly,
      (effect.tracks stands orderly tracks).congr (calledOff_concat _ calls call)⟩

namespace Stands

theorem awaits_iff (h : app.Stands store tables) (a : RecordId) (t : UnixTime)
    (taskId : RecordId) :
    Awaits store a t taskId ↔ ∃ task, tables.tasks.records taskId = some task
      ∧ task.runAt = t ∧ task.payload = Deletions.payload a := by
  rw [Awaits, h.get_task, Except.ok.injEq]
  constructor
  · exact fun htask => ⟨_, htask, rfl, rfl⟩
  · rintro ⟨⟨id, runAt, payload⟩, htask, rfl, rfl⟩
    have own : id = some taskId := ((h.hold .task).represents.sound taskId _ htask).carries
    rw [htask, own]

/-- A queued task whose payload names an article has the ticket for it. -/
theorem ticket_of_named (h : app.Stands store tables) {taskId : RecordId} {task : Task}
    (htask : tables.tasks.records taskId = some task)
    (hread : Message.codec.read task.payload = .ok (.deleteArticle a)) :
    task.payload = Deletions.payload a
      ∧ ∃ ticket, tables.tickets.records taskId = some ticket ∧ ticket.articleId = a := by
  obtain ⟨ticket, hticket, hpayload⟩ := h.linked.ticketed taskId task htask
  rw [hpayload, Deletions.read_payload, Except.ok.injEq, Message.deleteArticle.injEq] at hread
  exact ⟨hread ▸ hpayload, ticket, hticket, hread⟩

/-- An article with a ticket has one task, which is queued for its deadline. -/
theorem existsUnique_awaits (h : app.Stands store tables) {t : UnixTime}
    (hstored : tables.articles.records a = some article) (hdeadline : article.deleteAt = some t)
    (hticketed : tables.Ticketed a) : ∃! taskId, Awaits store a t taskId := by
  obtain ⟨taskId, ticket, hticket, rfl⟩ := hticketed
  obtain ⟨task, htask, hlive, -⟩ := h.linked.live taskId ticket article hticket hstored
  obtain ⟨other, hother, hpayload⟩ := h.linked.ticketed taskId task htask
  obtain rfl := Option.some.inj (hother.symm.trans hticket)
  refine ⟨taskId, (h.awaits_iff ..).2 ⟨task, htask, ?_, hpayload⟩, fun other hawaits => ?_⟩
  · exact Option.some.inj (hlive.symm.trans hdeadline)
  · obtain ⟨task', htask', -, hpayload'⟩ := (h.awaits_iff ..).1 hawaits
    obtain ⟨-, ticket', hticket', hname⟩ :=
      h.ticket_of_named htask' (by rw [hpayload', Deletions.read_payload])
    exact h.linked.distinct other taskId ticket' _ hticket' hticket hname

end Stands

/-- No task is queued for an article whose deletion was called off. -/
theorem not_queued_of_calledOff {calls : List Call} (off : (ofConfig config).CalledOff calls a)
    {taskId : RecordId} {task : Task}
    (hqueued : Queue.get ((ofConfig config).reached calls) taskId = .ok (some task)) :
    Message.codec.read task.payload ≠ .ok (.deleteArticle a) := by
  obtain ⟨tables, stands, -, tracks⟩ := exists_tracks config calls
  rw [stands.get_task, Except.ok.injEq] at hqueued
  intro hread
  obtain ⟨-, ticketed⟩ := stands.ticket_of_named hqueued hread
  exact (tracks.released a off).2 ⟨taskId, ticketed⟩

/-- After every run a queued task that names a stored article is queued for the deadline of the
article. An article that is stored with a deadline has one such task, unless its deletion was
called off in the course of the run: then it has none, whatever its deadline says. -/
theorem deadline_live_unless_called_off (config : Config) (calls : List Call) :
    let app := ofConfig config
    let store := app.reached calls
    (∀ taskId task a article, Queue.get store taskId = .ok (some task) →
      Message.codec.read task.payload = .ok (.deleteArticle a) →
      app.collections.articles.get store a = .ok (some article) →
      ∃ t, article.deleteAt = some t ∧ Awaits store a t taskId)
    ∧ (∀ a article t, app.collections.articles.get store a = .ok (some article) →
      article.deleteAt = some t → ¬ app.CalledOff calls a →
      ∃! taskId, Awaits store a t taskId)
    ∧ ∀ a, app.CalledOff calls a → ∀ taskId task, Queue.get store taskId = .ok (some task) →
      Message.codec.read task.payload ≠ .ok (.deleteArticle a) := by
  intro app store
  obtain ⟨tables, stands, -, tracks⟩ := exists_tracks config calls
  refine ⟨?_, ?_, fun a off taskId task hqueued => not_queued_of_calledOff off hqueued⟩
  · intro taskId task a article hqueued hread harticle
    rw [stands.get_task, Except.ok.injEq] at hqueued
    rw [stands.get_article, Except.ok.injEq] at harticle
    obtain ⟨hpayload, ticket, hticket, rfl⟩ := stands.ticket_of_named hqueued hread
    obtain ⟨task', htask', hdeadline, -⟩ :=
      stands.linked.live taskId ticket article hticket harticle
    obtain rfl := Option.some.inj (htask'.symm.trans hqueued)
    exact ⟨_, hdeadline, (stands.awaits_iff ..).2 ⟨_, hqueued, rfl, hpayload⟩⟩
  · intro a article t harticle hdeadline on
    rw [stands.get_article, Except.ok.injEq] at harticle
    refine stands.existsUnique_awaits harticle hdeadline (tracks.ticketed a article harticle ?_ on)
    rw [hdeadline]
    exact Option.some_ne_none t

/-- The run `posted`, and then the author cancels the deletion. -/
def withdrawn : List Call := posted ++ [.deliver ⟨⟨12⟩, [ada]⟩ (.cancelDeletion ⟨1⟩)]

theorem calledOff_withdrawn : (ofConfig {}).CalledOff withdrawn ⟨1⟩ :=
  ⟨posted, _, [], rfl, ⟨1⟩, ⟨some ⟨1⟩, ⟨1⟩, ada⟩, ⟨_, some ⟨1⟩, rfl, by decide +kernel⟩,
    by decide +kernel, rfl⟩

/-- After `posted` the one task of the article is queued for its deadline. After `withdrawn` the
article has the same deadline and no task. -/
theorem deadline_live_unless_called_off_posted :
    (∃! taskId, Awaits ((ofConfig {}).reached posted) ⟨1⟩ ⟨20⟩ taskId)
      ∧ (ofConfig {}).collections.articles.get ((ofConfig {}).reached withdrawn) ⟨1⟩ =
          .ok (some wheels)
      ∧ ∀ taskId task, Queue.get ((ofConfig {}).reached withdrawn) taskId = .ok (some task) →
          Message.codec.read task.payload ≠ .ok (.deleteArticle ⟨1⟩) := by
  refine ⟨?_, by decide +kernel,
    (deadline_live_unless_called_off {} withdrawn).2.2 ⟨1⟩ calledOff_withdrawn⟩
  refine (deadline_live_unless_called_off {} posted).2.1 ⟨1⟩ wheels ⟨20⟩ (by decide +kernel) rfl ?_
  rintro ⟨earlier, call, later, split, taskId, ticket, ⟨ctx, answer, rfl, -⟩, -⟩
  have among : Call.deliver ctx (.cancelDeletion taskId) ∈ posted := by
    rw [split]
    exact List.mem_append_cons_self
  simp [posted] at among

/-- So it is not true that a deadline on a stored article is always that of a queued task. -/
theorem deadline_outlives_task :
    ¬ ∀ config calls a article t,
      (ofConfig config).collections.articles.get ((ofConfig config).reached calls) a =
        .ok (some article) →
      article.deleteAt = some t →
      ∃! taskId, Awaits ((ofConfig config).reached calls) a t taskId := by
  intro live
  obtain ⟨taskId, queued, -⟩ := live {} withdrawn ⟨1⟩ wheels ⟨20⟩ (by decide +kernel) rfl
  exact not_queued_of_calledOff calledOff_withdrawn queued (Deletions.read_payload ⟨1⟩)

end App

end Gazette
