import Gazette.Proofs.Blog.Run

set_option autoImplicit false

/-! # Draining the queue

Ticking at one time until a report says that no more tasks are due runs the due tasks in batches,
in the order of their run times and IDs. The batches are consecutive parts of one list, so that all
ticks together do what one execution of the whole list does (`App.Stands.drains`). How many tasks a
tick may run decides how many ticks there are and nothing else (`App.draining_exact`).
-/

namespace Gazette

/-- Running some tasks and then others is running all of them. -/
theorem Executor.executeAll_append {executor : Executor} {now : UnixTime} {store mid : Store}
    {first : List RecordId} {report report' : TickReport}
    (h : executor.executeAll now first report store = (.ok report', mid))
    (second : List RecordId) :
    executor.executeAll now (first ++ second) report store =
      executor.executeAll now second report' mid := by
  induction first generalizing store report with
  | nil =>
    cases h
    rfl
  | cons id rest ih =>
    rw [executeAll] at h
    rw [List.cons_append, executeAll]
    cases hrun : executor.execute id now store with
    | mk outcome after =>
      rw [hrun] at h
      cases outcome with
      | ok fired => exact ih h
      | error error => cases h

namespace App

/-- Ticking at this time until no more tasks are due gives these reports and leads from the one
store to the other. -/
inductive Drains (app : App) (now : UnixTime) : Store → List TickReport → Store → Prop
  | last {store after : Store} {report : TickReport}
      (tick : app.tick now store = (.ok report, after)) (all : report.hasMore = false) :
      Drains app now store [report] after
  | more {store mid after : Store} {report : TickReport} {reports : List TickReport}
      (tick : app.tick now store = (.ok report, mid)) (more : report.hasMore = true)
      (later : Drains app now mid reports after) :
      Drains app now store (report :: reports) after

variable {app : App} {config : Config} {store last : Store} {tables : Tables} {now : UnixTime}
  {due : List RecordId} {reports : List TickReport}

theorem Drains.unique {reports' : List TickReport} {last' : Store}
    (h : app.Drains now store reports last) (h' : app.Drains now store reports' last') :
    reports' = reports ∧ last' = last := by
  induction h generalizing reports' last' with
  | last tick all =>
    cases h' with
    | last tick' all' =>
      cases tick.symm.trans tick'
      exact ⟨rfl, rfl⟩
    | more tick' more' later' =>
      cases tick.symm.trans tick'
      rw [all] at more'
      cases more'
  | more tick more later ih =>
    cases h' with
    | last tick' all' =>
      cases tick.symm.trans tick'
      rw [more] at all'
      cases all'
    | more tick' more' later' =>
      cases tick.symm.trans tick'
      obtain ⟨rfl, rfl⟩ := ih later'
      exact ⟨rfl, rfl⟩

/-! ## Batches -/

/-- A full batch is one tick, and the others are as many as without it. -/
theorem ticks_add_limit {limit n : Nat} (positive : 0 < limit) (more : limit < n) :
    max 1 ((n - limit + limit - 1) / limit) + 1 = max 1 ((n + limit - 1) / limit) := by
  have split : n + limit - 1 = n - limit + limit - 1 + limit := by omega
  have one : 1 ≤ (n - limit + limit - 1) / limit :=
    (Nat.one_le_div_iff positive).2 (by omega)
  rw [split, Nat.add_div_right _ positive]
  omega

/-- The ticks do what one execution of all tasks that are due does. -/
theorem Stands.drains (h : app.Stands store tables)
    (hdue : Queue.RunBefore tables.tasks (now.addSeconds 1) due) :
    ∃ reports last, app.Drains now store reports last
      ∧ (∀ report, app.executor.executeAll now due report store =
          (.ok { report with completed := report.completed ++ due }, last))
      ∧ reports.length = max 1 ((due.length + app.executor.limit - 1) / app.executor.limit)
      ∧ reports.flatMap (·.completed) = due
      ∧ ∀ report ∈ reports, report.failed = [] := by
  have positive := app.executor.limit_pos
  -- by induction on the number of tasks that are due, of which a tick that leaves some takes some
  induction hn : due.length using Nat.strongRecOn generalizing store tables due with
  | ind n ih =>
    obtain ⟨tables', mid, htick, hrun, -, h', left⟩ := tick_eq h hdue
    by_cases more : app.executor.limit < due.length
    · have fewer : (due.drop app.executor.limit).length < n := by
        rw [List.length_drop]
        omega
      obtain ⟨reports, last, hdrains, hlater, hlength, hcompleted, hfailed⟩ :=
        ih _ fewer h' (hdue.drop left) rfl
      refine ⟨_ :: reports, last, .more htick (decide_eq_true more) hdrains, fun report => ?_, ?_,
        ?_, List.forall_mem_cons.2 ⟨rfl, hfailed⟩⟩
      · have all := Executor.executeAll_append (hrun report) (due.drop app.executor.limit)
        rw [List.take_append_drop, hlater] at all
        rw [all, List.append_assoc, List.take_append_drop]
      · rw [List.length_cons, hlength, List.length_drop, hn]
        exact ticks_add_limit positive (hn ▸ more)
      · rw [List.flatMap_cons, hcompleted, List.take_append_drop]
    · have whole : due.take app.executor.limit = due := List.take_of_length_le (by omega)
      rw [whole] at htick hrun
      have one : (n + app.executor.limit - 1) / app.executor.limit ≤ 1 := by
        rw [← Nat.lt_succ_iff, Nat.div_lt_iff_lt_mul positive]
        omega
      refine ⟨[_], mid, .last htick (decide_eq_false more), hrun, ?_, ?_,
        List.forall_mem_singleton.2 rfl⟩
      · rw [List.length_singleton, Nat.max_eq_left one]
      · rw [List.flatMap_singleton]

/-! ## What is left -/

/-- The key is one of those of a queued task that is due, or of the article that it deletes. -/
def Spent (app : App) (store : Store) (now : UnixTime) (key : Bytes) : Prop :=
  ∃ id task, Queue.get store id = .ok (some task) ∧ task.runAt ≤ now
    ∧ (Queue.bucket.KeyOf id task key ∨ ∃ a article,
        Message.codec.read task.payload = .ok (.deleteArticle a)
          ∧ app.collections.articles.get store a = .ok (some article)
          ∧ app.collections.articles.KeyOf a article key)

/-- The payload of a queued task names the article that its ticket names. -/
theorem Stands.ticket_of_queued (h : app.Stands store tables) {id : RecordId} {task : Task}
    (hqueued : tables.tasks.records id = some task) :
    ∃ ticket, tables.tickets.records id = some ticket
      ∧ Message.codec.read task.payload = .ok (.deleteArticle ticket.articleId) := by
  obtain ⟨ticket, hticket, hpayload⟩ := h.linked.ticketed id task hqueued
  exact ⟨ticket, hticket, by rw [hpayload, Deletions.read_payload]⟩

theorem Stands.spent_iff (h : app.Stands store tables)
    (hdue : ∀ id, id ∈ due ↔ ∃ task, tables.tasks.records id = some task ∧ task.runAt ≤ now)
    (key : Bytes) : (∃ id ∈ due, app.TaskKey tables id key) ↔ app.Spent store now key := by
  constructor
  · rintro ⟨id, hid, hkey⟩
    obtain ⟨task, hqueued, past⟩ := (hdue id).1 hid
    refine ⟨id, task, (h.get_task id).trans (congrArg Except.ok hqueued), past, ?_⟩
    rcases hkey with ⟨found, hfound, hkey⟩ | ⟨ticket, hticket, article, harticle, hkey⟩
    · obtain rfl := Option.some.inj (hqueued.symm.trans hfound)
      exact .inl hkey
    · obtain ⟨named, hnamed, hread⟩ := h.ticket_of_queued hqueued
      obtain rfl := Option.some.inj (hticket.symm.trans hnamed)
      exact .inr ⟨ticket.articleId, article, hread,
        (h.get_article _).trans (congrArg Except.ok harticle), hkey⟩
  · rintro ⟨id, task, hget, past, hkey⟩
    rw [h.get_task, Except.ok.injEq] at hget
    refine ⟨id, (hdue id).2 ⟨task, hget, past⟩, ?_⟩
    rcases hkey with hkey | ⟨a, article, hread, harticle, hkey⟩
    · exact .inl ⟨task, hget, hkey⟩
    · obtain ⟨ticket, hticket, hread'⟩ := h.ticket_of_queued hget
      cases hread.symm.trans hread'
      rw [h.get_article, Except.ok.injEq] at harticle
      exact .inr ⟨ticket, hticket, article, harticle, hkey⟩

/-- Once the due tasks have run, an article past its deadline has no ticket. -/
theorem Stands.no_ticket_left (h : app.Stands store tables)
    (drained : ∀ id task, tables.tasks.records id = some task → ¬ task.runAt ≤ now)
    {a : RecordId} {article : Article} {t : UnixTime}
    (hstored : app.collections.articles.get store a = .ok (some article))
    (hdeadline : article.deleteAt = some t) (hpast : t ≤ now) {id : RecordId}
    {ticket : DeletionTicket}
    (hticket : app.collections.tickets.get store id = .ok (some ticket)) :
    ticket.articleId ≠ a := by
  rw [h.get_article, Except.ok.injEq] at hstored
  rw [h.get_ticket, Except.ok.injEq] at hticket
  rintro rfl
  obtain ⟨task, hqueued, hrunAt, -⟩ := h.linked.live id ticket article hticket hstored
  obtain rfl := Option.some.inj (hdeadline.symm.trans hrunAt)
  exact drained id task hqueued hpast

/-! ## Every batch size -/

/-- The contents that are left when the tasks that are due have run, whatever the batches were. -/
theorem Stands.drained (h : (ofConfig config).Stands store tables)
    (hdue : Queue.RunBefore tables.tasks (now.addSeconds 1) due)
    (hpast : ∀ id, id ∈ due ↔ ∃ task, tables.tasks.records id = some task ∧ task.runAt ≤ now)
    {m : UInt64} (hm : 0 < m) :
    let batched := ofConfig { config with maxTasksPerTick := m }
    ∃ reports last, batched.Drains now store reports last
      ∧ reports.length = max 1 ((due.length + m.toNat - 1) / m.toNat)
      ∧ reports.flatMap (·.completed) = due
      ∧ (∀ report ∈ reports, report.failed = [])
      ∧ Contents.Emptied ((ofConfig config).Spent store now) store.contents last.contents
      ∧ ∀ a article t, batched.collections.articles.get last a = .ok (some article) →
          article.deleteAt = some t → t ≤ now → ∀ id ticket,
          batched.collections.tickets.get last id = .ok (some ticket) → ticket.articleId ≠ a := by
  intro batched
  -- how many tasks a tick may run makes no difference to what the store holds
  have h : batched.Stands store tables := ⟨h.reliable, h.hold, h.linked⟩
  have limit : batched.executor.limit = m.toNat := Nat.max_eq_left (UInt64.lt_iff_toNat_lt.1 hm)
  obtain ⟨reports, last, hdrains, hrun, hlength, hcompleted, hfailed⟩ := h.drains hdue
  have past : ∀ id ∈ due, ∃ task, tables.tasks.records id = some task ∧ ¬ now < task.runAt :=
    fun id hid => by
      obtain ⟨task, htask, hle⟩ := (hpast id).1 hid
      exact ⟨task, htask, Int64.not_lt.2 hle⟩
  obtain ⟨tables', after, hrun', -, h', left, emptied⟩ := executeAll_due h hdue.nodup past
  obtain rfl : last = after := congrArg Prod.snd ((hrun {}).symm.trans (hrun' {}))
  rw [limit] at hlength
  refine ⟨reports, last, hdrains, hlength, hcompleted, hfailed,
    emptied.congr (h.spent_iff hpast), ?_⟩
  intro a article t hstored hdeadline ht id ticket hticket
  refine h'.no_ticket_left (fun i task hqueued hle => ?_) hstored hdeadline ht hticket
  rw [left] at hqueued
  split at hqueued
  · cases hqueued
  · rename_i spared
    exact spared ((hpast i).2 ⟨task, hqueued, hle⟩)

/-- After every run, ticking until no more tasks are due ends with the same contents whatever the
number of tasks that a tick may run: the keys of the tasks that are due and of the articles that
they delete are gone, and all other keys are as they were. There are as many ticks as there are
batches, one if nothing is due. Together they complete each task that is due once, in the order of
the run times and IDs. Then an article whose deadline has passed is one whose deletion was
cancelled. -/
theorem draining_exact (config : Config) (calls : List Call) (now : UnixTime)
    (hnow : now.seconds < Int64.maxValue) :
    let app := ofConfig config
    let store := app.reached calls
    ∃ (due : List RecordId) (drained : Contents),
      (∀ id, id ∈ due ↔ ∃ task, Queue.get store id = .ok (some task) ∧ task.runAt ≤ now)
        ∧ due.Nodup
        ∧ due.Pairwise (fun i j => ∃ s t, Queue.get store i = .ok (some s)
            ∧ Queue.get store j = .ok (some t)
            ∧ (s.runAt < t.runAt ∨ (s.runAt = t.runAt ∧ i < j)))
        ∧ Contents.Emptied (app.Spent store now) store.contents drained
        ∧ ∀ m : UInt64, 0 < m →
          let batched := ofConfig { config with maxTasksPerTick := m }
          ∃ reports last,
            (∀ reports' last', batched.Drains now store reports' last' ↔
              reports' = reports ∧ last' = last)
            ∧ reports.length = max 1 ((due.length + m.toNat - 1) / m.toNat)
            ∧ reports.flatMap (·.completed) = due ∧ (∀ report ∈ reports, report.failed = [])
            ∧ last.contents = drained
            ∧ ∀ a article t, batched.collections.articles.get last a = .ok (some article) →
                article.deleteAt = some t → t ≤ now → ∀ id ticket,
                batched.collections.tickets.get last id = .ok (some ticket) →
                ticket.articleId ≠ a := by
  intro app store
  obtain ⟨tables, stands⟩ := exists_stands config calls
  obtain ⟨due, hdue, -⟩ := stands.exists_due now
  have past : ∀ id, id ∈ due ↔ ∃ task, tables.tasks.records id = some task ∧ task.runAt ≤ now :=
    fun id => by simp only [hdue.mem_iff, UnixTime.lt_addSeconds_one_iff hnow]
  obtain ⟨-, last, -, -, -, -, emptied, -⟩ := stands.drained hdue past (by decide : (0 : UInt64) < 1)
  refine ⟨due, last.contents, ?_, hdue.nodup, ?_, emptied, fun m hm => ?_⟩
  · simpa only [store, app, stands.get_task, Except.ok.injEq] using past
  · simpa only [store, app, stands.get_task, Except.ok.injEq] using hdue.ordered
  · obtain ⟨reports, last', hdrains, hlength, hcompleted, hfailed, emptied', left⟩ :=
      stands.drained hdue past hm
    refine ⟨reports, last', fun rs l => ⟨fun other => hdrains.unique other, ?_⟩, hlength,
      hcompleted, hfailed, emptied'.unique emptied, left⟩
    rintro ⟨rfl, rfl⟩
    exact hdrains

/-- After `posted`, ticking at a time past the deadline, with one task a tick, completes the task
and leaves nothing under the key of the article. -/
theorem draining_exact_posted :
    let app := ofConfig {}
    let store := app.reached posted
    ∃ (due : List RecordId) (drained : Contents), ⟨1⟩ ∈ due
      ∧ store.contents.get? (app.collections.articles.recordKey ⟨1⟩) ≠ none
      ∧ drained.get? (app.collections.articles.recordKey ⟨1⟩) = none
      ∧ ∃ reports last, (ofConfig { maxTasksPerTick := 1 }).Drains ⟨25⟩ store reports last
        ∧ reports.flatMap (·.completed) = due ∧ last.contents = drained := by
  intro app store
  have queued : Queue.get store ⟨1⟩ =
      .ok (some ⟨some ⟨1⟩, ⟨20⟩, Deletions.payload ⟨1⟩⟩) := by decide +kernel
  have stored : app.collections.articles.get store ⟨1⟩ = .ok (some wheels) := by decide +kernel
  obtain ⟨due, drained, hdue, -, -, emptied, every⟩ :=
    draining_exact {} posted ⟨25⟩ (by decide)
  obtain ⟨reports, last, hdrains, -, hcompleted, -, hlast, -⟩ := every 1 (by decide)
  refine ⟨due, drained, (hdue ⟨1⟩).2 ⟨_, queued, by decide⟩, by decide +kernel,
    emptied.gone _ ?_, reports, last, (hdrains _ _).2 ⟨rfl, rfl⟩, hcompleted, hlast⟩
  exact ⟨⟨1⟩, _, queued, by decide, .inr ⟨⟨1⟩, wheels, Deletions.read_payload _, stored, .inl rfl⟩⟩

end App

end Gazette
