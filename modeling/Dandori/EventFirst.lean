import Dandori.OutboxSafety

/-!
# The event-first write path

The rows that a transaction inserts are read off the databases before and after it. In every run of
service requests and workers, exactly one transaction is about an issue: it inserted the issue, one
activity and one outbox row, and both carry the event that repeats the columns of the issue. Replays,
conflicts and failed requests insert nothing, workers only touch delivery columns and remove rows, and
the stored response of a key is an issue that is there.
-/

namespace Dandori

open IssueRepository OutboxRepository OutboxWorkerService

structure Inserted where
  issues : List IssueRow
  activities : List ActivityRow
  outbox : List OutboxRow

namespace Inserted

def nothing : Inserted := ⟨[], [], []⟩

/-- Some inserted row is the issue or refers to it. -/
def about (issueId : Uuid) (e : Inserted) : Bool :=
  e.issues.any (fun i => i.id = issueId) || e.activities.any (fun a => a.issueId = some issueId) ||
    e.outbox.any (fun o => o.aggregateId = issueId)

@[simp] theorem about_nothing (issueId : Uuid) : nothing.about issueId = false := rfl

theorem about_of_mem_outbox {e : Inserted} {o : OutboxRow} (ho : o ∈ e.outbox) :
    e.about o.aggregateId = true := by
  have hany : e.outbox.any (fun x => x.aggregateId = o.aggregateId) = true :=
    List.any_eq_true.mpr ⟨o, ho, by simp⟩
  simp [about, hany]

end Inserted

def Db.inserted (before after : Db) : Inserted where
  issues := Table.added before.issues after.issues
  activities := Table.added before.activities after.activities
  outbox := Table.added before.outbox after.outbox

theorem Db.inserted_eq_nothing {before after : Db} (hissues : after.issues = before.issues)
    (hactivities : after.activities = before.activities)
    (houtbox : ∀ r ∈ after.outbox, ∃ r₀ ∈ before.outbox, r₀.id = r.id) :
    before.inserted after = .nothing := by
  have hnone : Table.added before.outbox after.outbox = [] := Table.added_eq_nil houtbox
  rw [inserted, hissues, hactivities, Table.added_self, Table.added_self, hnone]
  rfl

/-- The activity and the outbox row record the creation of the issue. -/
structure RecordsIssue (codec : Codec) (i : IssueRow) (a : ActivityRow) (o : OutboxRow) : Prop where
  workspace : a.workspaceId = i.workspaceId ∧ o.workspaceId = i.workspaceId
  issue : a.issueId = some i.id ∧ o.aggregateId = i.id
  command : o.correlationId = a.commandId
  payload : o.payload = a.eventPayload
  event : ∃ event, codec.eventFromValue a.eventPayload = .ok event ∧ event.issueId = i.id ∧
    event.projectId = i.projectId ∧ event.milestoneId = i.milestoneId ∧ event.title = i.title ∧
    event.description = i.description ∧ event.priority = i.priority

/-- The rows of the database after transactions that inserted `log`. -/
structure EventFirst (codec : Codec) (log : List Inserted) (db : Db) : Prop where
  issue : ∀ i ∈ db.issues, ∃ a o, RecordsIssue codec i a o ∧
    log.filter (Inserted.about i.id) = [⟨[i], [a], [o]⟩] ∧
    ∀ x, x ∈ db.activities ∧ x.issueId = some i.id ↔ x = a
  activity : ∀ a ∈ db.activities, ∃ i ∈ db.issues, a.issueId = some i.id
  logged : ∀ e ∈ log, ∀ issueId, e.about issueId = true → ∃ i ∈ db.issues, i.id = issueId
  enqueued : ∀ e ∈ log, ∀ o ∈ e.outbox, ∃ i ∈ db.issues, o.aggregateId = i.id
  record : ∀ r ∈ db.idempotencyRecords, ∃ i ∈ db.issues,
    codec.idempotencyResponseFromValue r.responsePayload = .ok (issueOfRow i)

section Transactions

variable {codec : Codec} {call : CreateIssueCall} {log : List Inserted} {db db' : Db}

namespace IssueRepository.FreshCreate

variable (h : FreshCreate codec call db db')
include h

theorem inserted : db.inserted db' =
    ⟨[issueRow call], [activityRow codec call], [outboxRow codec call]⟩ := by
  have hissues := Table.added_of_insert? h.issues
  have hactivities := Table.added_of_insert? h.activities
  have houtbox := Table.added_of_insert? h.outbox
  rw [Db.inserted, hissues, hactivities, houtbox]

theorem mem_issues (i : IssueRow) : i ∈ db'.issues ↔ i = issueRow call ∨ i ∈ db.issues :=
  (Table.insert?_eq_some h.issues).2.2 i

theorem mem_activities (a : ActivityRow) :
    a ∈ db'.activities ↔ a = activityRow codec call ∨ a ∈ db.activities :=
  (Table.insert?_eq_some h.activities).2.2 a

theorem issueId_ne {i : IssueRow} (hi : i ∈ db.issues) : i.id ≠ call.command.issueId :=
  (Table.insert?_eq_some h.issues).2.1 i hi

end IssueRepository.FreshCreate

theorem recordsIssue_of_event {generated : IssueAppService.Generated}
    (h : call.event = IssueAppService.eventOfCommand call.command generated) :
    RecordsIssue codec (issueRow call) (activityRow codec call) (outboxRow codec call) where
  workspace := ⟨rfl, rfl⟩
  issue := ⟨rfl, rfl⟩
  command := rfl
  payload := rfl
  event := by
    refine ⟨call.event, codec.eventFromValue_toValue call.event, ?_⟩
    rw [h]
    exact ⟨rfl, rfl, rfl, rfl, rfl, rfl⟩

theorem about_create (issueId : Uuid) :
    (⟨[issueRow call], [activityRow codec call], [outboxRow codec call]⟩ : Inserted).about issueId =
      decide (call.command.issueId = issueId) := by
  simp [Inserted.about, issueRow, activityRow, outboxRow]

/-- A step that inserts nothing and at most deletes stored responses keeps the correspondence. -/
theorem EventFirst.keep (hinv : EventFirst codec log db) (hissues : db'.issues = db.issues)
    (hactivities : db'.activities = db.activities)
    (hrecords : ∀ r ∈ db'.idempotencyRecords, r ∈ db.idempotencyRecords)
    (houtbox : ∀ r ∈ db'.outbox, ∃ r₀ ∈ db.outbox, r₀.id = r.id) :
    EventFirst codec (log ++ [db.inserted db']) db' := by
  rw [Db.inserted_eq_nothing hissues hactivities houtbox]
  have hmem : ∀ e ∈ log ++ [Inserted.nothing], e ∈ log ∨ e = .nothing := by
    intro e he
    simpa using he
  refine ⟨fun i hi => ?_, fun a ha => ?_, fun e he issueId habout => ?_, fun e he o ho => ?_,
    fun r hr => ?_⟩
  · rw [hissues] at hi
    obtain ⟨a, o, hrecords, hlog, hact⟩ := hinv.issue i hi
    refine ⟨a, o, hrecords, ?_, by rwa [hactivities]⟩
    rw [List.filter_append, hlog]
    rfl
  · rw [hactivities] at ha
    rw [hissues]
    exact hinv.activity a ha
  · rw [hissues]
    rcases hmem e he with he | rfl
    · exact hinv.logged e he issueId habout
    · cases habout
  · rw [hissues]
    rcases hmem e he with he | rfl
    · exact hinv.enqueued e he o ho
    · cases ho
  · rw [hissues]
    exact hinv.record r (hrecords r hr)

/-- A fresh create adds an issue together with everything that records it. -/
theorem EventFirst.create (hinv : EventFirst codec log db) {generated : IssueAppService.Generated}
    (hevent : call.event = IssueAppService.eventOfCommand call.command generated)
    (h : FreshCreate codec call db db') : EventFirst codec (log ++ [db.inserted db']) db' := by
  rw [h.inserted]
  set e₀ : Inserted := ⟨[issueRow call], [activityRow codec call], [outboxRow codec call]⟩ with he₀
  have hnew : issueRow call ∈ db'.issues := (h.mem_issues _).mpr (Or.inl rfl)
  have hold : ∀ i ∈ db.issues, i ∈ db'.issues := fun i hi => (h.mem_issues i).mpr (Or.inr hi)
  have hlogged : ∀ e ∈ log ++ [e₀], ∀ issueId, e.about issueId = true →
      ∃ i ∈ db'.issues, i.id = issueId := by
    intro e he issueId habout
    rcases List.mem_append.mp he with he | he
    · obtain ⟨i, hi, hid⟩ := hinv.logged e he issueId habout
      exact ⟨i, hold i hi, hid⟩
    · rw [List.mem_singleton.mp he, he₀, about_create, decide_eq_true_eq] at habout
      exact ⟨_, hnew, habout⟩
  refine ⟨fun i hi => ?_, fun a ha => ?_, hlogged, fun e he o ho => ?_, fun r hr => ?_⟩
  · rcases (h.mem_issues i).mp hi with rfl | hi
    · -- no earlier transaction and no earlier activity is about an issue that was not there
      have hfresh : log.filter (Inserted.about (issueRow call).id) = [] := by
        refine List.filter_eq_nil_iff.mpr (fun e he habout => ?_)
        obtain ⟨i, hi, hid⟩ := hinv.logged e he _ habout
        exact h.issueId_ne hi hid
      refine ⟨_, _, recordsIssue_of_event hevent, ?_, fun x => ?_⟩
      · rw [List.filter_append, hfresh, List.nil_append]
        refine List.filter_eq_self.mpr (fun e he => ?_)
        rw [List.mem_singleton.mp he, he₀, about_create]
        exact decide_eq_true rfl
      · rw [h.mem_activities]
        constructor
        · rintro ⟨rfl | hx, hid⟩
          · rfl
          · obtain ⟨i, hi, hid'⟩ := hinv.activity x hx
            rw [hid] at hid'
            exact absurd (Option.some.inj hid').symm (h.issueId_ne hi)
        · rintro rfl
          exact ⟨Or.inl rfl, rfl⟩
    · obtain ⟨a, o, hrecords, hlog, hact⟩ := hinv.issue i hi
      have hne : call.command.issueId ≠ i.id := (h.issueId_ne hi).symm
      refine ⟨a, o, hrecords, ?_, fun x => ?_⟩
      · rw [List.filter_append, hlog]
        have hnone : [e₀].filter (Inserted.about i.id) = [] := by
          refine List.filter_eq_nil_iff.mpr (fun e he habout => ?_)
          rw [List.mem_singleton.mp he, he₀, about_create, decide_eq_true_eq] at habout
          exact hne habout
        rw [hnone, List.append_nil]
      · rw [h.mem_activities, ← hact x]
        constructor
        · rintro ⟨rfl | hx, hid⟩
          · exact absurd (Option.some.inj hid) hne
          · exact ⟨hx, hid⟩
        · rintro ⟨hx, hid⟩
          exact ⟨Or.inr hx, hid⟩
  · rcases (h.mem_activities a).mp ha with rfl | ha
    · exact ⟨_, hnew, rfl⟩
    · obtain ⟨i, hi, hid⟩ := hinv.activity a ha
      exact ⟨i, hold i hi, hid⟩
  · obtain ⟨i, hi, hid⟩ := hlogged e he _ (Inserted.about_of_mem_outbox ho)
    exact ⟨i, hi, hid.symm⟩
  · rcases (h.records r).mp hr with rfl | hr
    · have hversion : (issueOfRow (issueRow call)).rowVersion = 0 := rfl
      refine ⟨_, hnew, codec.idempotencyResponseFromValue_toValue _ ?_⟩
      rw [hversion]
      decide
    · obtain ⟨i, hi, hdecode⟩ := hinv.record r hr
      exact ⟨i, hold i hi, hdecode⟩

end Transactions

/-! ## Runs of service requests and workers -/

/-- The clients build the event of a call from its command. -/
def Client.RepeatsCommand {codec : Codec} {γ : Type} (client : Client codec γ) : Prop :=
  ∀ request call, client.call request = some call →
    ∃ generated, call.event = IssueAppService.eventOfCommand call.command generated

theorem serviceClient_repeatsCommand (codec : Codec) (policy : PolicyEngine) :
    (serviceClient codec policy).RepeatsCommand := by
  intro r call hcall
  cases hprepare : IssueAppService.prepare codec policy r.auth r.request r.generated with
  | error e => simp [serviceClient, hprepare, Except.toOption] at hcall
  | ok call' =>
      have hsame : call' = call := by simpa [serviceClient, hprepare, Except.toOption] using hcall
      rw [← hsame]
      exact ⟨r.generated, IssueAppService.event_of_prepare hprepare⟩

/-- Nothing has been written through the issue service yet. -/
structure Db.Unwritten (db : Db) : Prop where
  issues : ∀ i, i ∉ db.issues
  activities : ∀ a, a ∉ db.activities
  records : ∀ r, r ∉ db.idempotencyRecords

theorem Db.Unwritten.eventFirst {db : Db} (h : db.Unwritten) (codec : Codec) :
    EventFirst codec [] db where
  issue i hi := absurd hi (h.issues i)
  activity a ha := absurd ha (h.activities a)
  logged _ he := absurd he List.not_mem_nil
  enqueued _ he := absurd he List.not_mem_nil
  record r hr := absurd hr (h.records r)

namespace Program

variable {ω σ ι γ : Type} [DecidableEq ω]

/-- What each transaction of a run inserted, in order. -/
def transactions (P : Program ω σ ι γ) : Sys ω σ → List (SysAction ω ι γ) → List Inserted
  | _, [] => []
  | s, a :: as =>
      match P.step s a with
      | none => []
      | some t => s.db.inserted t.db :: transactions P t as

/-- The program with the issue service as its clients. -/
def serving (P : Program ω σ ι γ) (policy : PolicyEngine) : Program ω σ ι ServiceRequest where
  codec := P.codec
  client := serviceClient P.codec policy
  config := P.config
  registry := P.registry
  publisher := P.publisher
  idlePublisher := P.idlePublisher

section Runs

variable {P : Program ω σ ι γ} {s t : Sys ω σ} {as : List (SysAction ω ι γ)}

theorem transactions_concat {a : SysAction ω ι γ} (h : P.Exec s as t) {u : Sys ω σ}
    (ha : P.step t a = some u) :
    P.transactions s (as ++ [a]) = P.transactions s as ++ [t.db.inserted u.db] := by
  induction h with
  | nil _ => simp only [List.nil_append, transactions, ha]
  | cons hstep _ ih => simp only [List.cons_append, transactions, hstep, ih ha]

theorem eventFirst_step (hclient : P.client.RepeatsCommand) {log : List Inserted}
    {a : SysAction ω ι γ} (hinv : EventFirst P.codec log s.db) (h : P.step s a = some t) :
    EventFirst P.codec (log ++ [s.db.inserted t.db]) t.db := by
  have heffect := db_of_step (P.step_effect h)
  generalize t.db = db' at heffect ⊢
  cases heffect with
  | leases => exact hinv.keep rfl rfl (fun r hr => hr) (fun r hr => ⟨r, hr, rfl⟩)
  | created hcall hfresh =>
      obtain ⟨generated, hevent⟩ := hclient _ _ hcall
      exact hinv.create hevent hfresh
  | leased hlease =>
      obtain ⟨ids, v, rfl, _, hv⟩ := leaseOutboxBatch_ok hlease
      refine hinv.keep rfl rfl (fun r hr => hr) (fun r hr => ?_)
      obtain ⟨x, hx, rfl⟩ := (hv r).mp hr
      exact ⟨x, hx, by split <;> rfl⟩
  | applied _ _ hrun =>
      obtain ⟨_, _, _, _, _, v, _, hdb⟩ := LeaseTransition.run_eq_ok.mp hrun
      have houtbox : ∀ r ∈ db'.outbox, ∃ r₀ ∈ s.db.outbox, r₀.id = r.id := by
        intro r hr
        obtain ⟨x, hx, rfl⟩ := (LeaseTransition.mem_run_iff r hrun).mp hr
        refine ⟨x, hx, ?_⟩
        split
        · rw [LeaseTransition.written_id]
        · rfl
      subst hdb
      exact hinv.keep rfl rfl (fun r hr => hr) houtbox
  | cleanedOutbox =>
      refine hinv.keep rfl rfl (fun r hr => hr) (fun r hr => ?_)
      exact ⟨r, (Table.mem_filter.mp hr).1, rfl⟩
  | cleanedIdempotency =>
      refine hinv.keep rfl rfl (fun r hr => ?_) (fun r hr => ⟨r, hr, rfl⟩)
      exact (Table.mem_filter.mp hr).1

theorem eventFirst_of_exec (hclient : P.client.RepeatsCommand) {db : Db} (hdb : db.Unwritten)
    (h : P.Exec (P.initial db) as s) :
    EventFirst P.codec (P.transactions (P.initial db) as) s.db := by
  have hrun : P.Exec (P.initial db) as s ∧
      EventFirst P.codec (P.transactions (P.initial db) as) s.db := by
    refine Run.history (P := fun as s => P.Exec (P.initial db) as s ∧
      EventFirst P.codec (P.transactions (P.initial db) as) s.db) ?_ h
      ⟨.nil _, hdb.eventFirst P.codec⟩
    rintro pre s a t ⟨hpre, hinv⟩ ha
    rw [transactions_concat hpre ha]
    exact ⟨hpre.append (.single ha), eventFirst_step hclient hinv ha⟩
  exact hrun.2

end Runs

/-- The event-first write path, in every state that requests and workers can reach. -/
theorem serving_eventFirst (P : Program ω σ ι γ) (policy : PolicyEngine) (db : Db)
    (hdb : db.Unwritten) (as : List (SysAction ω ι ServiceRequest)) (s : Sys ω σ)
    (h : (P.serving policy).Exec ((P.serving policy).initial db) as s) :
    EventFirst P.codec ((P.serving policy).transactions ((P.serving policy).initial db) as) s.db :=
  eventFirst_of_exec (serviceClient_repeatsCommand P.codec policy) hdb h

/-! ## A request, its replay, and the delivery of its event -/

def noopService : Program Unit Unit Unit ServiceRequest :=
  noopProgram.serving RoleMatrixPolicy.standard

def servedRequest (id : Uuid) : ServiceRequest where
  auth := ⟨1, 9⟩
  request := ⟨"key", 2, none, "issue", none, .medium⟩
  generated := ⟨id, id, id, 0, ⟨0, 0, id, id⟩⟩
  env := .quiet

def servedRun : List (SysAction Unit Unit ServiceRequest) :=
  [.request (servedRequest 4), .request (servedRequest 5), .acquire () 0 .quiet, .start (),
    .cycle () 0 (.lease 0 7 .quiet), .cycle () 0 (.dispatch 0 ()),
    .cycle () 0 (.apply ⟨.quiet, 1, 0⟩)]

theorem servedRun_issues : ∃ s, noopService.Exec (noopService.initial projectDb) servedRun s ∧
    s.db.issues.rows.map IssueRow.id = [4] ∧
    s.db.outbox.rows.map (fun r => (r.id, r.status)) = [(4, .delivered)] := by
  have hrows : (servedRun.foldlM noopService.step (noopService.initial projectDb)).map (fun s =>
      (s.db.issues.rows.map IssueRow.id, s.db.outbox.rows.map (fun r => (r.id, r.status)))) =
        some ([4], [(4, .delivered)]) := by
    decide +kernel
  obtain ⟨s, hs, hrows⟩ := Option.map_eq_some_iff.mp hrows
  exact ⟨s, Run.of_foldlM hs, congrArg Prod.fst hrows, congrArg Prod.snd hrows⟩

theorem projectDb_unwritten : projectDb.Unwritten where
  issues _ := List.not_mem_nil
  activities _ := List.not_mem_nil
  records _ := List.not_mem_nil

theorem serving_eventFirst_servedRun :
    ∃ s, noopService.Exec (noopService.initial projectDb) servedRun s ∧
      s.db.issues.rows.map IssueRow.id = [4] ∧
      EventFirst Codec.unary (noopService.transactions (noopService.initial projectDb) servedRun)
        s.db := by
  obtain ⟨s, hs, hissues, _⟩ := servedRun_issues
  exact ⟨s, hs, hissues, serving_eventFirst noopProgram RoleMatrixPolicy.standard projectDb
    projectDb_unwritten servedRun s hs⟩

end Program
end Dandori
