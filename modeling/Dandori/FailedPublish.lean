import Dandori.WorkerService

/-!
# Recording a failed publish

The mark of a failed publish stores the error text, and the table bounds that text by 4000
characters. The text quotes what the remote side sent, so a long answer makes the database refuse
the mark: the row keeps its attempts and its lease, and is published again when the lease runs out.
-/

namespace Dandori.OutboxWorkerService

open OutboxRepository

theorem failureContext_errorMessage_length (config : OutboxWorkerConfig) (message : OutboxMessage)
    (error : PublishError) (reading : MarkEnv) :
    (failureContext config message error reading).errorMessage.length =
      error.kind.debug.length + 2 + error.message.length := by
  simp [failureContext, String.length_append]
  rfl

/-- What the worker relies on when it applies a failure: the mark commits, and the row has spent an
attempt, is released from its lease, and waits for a retry or is dead. -/
def RecordsFailure (codec : Codec) (config : OutboxWorkerConfig) (auth : AuthContext)
    (message : OutboxMessage) (error : PublishError) (reading : MarkEnv)
    (report : WorkerRunReport) (db : Db) (r : OutboxRow) : Prop :=
  ∃ report' db', applyPublishOutcome codec config auth message (.error error) reading report db =
      (.ok report', db') ∧
    ∃ r' ∈ db'.outbox, r'.id = r.id ∧ r'.attempts.toInt = r.attempts.toInt + 1 ∧
      (r'.leasedAt = none ∧ r'.leasedUntil = none ∧ r'.leaseToken = none ∧ r'.leaseOwner = none) ∧
      (r'.status = .failed ∨ r'.status = .deadLetter)

/-- The row is the one the message was leased from, and the worker's lease of it has not expired. -/
structure HeldMessage (auth : AuthContext) (message : OutboxMessage) (now : Timestamp) (db : Db)
    (r : OutboxRow) : Prop where
  mem : r ∈ db.outbox
  workspace : r.workspaceId = auth.workspaceId
  id : r.id = message.id
  owner : message.leaseOwner = auth.actorId
  held : heldBy message.leaseToken message.leaseOwner now r = true

section Record

variable {codec : Codec} {auth : AuthContext} {message : OutboxMessage} {reading : MarkEnv} {db : Db}
  {r : OutboxRow} (config : OutboxWorkerConfig)

theorem HeldMessage.guard (outcome : Except PublishError Unit)
    (h : HeldMessage auth message reading.now db r) :
    (outcomeMark config auth message outcome reading).guard r = true := by
  rw [LeaseTransition.guard_iff]
  simp only [outcomeMark_auth, outcomeMark_outboxId, outcomeMark_leaseToken,
    outcomeMark_leaseOwner, outcomeMark_now]
  exact ⟨h.workspace, h.id, h.held⟩

/-- The mark of a failure commits exactly when its text fits the column. -/
theorem HeldMessage.failure_commits_iff (error : PublishError) (report : WorkerRunReport)
    (h : HeldMessage auth message reading.now db r) (hfaults : allowed reading.env.faults 5 = true) :
    (∃ report' db', applyPublishOutcome codec config auth message (.error error) reading report db =
      (.ok report', db')) ↔
    error.kind.debug.length + 2 + error.message.length ≤ OutboxRow.maxLastErrorLength := by
  have hcommits : (∃ db', (outcomeMark config auth message (.error error) reading).run codec
      reading.env db = (.ok (), db')) ↔ _ :=
    LeaseTransition.run_commits_iff h.mem (h.guard config (.error error))
  simp only [hfaults, outcomeMark_leaseOwner, outcomeMark_auth, h.owner, true_and] at hcommits
  rw [← failureContext_errorMessage_length config message error reading,
    ← written_failedMark_check auth message.id _ (db.outbox.check_of_mem h.mem)]
  refine Iff.trans ⟨?_, ?_⟩ hcommits
  · rintro ⟨report', db', happly⟩
    exact ⟨db', (applyPublishOutcome_eq_ok.mp happly).1⟩
  · rintro ⟨db', hrun⟩
    exact ⟨_, db', applyPublishOutcome_eq_ok.mpr ⟨hrun, rfl⟩⟩

end Record

/-- For every error that a dispatch through the HTTP publisher returns, the failure is recorded
exactly when the text fits the column and `attempts` is not the last `i32`. -/
theorem recordsFailure_iff (codec : Codec) (settings : HttpOutboxPublisher.Settings)
    (remote : HttpOutboxPublisher.Remote) (breaker : HttpOutboxPublisher.Breaker)
    (config : OutboxWorkerConfig) (auth : AuthContext) (message : OutboxMessage)
    (error : PublishError) (reading : MarkEnv) (report : WorkerRunReport) (db : Db) (r : OutboxRow)
    (_hdispatch : (((defaultRegistry codec).dispatch
      (HttpOutboxPublisher.publisher codec settings remote) message) breaker).1 = .error error)
    (hheld : HeldMessage auth message reading.now db r)
    (hfaults : allowed reading.env.faults 5 = true) :
    RecordsFailure codec config auth message error reading report db r ↔
      error.kind.debug.length + 2 + error.message.length ≤ OutboxRow.maxLastErrorLength ∧
        r.attempts ≠ Int32.maxValue := by
  set failure := failureContext config message error reading
  set written := (failedMark auth message.id failure).written r with hw
  rw [← toInt_add_one_iff, ← hheld.failure_commits_iff config error report hfaults]
  have hwritten : ∀ report' db', applyPublishOutcome codec config auth message (.error error) reading
      report db = (.ok report', db') → written ∈ db'.outbox := by
    intro report' db' happly
    exact LeaseTransition.written_mem (applyPublishOutcome_eq_ok.mp happly).1 hheld.mem
      hheld.id
  have hid : written.id = r.id := LeaseTransition.written_id _ r
  have hattempts : written.attempts = r.attempts + 1 :=
    written_failedMark_attempts auth message.id failure r
  have hstatus : written.status = .failed ∨ written.status = .deadLetter := by
    rw [hw, written_failedMark_status]
    cases failure.deadLetterNow r.attempts
    · exact Or.inl rfl
    · exact Or.inr rfl
  constructor
  · rintro ⟨report', db', happly, r', hr', hid', hattempts', _, _⟩
    have hsame : r' = written :=
      Table.eq_of_key_eq hr' (hwritten _ _ happly) (hid'.trans hid.symm)
    refine ⟨⟨report', db', happly⟩, ?_⟩
    rw [← hattempts', hsame, hattempts]
  · rintro ⟨⟨report', db', happly⟩, hone⟩
    refine ⟨report', db', happly, written, hwritten _ _ happly, hid, ?_,
      written_failedMark_lease auth message.id failure r, hstatus⟩
    rw [hattempts, hone]

/-! ## An answer that is too long -/

def refusedEvent : IssueCreatedEventV1 where
  eventId := 3
  issueId := 4
  workspaceId := 1
  projectId := 2
  milestoneId := none
  actorId := 9
  occurredAt := 0
  title := "issue"
  description := none
  priority := .medium

/-- A row that worker 9 leased under token 7 for half a minute. -/
def refusedRow : OutboxRow where
  id := 5
  workspaceId := 1
  eventId := 3
  eventType := EventType.issueCreatedV1.asStr
  aggregateType := "issue"
  aggregateId := 4
  occurredAt := 0
  correlationId := 6
  payload := Codec.unary.eventToValue refusedEvent
  attempts := 0
  availableAt := 0
  status := .leased
  leasedAt := some 0
  leasedUntil := some (seconds 30)
  leaseToken := some 7
  leaseOwner := some 9
  publishedAt := none
  lastError := none
  createdAt := 0
  updatedAt := 0

def refusedDb : Db :=
  { Db.empty with
    workspaces := Db.oneWorkspace
    outbox := ⟨[refusedRow], by decide, by decide⟩ }

def refusedMessage : OutboxMessage where
  id := 5
  workspaceId := 1
  eventId := 3
  eventType := EventType.issueCreatedV1.asStr
  aggregateType := "issue"
  aggregateId := 4
  correlationId := 6
  payload := Codec.unary.eventToValue refusedEvent
  attempts := 0
  leaseToken := 7
  leaseOwner := 9
  leasedUntil := seconds 30

def badRequest : HttpOutboxPublisher.Status := ⟨400, some "Bad Request"⟩

/-- The remote side answers every request with `400 Bad Request` and the given body. -/
def refusing (body : String) : HttpOutboxPublisher.Remote := ⟨0, fun _ _ => .response badRequest body⟩

def refusal (body : String) : PublishError :=
  ⟨.permanent, HttpOutboxPublisher.rejectedMessage badRequest body⟩

def httpSettings : HttpOutboxPublisher.Settings := ⟨"http://remote", 5, 30⟩

theorem dispatch_refusing (body : String) : (((defaultRegistry Codec.unary).dispatch
    (HttpOutboxPublisher.publisher Codec.unary httpSettings (refusing body)) refusedMessage)
      .new).1 = .error (refusal body) := by
  rfl

def quietReading : MarkEnv := ⟨.quiet, 0, 0⟩

theorem refusedRow_held : HeldMessage ⟨1, 9⟩ refusedMessage quietReading.now refusedDb refusedRow where
  mem := List.mem_singleton.mpr rfl
  workspace := rfl
  id := rfl
  owner := rfl
  held := rfl

theorem refusal_length (body : String) :
    (refusal body).kind.debug.length + 2 + (refusal body).message.length = 62 + body.length := by
  have hkind : (refusal body).kind.debug.length = 9 := by
    change "Permanent".length = 9
    decide
  have hmessage : (refusal body).message = "http publish rejected with status " ++
      badRequest.display ++ ": " ++ body := rfl
  have hfront : ("http publish rejected with status " ++ badRequest.display ++ ": ").length = 51 := by
    decide
  rw [hkind, hmessage, String.length_append, hfront]
  omega

def longBody : String := String.ofList (List.replicate 4000 'x')

theorem longBody_length : longBody.length = 4000 := by
  unfold longBody
  rw [String.length_ofList, List.length_replicate]

/-- A refusal with a body of 4000 characters is returned by the dispatch and never recorded. -/
theorem longBody_not_recorded : (((defaultRegistry Codec.unary).dispatch
      (HttpOutboxPublisher.publisher Codec.unary httpSettings (refusing longBody)) refusedMessage)
        .new).1 = .error (refusal longBody) ∧
    HeldMessage ⟨1, 9⟩ refusedMessage quietReading.now refusedDb refusedRow ∧
    ¬RecordsFailure Codec.unary .default ⟨1, 9⟩ refusedMessage (refusal longBody) quietReading
      .default refusedDb refusedRow := by
  refine ⟨dispatch_refusing longBody, refusedRow_held, ?_⟩
  intro h
  have hcommits := Exists.imp (fun _ => Exists.imp (fun _ => And.left)) h
  have hfits := (refusedRow_held.failure_commits_iff .default (refusal longBody) .default rfl).mp
    hcommits
  rw [refusal_length, longBody_length] at hfits
  unfold OutboxRow.maxLastErrorLength at hfits
  omega

theorem recordsFailure_iff_refusal :
    RecordsFailure Codec.unary .default ⟨1, 9⟩ refusedMessage (refusal "retry later") quietReading
      .default refusedDb refusedRow ↔
    (refusal "retry later").kind.debug.length + 2 + (refusal "retry later").message.length ≤
      OutboxRow.maxLastErrorLength ∧ refusedRow.attempts ≠ Int32.maxValue :=
  recordsFailure_iff Codec.unary httpSettings (refusing "retry later") .new .default ⟨1, 9⟩
    refusedMessage _ quietReading .default refusedDb refusedRow (dispatch_refusing "retry later")
    refusedRow_held rfl

end Dandori.OutboxWorkerService
