import Dandori.Session

/-!
# Creating and reading issues

`create_issue_transactional` reserves the idempotency key first, with an upsert whose conflict
branch rewrites the stored record to itself, and only the transaction that inserted the record goes
on to write the issue, its activity, its outbox row and the final response payload. Identifiers and
clock readings made inside the call are arguments of the model.
-/

namespace Dandori.IssueRepository

structure CreateIssueWriteResult where
  issue : Issue
  idempotentReplay : Bool
  deriving DecidableEq

/-- The two readings of `Utc::now()` and the two generated row ids of one call. -/
structure Generated where
  idempotencyNow : Timestamp
  expiresNow : Timestamp
  activityId : Uuid
  outboxId : Uuid

structure CreateIssueCall where
  auth : AuthContext
  command : CreateIssueCommandV1
  event : IssueCreatedEventV1
  generated : Generated

def placeholderPayload : Value := .object [("status", .string "reserving")]

structure IdempotencyReservation where
  inserted : Bool
  storedFingerprint : String
  storedPayload : Value

def idempotencyRowKey (command : CreateIssueCommandV1) :
    Uuid ×ₗ String ×ₗ String :=
  toLex (command.workspaceId, toLex (CommandName.issueCreateV1.asStr, command.idempotencyKey.value))

section Statements

variable (codec : Codec) (call : CreateIssueCall)

def reservationRow : IdempotencyRow where
  workspaceId := call.command.workspaceId
  commandName := CommandName.issueCreateV1.asStr
  idempotencyKey := call.command.idempotencyKey.value
  requestFingerprint := call.command.requestFingerprint
  responsePayload := placeholderPayload
  expiresAt := call.generated.expiresNow + days 7
  createdAt := call.generated.idempotencyNow

/-- `SET expires_at = idempotency_record.expires_at`. -/
def keepExpiry : TenantTable.idempotency.RowUpdate where
  apply r := { r with expiresAt := r.expiresAt }
  key_apply _ := rfl
  tenant_apply _ := rfl
  conflicts_apply _ _ := rfl

def reserveIdempotency : Tx IdempotencyReservation := do
  let (inserted, row) ← TenantTable.idempotency.upsert codec .sqlx (reservationRow call) keepExpiry
  return ⟨inserted, row.requestFingerprint, row.responsePayload⟩

def ensureProjectExists : Tx Unit := do
  let rows ← TenantTable.project.select codec .sqlx (fun r =>
    r.id = call.command.projectId && r.workspaceId = call.command.workspaceId)
  if rows.isEmpty then throw .projectNotFound else return ()

def ensureMilestoneBelongsToProject : Tx Unit :=
  match call.command.milestoneId with
  | none => return ()
  | some milestoneId => do
      let rows ← TenantTable.milestone.select codec .sqlx (fun r =>
        r.id = milestoneId && r.workspaceId = call.command.workspaceId)
      match rows.head? with
      | none => throw .milestoneNotFound
      | some row =>
          if row.projectId ≠ call.command.projectId then throw .milestoneProjectMismatch
          else return ()

def issueRow : IssueRow where
  id := call.command.issueId
  workspaceId := call.command.workspaceId
  projectId := call.command.projectId
  milestoneId := call.command.milestoneId
  title := call.command.title
  description := call.command.description
  stateCategory := .open
  priority := call.command.priority
  archivedAt := none
  rowVersion := 0
  createdAt := call.event.occurredAt
  updatedAt := call.event.occurredAt

def parseStateCategory (value : String) : Except StoreError IssueStateCategory :=
  match parseStateCategoryName value with
  | some state => .ok state
  | none => .error (.invalidState value)

def parsePriority (value : String) : Except StoreError IssuePriority :=
  match parsePriorityName value with
  | some priority => .ok priority
  | none => .error (.invalidPriority value)

/-- The enum columns are read back as text and parsed. -/
def mapIssueRow (row : IssueRow) : Except StoreError Issue := do
  let stateCategory ← parseStateCategory row.stateCategory.asStr
  let priority ← parsePriority (priorityAsStr row.priority)
  return {
    id := row.id
    workspaceId := row.workspaceId
    projectId := row.projectId
    milestoneId := row.milestoneId
    title := row.title
    description := row.description
    stateCategory := stateCategory
    priority := priority
    archivedAt := row.archivedAt
    rowVersion := row.rowVersion
    createdAt := row.createdAt
    updatedAt := row.updatedAt }

def insertIssueReturning : Tx Issue := do
  let row ← TenantTable.issue.insert codec .sqlx (issueRow call)
  match mapIssueRow row with
  | .ok issue => return issue
  | .error e => throw e

def activityRow : ActivityRow where
  id := call.generated.activityId
  workspaceId := call.command.workspaceId
  projectId := call.command.projectId
  issueId := some call.command.issueId
  commandId := call.command.commandId
  actorId := call.command.actorId
  eventType := EventType.issueCreatedV1.asStr
  eventPayload := codec.eventToValue call.event
  createdAt := call.event.occurredAt

def insertActivity : Tx Unit := do
  let _ ← TenantTable.activity.insert codec .sqlx (activityRow codec call)
  return ()

def outboxRow : OutboxRow where
  id := call.generated.outboxId
  workspaceId := call.command.workspaceId
  eventId := call.event.eventId
  eventType := EventType.issueCreatedV1.asStr
  aggregateType := "issue"
  aggregateId := call.command.issueId
  occurredAt := call.event.occurredAt
  correlationId := call.command.commandId
  payload := codec.eventToValue call.event
  attempts := 0
  availableAt := call.event.occurredAt
  status := .pending
  leasedAt := none
  leasedUntil := none
  leaseToken := none
  leaseOwner := none
  publishedAt := none
  lastError := none
  createdAt := call.event.occurredAt
  updatedAt := call.event.occurredAt

def insertOutbox : Tx Unit := do
  let _ ← TenantTable.outbox.insert codec .sqlx (outboxRow codec call)
  return ()

def setResponsePayload (payload : Value) : TenantTable.idempotency.RowUpdate where
  apply r := { r with responsePayload := payload }
  key_apply _ := rfl
  tenant_apply _ := rfl
  conflicts_apply _ _ := rfl

def updateIdempotencyPayload (payload : Value) : Tx Unit := do
  let _ ← TenantTable.idempotency.update codec .sqlx (fun r =>
    r.workspaceId = call.command.workspaceId && r.commandName = CommandName.issueCreateV1.asStr &&
      r.idempotencyKey = call.command.idempotencyKey.value) (setResponsePayload payload)
  return ()

/-- The writes of the transaction that won the reservation. -/
def writeIssue : Tx Issue := do
  ensureProjectExists codec call
  ensureMilestoneBelongsToProject codec call
  let issue ← insertIssueReturning codec call
  insertActivity codec call
  insertOutbox codec call
  updateIdempotencyPayload codec call (codec.idempotencyResponseToValue issue)
  return issue

def createIssueTx : Tx (Issue ⊕ IdempotencyReservation) := do
  setWorkspaceContext .sqlx codec call.auth.workspaceId
  let reservation ← reserveIdempotency codec call
  if reservation.inserted then
    let issue ← writeIssue codec call
    return .inl issue
  else
    return .inr reservation

def legacyV1Fingerprint (command : CreateIssueCommandV1) : String :=
  let milestone := (command.milestoneId.map codec.uuidText).getD "null"
  let description := command.description.getD ""
  s!"project_id={codec.uuidText command.projectId}|milestone_id={milestone}|title={command.title}|description={description}|priority={priorityAsStr command.priority}"

def matchesRequestFingerprint (existing : String) (command : CreateIssueCommandV1) : Bool :=
  existing = command.requestFingerprint ||
    (!"v2:".toList.isPrefixOf existing.toList && existing = legacyV1Fingerprint codec command)

def branchOnStoredFingerprint (command : CreateIssueCommandV1)
    (reservation : IdempotencyReservation) : Except StoreError CreateIssueWriteResult :=
  if matchesRequestFingerprint codec reservation.storedFingerprint command = false then
    .error .idempotencyConflict
  else match codec.idempotencyResponseFromValue reservation.storedPayload with
    | .ok issue => .ok ⟨issue, true⟩
    | .error message => .error (.serde message)

def createIssueTransactional (env : Env) (db : Db) :
    Except StoreError CreateIssueWriteResult × Db :=
  match transaction .sqlx env (createIssueTx codec call) db with
  | (.error e, db') => (.error e, db')
  | (.ok (.inl issue), db') => (.ok ⟨issue, false⟩, db')
  | (.ok (.inr reservation), db') =>
      (branchOnStoredFingerprint codec call.command reservation, db')

/-- `fetch_optional`: the first row, mapped, when there is one. -/
def fetchIssueInTx (issueId : Uuid) : Tx (Option Issue) := do
  let rows ← TenantTable.issue.select codec .sqlx (fun r => r.id = issueId)
  match rows.head?.map mapIssueRow with
  | none => return none
  | some (.ok issue) => return some issue
  | some (.error e) => throw e

def getIssue (auth : AuthContext) (issueId : Uuid) (env : Env) (db : Db) :
    Except StoreError (Option Issue) × Db :=
  transaction .sqlx env (do
    setWorkspaceContext .sqlx codec auth.workspaceId
    fetchIssueInTx codec issueId) db

end Statements

/-! ## What a call does -/

def issueOfRow (row : IssueRow) : Issue where
  id := row.id
  workspaceId := row.workspaceId
  projectId := row.projectId
  milestoneId := row.milestoneId
  title := row.title
  description := row.description
  stateCategory := row.stateCategory
  priority := row.priority
  archivedAt := row.archivedAt
  rowVersion := row.rowVersion
  createdAt := row.createdAt
  updatedAt := row.updatedAt

/-- The enum texts written by the database are the ones the store parses. -/
theorem mapIssueRow_eq (row : IssueRow) : mapIssueRow row = .ok (issueOfRow row) := by
  simp only [mapIssueRow, parseStateCategory, parsePriority, parseStateCategoryName_asStr,
    parsePriorityName_priorityAsStr]
  rfl

section Spec

variable {codec : Codec} {call : CreateIssueCall} {s t : TxState}

theorem idempotencyRow_key_iff {r : IdempotencyRow} :
    r.key = idempotencyRowKey call.command ↔
      r.workspaceId = call.command.workspaceId ∧
        r.commandName = CommandName.issueCreateV1.asStr ∧
        r.idempotencyKey = call.command.idempotencyKey.value := by
  unfold IdempotencyRow.key idempotencyRowKey
  simp only [EmbeddingLike.apply_eq_iff_eq, Prod.mk.injEq]

/-- A reservation either inserts the placeholder under a free key or reads the stored record. -/
theorem reserveIdempotency_cases {reservation : IdempotencyReservation}
    (h : reserveIdempotency codec call s = .ok (reservation, t)) :
    t.setting = s.setting ∧ TenantTable.idempotency.visible codec s (reservationRow call) = true ∧
      ((reservation.inserted = true ∧
        s.db.idempotencyRecords.find? (idempotencyRowKey call.command) = none ∧
        ∃ u, s.db.idempotencyRecords.insert? (reservationRow call) = some u ∧
          t.db = { s.db with idempotencyRecords := u }) ∨
      ∃ row, s.db.idempotencyRecords.find?
          (idempotencyRowKey call.command) = some row ∧
        reservation = ⟨false, row.requestFingerprint, row.responsePayload⟩ ∧ t.db = s.db) := by
  unfold reserveIdempotency at h
  obtain ⟨⟨inserted, row⟩, u, hu, hp⟩ := Tx.bind_eq_ok.mp h
  cases hp
  obtain ⟨_, hv, _, ⟨hf, rfl, rfl, db, hdb, rfl⟩ | ⟨old, v, hf, rfl, hr, hv', rfl⟩⟩ :=
    TenantTable.upsert_eq_ok hu
  · obtain ⟨_, _, _, w, hw, rfl⟩ := TenantTable.insertRow_eq_ok.mp hdb
    exact ⟨rfl, hv, Or.inl ⟨rfl, hf, w, hw, rfl⟩⟩
  · refine ⟨rfl, hv, Or.inr ⟨old, hf, by rw [hr]; rfl, ?_⟩⟩
    have hid := Table.update?_id (t := TenantTable.idempotency.get s.db)
      (p := fun x => TenantTable.idempotency.key x = TenantTable.idempotency.key (reservationRow call))
    have hsame : v = TenantTable.idempotency.get s.db := Option.some.inj (hv'.symm.trans hid)
    rw [hsame]
    rfl

/-- What a committed create leaves behind: one issue, one activity, one outbox row and the final
idempotency record, added under free keys. -/
structure FreshCreate (codec : Codec) (call : CreateIssueCall) (db db' : Db) : Prop where
  workspace : call.auth.workspaceId = call.command.workspaceId
  unreserved :
    db.idempotencyRecords.find? (idempotencyRowKey call.command) = none
  issues : db.issues.insert? (issueRow call) = some db'.issues
  activities : db.activities.insert? (activityRow codec call) = some db'.activities
  outbox : db.outbox.insert? (outboxRow codec call) = some db'.outbox
  records : ∀ r, r ∈ db'.idempotencyRecords ↔
    r = { reservationRow call with
      responsePayload := codec.idempotencyResponseToValue (issueOfRow (issueRow call)) } ∨
    r ∈ db.idempotencyRecords
  rest : db' = { db with
    issues := db'.issues
    activities := db'.activities
    outbox := db'.outbox
    idempotencyRecords := db'.idempotencyRecords }

theorem ensureProjectExists_db {u : Unit} (h : ensureProjectExists codec call s = .ok (u, t)) :
    t.db = s.db ∧ t.setting = s.setting := by
  unfold ensureProjectExists at h
  obtain ⟨rows, v, hv, h⟩ := Tx.bind_eq_ok.mp h
  obtain ⟨_, _, rfl⟩ := TenantTable.select_eq_ok.mp hv
  split at h
  · cases h
  · cases h
    exact ⟨rfl, rfl⟩

theorem ensureMilestoneBelongsToProject_db {u : Unit}
    (h : ensureMilestoneBelongsToProject codec call s = .ok (u, t)) :
    t.db = s.db ∧ t.setting = s.setting := by
  unfold ensureMilestoneBelongsToProject at h
  cases hm : call.command.milestoneId with
  | none =>
      simp only [hm] at h
      cases h
      exact ⟨rfl, rfl⟩
  | some milestoneId =>
      simp only [hm] at h
      obtain ⟨rows, v, hv, h⟩ := Tx.bind_eq_ok.mp h
      obtain ⟨_, _, rfl⟩ := TenantTable.select_eq_ok.mp hv
      cases hrow : rows.head? with
      | none =>
          simp only [hrow] at h
          cases h
      | some row =>
          simp only [hrow] at h
          split_ifs at h
          · cases h
          · cases h
            exact ⟨rfl, rfl⟩

theorem insertIssueReturning_db {issue : Issue}
    (h : insertIssueReturning codec call s = .ok (issue, t)) :
    issue = issueOfRow (issueRow call) ∧ t.setting = s.setting ∧
      ∃ u, s.db.issues.insert? (issueRow call) = some u ∧ t.db = { s.db with issues := u } := by
  unfold insertIssueReturning at h
  obtain ⟨row, v, hv, h⟩ := Tx.bind_eq_ok.mp h
  obtain ⟨rfl, hset, hinsert⟩ := TenantTable.insert_db hv
  rw [mapIssueRow_eq] at h
  cases h
  exact ⟨rfl, hset, hinsert⟩

theorem insertActivity_db {u : Unit} (h : insertActivity codec call s = .ok (u, t)) :
    t.setting = s.setting ∧ ∃ v, s.db.activities.insert? (activityRow codec call) = some v ∧
      t.db = { s.db with activities := v } := by
  unfold insertActivity at h
  obtain ⟨row, v, hv, h⟩ := Tx.bind_eq_ok.mp h
  obtain ⟨_, hset, hinsert⟩ := TenantTable.insert_db hv
  cases h
  exact ⟨hset, hinsert⟩

theorem insertOutbox_db {u : Unit} (h : insertOutbox codec call s = .ok (u, t)) :
    t.setting = s.setting ∧ ∃ v, s.db.outbox.insert? (outboxRow codec call) = some v ∧
      t.db = { s.db with outbox := v } := by
  unfold insertOutbox at h
  obtain ⟨row, v, hv, h⟩ := Tx.bind_eq_ok.mp h
  obtain ⟨_, hset, hinsert⟩ := TenantTable.insert_db hv
  cases h
  exact ⟨hset, hinsert⟩

theorem updateIdempotencyPayload_db {payload : Value} {u : Unit}
    (hs : s.setting = some (codec.uuidText call.command.workspaceId))
    (h : updateIdempotencyPayload codec call payload s = .ok (u, t)) :
    ∃ v, t.db = { s.db with idempotencyRecords := v } ∧ ∀ r, r ∈ v ↔
      ∃ old ∈ s.db.idempotencyRecords,
        (if old.key = idempotencyRowKey call.command then
          { old with responsePayload := payload } else old) = r := by
  unfold updateIdempotencyPayload at h
  obtain ⟨rows, w, hw, h⟩ := Tx.bind_eq_ok.mp h
  obtain ⟨_, db, hdb, rfl⟩ := TenantTable.update_eq_ok.mp hw
  cases h
  obtain ⟨_, v, hv, rfl⟩ := TenantTable.updateRows_eq_ok.mp hdb
  refine ⟨v, rfl, fun r => ?_⟩
  rw [Table.mem_of_update? hv]
  refine exists_congr (fun old => and_congr_right (fun _ => ?_))
  have hsel : TenantTable.idempotency.selected codec (fun r =>
      r.workspaceId = call.command.workspaceId && r.commandName = CommandName.issueCreateV1.asStr &&
        r.idempotencyKey = call.command.idempotencyKey.value) s old = true ↔
      old.key = idempotencyRowKey call.command := by
    rw [TenantTable.selected_iff hs, idempotencyRow_key_iff]
    simp only [Bool.and_eq_true, decide_eq_true_eq, and_assoc]
    exact ⟨fun h => h.2, fun h => ⟨h.1, h⟩⟩
  simp only [hsel]
  rfl

theorem writeIssue_db {issue : Issue}
    (hs : s.setting = some (codec.uuidText call.command.workspaceId))
    (h : writeIssue codec call s = .ok (issue, t)) :
    issue = issueOfRow (issueRow call) ∧ ∃ i a o v,
      s.db.issues.insert? (issueRow call) = some i ∧
      s.db.activities.insert? (activityRow codec call) = some a ∧
      s.db.outbox.insert? (outboxRow codec call) = some o ∧
      t.db = { s.db with issues := i, activities := a, outbox := o, idempotencyRecords := v } ∧
      ∀ r, r ∈ v ↔ ∃ old ∈ s.db.idempotencyRecords,
        (if old.key = idempotencyRowKey call.command then
          { old with responsePayload := codec.idempotencyResponseToValue issue } else old) = r := by
  unfold writeIssue at h
  obtain ⟨_, s₁, h₁, h⟩ := Tx.bind_eq_ok.mp h
  obtain ⟨_, s₂, h₂, h⟩ := Tx.bind_eq_ok.mp h
  obtain ⟨issue', s₃, h₃, h⟩ := Tx.bind_eq_ok.mp h
  obtain ⟨_, s₄, h₄, h⟩ := Tx.bind_eq_ok.mp h
  obtain ⟨_, s₅, h₅, h⟩ := Tx.bind_eq_ok.mp h
  obtain ⟨_, s₆, h₆, h⟩ := Tx.bind_eq_ok.mp h
  cases h
  obtain ⟨hdb₁, hset₁⟩ := ensureProjectExists_db h₁
  obtain ⟨hdb₂, hset₂⟩ := ensureMilestoneBelongsToProject_db h₂
  obtain ⟨rfl, hset₃, i, hi, hdb₃⟩ := insertIssueReturning_db h₃
  obtain ⟨hset₄, a, ha, hdb₄⟩ := insertActivity_db h₄
  obtain ⟨hset₅, o, ho, hdb₅⟩ := insertOutbox_db h₅
  have hset : s₅.setting = some (codec.uuidText call.command.workspaceId) := by
    rw [hset₅, hset₄, hset₃, hset₂, hset₁, hs]
  obtain ⟨v, hdb₆, hv⟩ := updateIdempotencyPayload_db hset h₆
  rw [hdb₂, hdb₁] at hi hdb₃
  rw [hdb₃] at ha hdb₄
  rw [hdb₄] at ho hdb₅
  rw [hdb₅] at hv hdb₆
  exact ⟨rfl, i, a, o, v, hi, ha, ho, hdb₆, hv⟩

/-- The transaction body: a stored record is returned untouched, a free key leads to all writes. -/
theorem createIssueTx_cases {out : Issue ⊕ IdempotencyReservation}
    (h : createIssueTx codec call s = .ok (out, t)) :
    (out = .inl (issueOfRow (issueRow call)) ∧ FreshCreate codec call s.db t.db) ∨
    ∃ row, s.db.idempotencyRecords.find?
        (idempotencyRowKey call.command) = some row ∧
      call.auth.workspaceId = call.command.workspaceId ∧
      out = .inr ⟨false, row.requestFingerprint, row.responsePayload⟩ ∧ t.db = s.db := by
  unfold createIssueTx at h
  obtain ⟨_, s₁, h₁, h⟩ := Tx.bind_eq_ok.mp h
  rw [(setWorkspaceContext_eq_ok.mp h₁).2] at h
  obtain ⟨reservation, s₂, h₂, h⟩ := Tx.bind_eq_ok.mp h
  obtain ⟨hset, hv, hcases⟩ := reserveIdempotency_cases h₂
  have hws : call.command.workspaceId = call.auth.workspaceId :=
    (TenantTable.visible_iff _ codec (TxState.scoped_setting _ _ _)).mp hv
  rcases hcases with ⟨hins, hfree, u, hu, hdb⟩ | ⟨row, hrow, rfl, hdb⟩
  · rw [if_pos hins] at h
    obtain ⟨issue, s₃, h₃, h⟩ := Tx.bind_eq_ok.mp h
    cases h
    have hset₂ : s₂.setting = some (codec.uuidText call.command.workspaceId) := by
      rw [hset, hws]
      rfl
    obtain ⟨rfl, i, a, o, v, hi, ha, ho, hdb₃, hmem⟩ := writeIssue_db hset₂ h₃
    rw [hdb] at hi ha ho hdb₃ hmem
    refine Or.inl ⟨rfl, ?_⟩
    rw [hdb₃]
    refine ⟨hws.symm, hfree, hi, ha, ho, fun r => ?_, rfl⟩
    obtain ⟨_, hkey, hmem_u⟩ := Table.insert?_eq_some hu
    rw [hmem]
    simp only [hmem_u]
    constructor
    · rintro ⟨old, rfl | hold, rfl⟩
      · exact Or.inl (if_pos rfl)
      · have hne : ¬old.key = idempotencyRowKey call.command := hkey old hold
        rw [if_neg hne]
        exact Or.inr hold
    · rintro (rfl | hr)
      · exact ⟨_, Or.inl rfl, if_pos rfl⟩
      · exact ⟨r, Or.inr hr, if_neg (hkey r hr)⟩
  · cases h
    exact Or.inr ⟨row, hrow, hws.symm, rfl, hdb⟩

/-- An error inside the transaction is a database error, or the key was free. -/
theorem createIssueTx_error {e : StoreError} (h : createIssueTx codec call s = .error e) :
    (∃ d, e = .sqlx d) ∨
      s.db.idempotencyRecords.find? (idempotencyRowKey call.command) = none := by
  unfold createIssueTx at h
  rcases Tx.bind_eq_error.mp h with h₁ | ⟨_, s₁, h₁, h⟩
  · exact Or.inl (setWorkspaceContext_eq_error h₁)
  · rw [(setWorkspaceContext_eq_ok.mp h₁).2] at h
    rcases Tx.bind_eq_error.mp h with h₂ | ⟨reservation, s₂, h₂, h⟩
    · unfold reserveIdempotency at h₂
      rcases Tx.bind_eq_error.mp h₂ with h₃ | ⟨_, _, _, hp⟩
      · exact Or.inl (statement_eq_error h₃)
      · cases hp
    · obtain ⟨_, _, ⟨_, hfree, _⟩ | ⟨row, _, rfl, _⟩⟩ := reserveIdempotency_cases h₂
      · exact Or.inr hfree
      · cases h

/-- The three ways a call can end. -/
theorem createIssueTransactional_cases (codec : Codec) (call : CreateIssueCall) (env : Env)
    (db : Db) :
    (∃ e, createIssueTransactional codec call env db = (.error e, db) ∧
      ((∃ d, e = .sqlx d) ∨ db.idempotencyRecords.find?
        (idempotencyRowKey call.command) = none)) ∨
    (∃ row, db.idempotencyRecords.find?
        (idempotencyRowKey call.command) = some row ∧
      call.auth.workspaceId = call.command.workspaceId ∧
      createIssueTransactional codec call env db =
        (branchOnStoredFingerprint codec call.command
          ⟨false, row.requestFingerprint, row.responsePayload⟩, db)) ∨
    ∃ db', FreshCreate codec call db db' ∧
      createIssueTransactional codec call env db =
        (.ok ⟨issueOfRow (issueRow call), false⟩, db') := by
  unfold createIssueTransactional
  rcases transaction_cases .sqlx env (createIssueTx codec call) db with
    ⟨e, he, hcause⟩ | ⟨out, t, _, hbody, _, he⟩
  · rw [he]
    refine Or.inl ⟨e, rfl, ?_⟩
    rcases hcause with hd | hbody
    · exact Or.inl hd
    · exact createIssueTx_error hbody
  · rw [he]
    rcases createIssueTx_cases hbody with ⟨rfl, hfresh⟩ | ⟨row, hrow, hws, rfl, hdb⟩
    · exact Or.inr (Or.inr ⟨t.db, hfresh, rfl⟩)
    · refine Or.inr (Or.inl ⟨row, hrow, hws, ?_⟩)
      rw [hdb]
      rfl

end Spec
end Dandori.IssueRepository
