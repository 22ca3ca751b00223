import Dandori.IssueService
import Dandori.PartitionRepository
import Dandori.Registry

/-!
# The worker service

The outcome of a publish is written back with one mark, and the outcomes of a batch are written back
in the order in which the publishes completed, until one mark fails. What the database and the clock
contribute to each mark is given with the message.
-/

namespace Dandori

open OutboxRepository PartitionRepository

structure OutboxWorkerConfig where
  workspaceIds : Option (List Uuid)
  workerInstanceId : Uuid
  batchSize : Int
  leaseSeconds : Int
  maxAttempts : Int32
  retryBackoffSeconds : Int
  deliveredRetentionHours : Int
  deadLetterRetentionHours : Int
  idempotencyRetentionHours : Int
  publishConcurrency : ℕ
  retryJitterMs : ℕ
  partitionBatch : ℕ
  partitionLeaseSeconds : Int
  partitionShardBuckets : ShardBucketRange
  tenantMaxConcurrency : ℕ

/-- `OutboxWorkerConfig::default`. -/
def OutboxWorkerConfig.default : OutboxWorkerConfig where
  workspaceIds := none
  workerInstanceId := 0
  batchSize := 32
  leaseSeconds := 30
  maxAttempts := 5
  retryBackoffSeconds := 15
  deliveredRetentionHours := 24
  deadLetterRetentionHours := 168
  idempotencyRetentionHours := 168
  publishConcurrency := 8
  retryJitterMs := 2000
  partitionBatch := 64
  partitionLeaseSeconds := 60
  partitionShardBuckets := .full
  tenantMaxConcurrency := 8

structure WorkerRunReport where
  leased : ℕ
  delivered : ℕ
  failed : ℕ
  deadLettered : ℕ
  cleanedOutboxRows : ℕ
  cleanedIdempotencyRows : ℕ
  tenantFailures : ℕ
  deriving DecidableEq

def WorkerRunReport.default : WorkerRunReport := ⟨0, 0, 0, 0, 0, 0, 0⟩

namespace OutboxWorkerService

def mapStoreWorkerError (_ : StoreError) : AppServiceError := .internal "worker_store_failed"

/-- What one mark meets: the database, the reading of the clock, and the drawn jitter. -/
structure MarkEnv where
  env : Env
  now : Timestamp
  jitter : ℕ

section Apply

variable (codec : Codec) (config : OutboxWorkerConfig)

def failureContext (message : OutboxMessage) (error : PublishError) (reading : MarkEnv) :
    OutboxFailureContext where
  classification := if error.kind.isTransient then .transient else .terminal
  leaseToken := message.leaseToken
  leaseOwner := message.leaseOwner
  now := reading.now
  errorMessage := s!"{error.kind.debug}: {error.message}"
  maxAttempts := config.maxAttempts
  retryBackoff :=
    retryBackoffWithJitter config.retryBackoffSeconds config.retryJitterMs reading.jitter

/-- The mark issued for a publish outcome. -/
def markOutcome (auth : AuthContext) (message : OutboxMessage) (outcome : Except PublishError Unit)
    (reading : MarkEnv) (db : Db) : Except StoreError Unit × Db :=
  match outcome with
  | .ok () =>
      markOutboxDelivered codec auth message.id message.leaseToken message.leaseOwner reading.now
        reading.env db
  | .error error =>
      markOutboxFailed codec auth message.id (failureContext config message error reading)
        reading.env db

def reportOutcome (message : OutboxMessage) (outcome : Except PublishError Unit)
    (report : WorkerRunReport) : WorkerRunReport :=
  match outcome with
  | .ok () => { report with delivered := report.delivered + 1 }
  | .error error =>
      let terminal := !error.kind.isTransient
      let exhausted := decide (config.maxAttempts ≤ message.attempts + 1)
      { report with
        failed := report.failed + 1
        deadLettered := if terminal || exhausted then report.deadLettered + 1
          else report.deadLettered }

def applyPublishOutcome (auth : AuthContext) (message : OutboxMessage)
    (outcome : Except PublishError Unit) (reading : MarkEnv) (report : WorkerRunReport) (db : Db) :
    Except AppServiceError WorkerRunReport × Db :=
  match markOutcome codec config auth message outcome reading db with
  | (.error e, db') => (.error (mapStoreWorkerError e), db')
  | (.ok (), db') => (.ok (reportOutcome config message outcome report), db')

/-- A message with the outcome of its publish and what its mark will meet. -/
structure Completed where
  message : OutboxMessage
  outcome : Except PublishError Unit
  reading : MarkEnv

/-- The loop of `process_leased` over the completed publishes, left at the first failing mark. -/
def applyOutcomes (auth : AuthContext) :
    List Completed → WorkerRunReport → Db → Except AppServiceError WorkerRunReport × Db
  | [], report, db => (.ok report, db)
  | c :: cs, report, db =>
      match applyPublishOutcome codec config auth c.message c.outcome c.reading report db with
      | (.error e, db') => (.error e, db')
      | (.ok report, db') => applyOutcomes auth cs report db'

/-- The publishes of a batch, in the order in which they complete. -/
def publishBatch {m : Type → Type} [Monad m] (registry : OutboxRegistry m)
    (publisher : OutboxPublisher m) (reading : OutboxMessage → MarkEnv)
    (order : List OutboxMessage) : m (List Completed) :=
  order.mapM (fun message => do
    let outcome ← registry.dispatch publisher message
    return ⟨message, outcome, reading message⟩)

/-- `process_leased`: every message is dispatched, the outcomes arrive in the order `order`, a
permutation of the batch, and are applied in that order. -/
def processLeased {m : Type → Type} [Monad m] (registry : OutboxRegistry m)
    (publisher : OutboxPublisher m) (reading : OutboxMessage → MarkEnv) (auth : AuthContext)
    (order : List OutboxMessage) (report : WorkerRunReport) (db : Db) :
    m (Except AppServiceError WorkerRunReport × Db) := do
  let completed ← publishBatch registry publisher reading order
  return applyOutcomes codec config auth completed report db

/-! ## The calls of a cycle -/

/-- The `AuthContext` under which the worker serves a workspace. -/
def tenantAuth (workspaceId : Uuid) : AuthContext := ⟨workspaceId, config.workerInstanceId⟩

def acquireCall (now : Timestamp) : AcquireCall where
  ownerId := config.workerInstanceId
  now := now
  leaseUntil := now + seconds config.partitionLeaseSeconds
  limit := min (config.partitionBatch : Int) (2 ^ 63 - 1)
  buckets := config.partitionShardBuckets

def acquireWorkspaces (now : Timestamp) (env : Env) (db : Db) :
    Except AppServiceError (List Uuid) × Db :=
  match config.workspaceIds with
  | some staticList => (.ok staticList, db)
  | none =>
      match acquirePartitions (acquireCall config now) env db with
      | (.ok partitions, db') => (.ok partitions, db')
      | (.error e, db') => (.error (mapStoreWorkerError e), db')

/-- `partition_state` after an acquisition: only a non-empty dynamic assignment is remembered. -/
def rememberPartitions (assigned leased : List Uuid) : List Uuid :=
  if config.workspaceIds.isSome || assigned.isEmpty then leased else assigned

/-- `release_partitions`, given what `partition_state` remembers. -/
def releasePartitions (leased : List Uuid) (env : Env) (db : Db) :
    Except AppServiceError Unit × Db :=
  if config.workspaceIds.isSome then (.ok (), db)
  else if leased.isEmpty then (.ok (), db)
  else match PartitionRepository.releasePartitions config.workerInstanceId leased env db with
    | (.ok _, db') => (.ok (), db')
    | (.error e, db') => (.error (mapStoreWorkerError e), db')

def leaseCall (workspaceId : Uuid) (now : Timestamp) (leaseToken : Uuid) : LeaseCall where
  auth := tenantAuth config workspaceId
  now := now
  leaseFor := seconds config.leaseSeconds
  maxItems := config.batchSize
  leaseToken := leaseToken

def cleanTenantOutbox (workspaceId : Uuid) (deliveredNow deadLetterNow : Timestamp) (env : Env)
    (db : Db) : Except StoreError ℕ × Db :=
  cleanupOutbox codec (tenantAuth config workspaceId)
    (deliveredNow - hours config.deliveredRetentionHours)
    (deadLetterNow - hours config.deadLetterRetentionHours) env db

def cleanTenantIdempotency (workspaceId : Uuid) (now : Timestamp) (env : Env) (db : Db) :
    Except StoreError ℕ × Db :=
  cleanupIdempotency codec (tenantAuth config workspaceId)
    (now - hours config.idempotencyRetentionHours) env db

variable {config}

theorem acquireWorkspaces_error {now : Timestamp} {env : Env} {db db' : Db} {e : AppServiceError}
    (h : acquireWorkspaces config now env db = (.error e, db')) : db' = db := by
  unfold acquireWorkspaces at h
  split at h
  · cases h
  · rcases acquirePartitions_cases (acquireCall config now) env db with ⟨e', he⟩ | ⟨_, he, _⟩
    · rw [he] at h
      cases h
      rfl
    · rw [he] at h
      cases h

theorem acquireWorkspaces_ok {now : Timestamp} {env : Env} {db db' : Db} {assigned : List Uuid}
    (h : acquireWorkspaces config now env db = (.ok assigned, db')) :
    (config.workspaceIds = some assigned ∧ db' = db) ∨
      (config.workspaceIds = none ∧
        acquirePartitions (acquireCall config now) env db = (.ok assigned, db')) := by
  unfold acquireWorkspaces at h
  split at h
  · next staticList hstatic =>
      cases h
      exact Or.inl ⟨hstatic, rfl⟩
  · next hdynamic =>
      split at h
      · next partitions db₁ hacquire =>
          cases h
          exact Or.inr ⟨hdynamic, hacquire⟩
      · cases h

theorem acquireWorkspaces_db {now : Timestamp} {env : Env} {db db' : Db} {assigned : List Uuid}
    (h : acquireWorkspaces config now env db = (.ok assigned, db')) :
    ∃ leases, db' = { db with partitionLeases := leases } := by
  rcases acquireWorkspaces_ok h with ⟨_, rfl⟩ | ⟨_, hacquire⟩
  · exact ⟨db'.partitionLeases, rfl⟩
  · rcases acquirePartitions_cases (acquireCall config now) env db with ⟨e, he⟩ | ⟨leases, he, _⟩
    · rw [hacquire] at he
      cases he
    · rw [hacquire] at he
      cases he
      exact ⟨leases, rfl⟩

/-- A dynamic acquisition holds a lease of each workspace it assigns, each of them listed and free, and
leaves the other leases alone. -/
theorem acquireWorkspaces_leases {now : Timestamp} {env : Env} {db db' : Db} {assigned : List Uuid}
    (hdynamic : config.workspaceIds = none)
    (h : acquireWorkspaces config now env db = (.ok assigned, db')) :
    env.faults.head?.getD false = false ∧
    (∀ w ∈ assigned,
      (∃ l, db'.partitionLeases.find? w = some l ∧ l.leaseOwner = config.workerInstanceId) ∧
      heldByOther db.partitionLeases config.workerInstanceId now w = false ∧
      ∃ row ∈ listWorkspaceIdsForPartitionLease db (acquireCall config now).buckets
        (scanLimit (acquireCall config now).limit).toNat, row.id = w) ∧
    ∀ w, w ∉ assigned → db'.partitionLeases.find? w = db.partitionLeases.find? w := by
  rcases acquireWorkspaces_ok h with ⟨hstatic, _⟩ | ⟨_, hacquire⟩
  · rw [hdynamic] at hstatic
    cases hstatic
  · refine ⟨acquirePartitions_ok_faults hacquire, ?_⟩
    rcases acquirePartitions_cases (acquireCall config now) env db with
      ⟨e, he⟩ | ⟨leases, he, hleased, hother⟩
    · rw [hacquire] at he
      cases he
    · rw [hacquire] at he
      cases he
      refine ⟨fun w hw => ?_, hother⟩
      obtain ⟨row, hrow, rfl⟩ := List.mem_map.mp hw
      exact ⟨⟨_, hleased row hrow, rfl⟩, AcquireCall.candidates_available hrow, row,
        List.mem_of_mem_filter hrow, rfl⟩

theorem releasePartitions_cases (config : OutboxWorkerConfig) (leased : List Uuid) (env : Env)
    (db : Db) : (releasePartitions config leased env db).2 = db ∨
      (releasePartitions config leased env db).2 =
        (PartitionRepository.releasePartitions config.workerInstanceId leased env db).2 := by
  unfold releasePartitions
  split_ifs
  · exact Or.inl rfl
  · exact Or.inl rfl
  · split
    · next n db' h => exact Or.inr (by rw [h])
    · next e db' h => exact Or.inr (by rw [h])

variable (config)

/-! ## The mark of an outcome -/

def outcomeMark (auth : AuthContext) (message : OutboxMessage) (outcome : Except PublishError Unit)
    (reading : MarkEnv) : LeaseTransition :=
  match outcome with
  | .ok () =>
      deliveredMark auth message.id message.leaseToken message.leaseOwner reading.now
  | .error error => failedMark auth message.id (failureContext config message error reading)

section OutcomeMark

variable (auth : AuthContext) (message : OutboxMessage) (outcome : Except PublishError Unit)
  (reading : MarkEnv)

@[simp] theorem outcomeMark_auth :
    (outcomeMark config auth message outcome reading).auth = auth := by
  cases outcome <;> rfl

@[simp] theorem outcomeMark_outboxId :
    (outcomeMark config auth message outcome reading).outboxId = message.id := by
  cases outcome <;> rfl

@[simp] theorem outcomeMark_leaseToken :
    (outcomeMark config auth message outcome reading).leaseToken = message.leaseToken := by
  cases outcome <;> rfl

@[simp] theorem outcomeMark_leaseOwner :
    (outcomeMark config auth message outcome reading).leaseOwner = message.leaseOwner := by
  cases outcome <;> rfl

@[simp] theorem outcomeMark_now :
    (outcomeMark config auth message outcome reading).now = reading.now := by
  cases outcome <;> rfl

theorem markOutcome_eq (db : Db) : markOutcome codec config auth message outcome reading db =
    (outcomeMark config auth message outcome reading).run codec reading.env db := by
  cases outcome <;> rfl

variable {codec config auth message outcome reading}

theorem applyPublishOutcome_eq_ok {report report' : WorkerRunReport} {db db' : Db} :
    applyPublishOutcome codec config auth message outcome reading report db = (.ok report', db') ↔
      (outcomeMark config auth message outcome reading).run codec reading.env db = (.ok (), db') ∧
        report' = reportOutcome config message outcome report := by
  unfold applyPublishOutcome
  rw [markOutcome_eq]
  obtain ⟨result, db₁⟩ := (outcomeMark config auth message outcome reading).run codec reading.env db
  cases result with
  | error e => simp
  | ok _ =>
      simp only [Prod.mk.injEq, Except.ok.injEq, true_and]
      tauto

theorem applyPublishOutcome_of_error {report : WorkerRunReport} {db db' : Db} {e : StoreError}
    (h : (outcomeMark config auth message outcome reading).run codec reading.env db =
      (.error e, db')) :
    applyPublishOutcome codec config auth message outcome reading report db =
      (.error (mapStoreWorkerError e), db') := by
  unfold applyPublishOutcome
  rw [markOutcome_eq, h]

end OutcomeMark
end Apply
end OutboxWorkerService
end Dandori
