import Dandori.Codec
import Dandori.KeyedTable
import Mathlib.Data.Prod.Lex
import Mathlib.Data.String.Basic

/-!
# The database schema

One row type per table, with the columns the store reads or writes, the CHECK constraints of the
migration as row checks, and the whole database as a record of tables keyed by their primary keys.
`char_length` counts characters, unlike the byte lengths checked in Rust.

`Db.restrict p` keeps the rows of the workspaces selected by `p`. A `TenantTable` bundles what a
statement needs to know about one table under row-level security: its key, its constraints, the
workspace a row belongs to, and where the table sits in the database.
-/

namespace Dandori

def charLengthBetween (lo hi : ℕ) (s : String) : Bool := lo ≤ s.length && s.length ≤ hi

inductive OutboxStatus
  | pending
  | leased
  | delivered
  | failed
  | deadLetter
  deriving DecidableEq, Repr

def OutboxStatus.asStr : OutboxStatus → String
  | .pending => "pending"
  | .leased => "leased"
  | .delivered => "delivered"
  | .failed => "failed"
  | .deadLetter => "dead_letter"

theorem OutboxStatus.asStr_eq_leased {status : OutboxStatus} :
    status.asStr = "leased" ↔ status = .leased := by
  cases status <;> decide

instance shardBuckets_neZero : NeZero 1024 := inferInstance

structure WorkspaceRow where
  id : Uuid
  name : String
  shardBucket : Fin 1024
  rowVersion : Int
  createdAt : Timestamp
  updatedAt : Timestamp
  deriving DecidableEq

def WorkspaceRow.check (r : WorkspaceRow) : Bool := charLengthBetween 1 200 r.name

structure WorkflowVersionRow where
  id : Uuid
  workspaceId : Uuid
  deriving DecidableEq

structure ProjectRow where
  id : Uuid
  workspaceId : Uuid
  name : String
  workflowVersionId : Uuid
  rowVersion : Int
  createdAt : Timestamp
  updatedAt : Timestamp
  deriving DecidableEq

def ProjectRow.check (r : ProjectRow) : Bool := charLengthBetween 1 200 r.name

structure MilestoneRow where
  id : Uuid
  workspaceId : Uuid
  projectId : Uuid
  deriving DecidableEq

structure IssueRow where
  id : Uuid
  workspaceId : Uuid
  projectId : Uuid
  milestoneId : Option Uuid
  title : String
  description : Option String
  stateCategory : IssueStateCategory
  priority : IssuePriority
  archivedAt : Option Timestamp
  rowVersion : Int
  createdAt : Timestamp
  updatedAt : Timestamp
  deriving DecidableEq

def IssueRow.check (r : IssueRow) : Bool :=
  charLengthBetween 1 200 r.title && r.description.all (fun d => d.length ≤ 4000)

structure ActivityRow where
  id : Uuid
  workspaceId : Uuid
  projectId : Uuid
  issueId : Option Uuid
  commandId : Uuid
  actorId : Uuid
  eventType : String
  eventPayload : Value
  createdAt : Timestamp

def ActivityRow.check (r : ActivityRow) : Bool := charLengthBetween 1 128 r.eventType

structure OutboxRow where
  id : Uuid
  workspaceId : Uuid
  eventId : Uuid
  eventType : String
  aggregateType : String
  aggregateId : Uuid
  occurredAt : Timestamp
  correlationId : Uuid
  payload : Value
  attempts : Int32
  availableAt : Timestamp
  status : OutboxStatus
  leasedAt : Option Timestamp
  leasedUntil : Option Timestamp
  leaseToken : Option Uuid
  leaseOwner : Option Uuid
  publishedAt : Option Timestamp
  lastError : Option String
  createdAt : Timestamp
  updatedAt : Timestamp

def OutboxRow.maxLastErrorLength : ℕ := 4000

def OutboxRow.check (r : OutboxRow) : Bool :=
  charLengthBetween 1 128 r.eventType && charLengthBetween 1 64 r.aggregateType &&
    r.lastError.all (fun e => e.length ≤ maxLastErrorLength)

structure IdempotencyRow where
  workspaceId : Uuid
  commandName : String
  idempotencyKey : String
  requestFingerprint : String
  responsePayload : Value
  expiresAt : Timestamp
  createdAt : Timestamp

def IdempotencyRow.key (r : IdempotencyRow) : Uuid ×ₗ String ×ₗ String :=
  toLex (r.workspaceId, toLex (r.commandName, r.idempotencyKey))

def IdempotencyRow.check (r : IdempotencyRow) : Bool :=
  charLengthBetween 1 128 r.commandName && charLengthBetween 1 128 r.idempotencyKey &&
    charLengthBetween 1 128 r.requestFingerprint

structure PartitionLeaseRow where
  workspaceId : Uuid
  shardBucket : Fin 1024
  leaseOwner : Uuid
  leasedAt : Timestamp
  leasedUntil : Timestamp
  updatedAt : Timestamp
  deriving DecidableEq

def unchecked {ρ : Type} (_ : ρ) : Bool := true

structure Db where
  workspaces : Table WorkspaceRow.id WorkspaceRow.check
  workflowVersions : Table WorkflowVersionRow.id unchecked
  projects : Table ProjectRow.id ProjectRow.check
  milestones : Table MilestoneRow.id unchecked
  issues : Table IssueRow.id IssueRow.check
  activities : Table ActivityRow.id ActivityRow.check
  outbox : Table OutboxRow.id OutboxRow.check
  idempotencyRecords : Table IdempotencyRow.key IdempotencyRow.check
  partitionLeases : Table PartitionLeaseRow.workspaceId unchecked

namespace Db

protected def empty : Db where
  workspaces := Table.empty
  workflowVersions := Table.empty
  projects := Table.empty
  milestones := Table.empty
  issues := Table.empty
  activities := Table.empty
  outbox := Table.empty
  idempotencyRecords := Table.empty
  partitionLeases := Table.empty

/-- The workspaces of the example databases. -/
def oneWorkspace : Table WorkspaceRow.id WorkspaceRow.check :=
  ⟨[⟨1, "one", 0, 0, 0, 0⟩], by decide, by decide⟩

def twoWorkspaces : Table WorkspaceRow.id WorkspaceRow.check :=
  ⟨[⟨1, "one", 0, 0, 0, 0⟩, ⟨2, "two", 0, 0, 0, 0⟩], by decide, by decide⟩

/-- The rows that belong to the workspaces selected by `p`. -/
def restrict (p : Uuid → Bool) (db : Db) : Db where
  workspaces := db.workspaces.filter (fun r => p r.id)
  workflowVersions := db.workflowVersions.filter (fun r => p r.workspaceId)
  projects := db.projects.filter (fun r => p r.workspaceId)
  milestones := db.milestones.filter (fun r => p r.workspaceId)
  issues := db.issues.filter (fun r => p r.workspaceId)
  activities := db.activities.filter (fun r => p r.workspaceId)
  outbox := db.outbox.filter (fun r => p r.workspaceId)
  idempotencyRecords := db.idempotencyRecords.filter (fun r => p r.workspaceId)
  partitionLeases := db.partitionLeases.filter (fun r => p r.workspaceId)

theorem restrict_restrict_of_imp (db : Db) {p q : Uuid → Bool} (h : ∀ w, p w = true → q w = true) :
    (db.restrict q).restrict p = db.restrict p := by
  unfold restrict
  congr 1 <;> exact Table.filter_filter_of_imp _ (fun r => h _)

end Db

structure TenantTable (ρ κ : Type) [LinearOrder κ] where
  key : ρ → κ
  check : ρ → Bool
  tenant : ρ → Uuid
  get : Db → Table key check
  set : Db → Table key check → Db
  /-- A UNIQUE constraint other than the primary key. -/
  conflicts : ρ → ρ → Bool
  /-- The foreign keys of the row find their targets. -/
  references : Db → ρ → Bool
  get_set : ∀ db t, get (set db t) = t
  set_get : ∀ db, set db (get db) = db
  set_set : ∀ db t u, set (set db t) u = set db u
  get_restrict : ∀ db p, get (db.restrict p) = (get db).filter (fun r => p (tenant r))
  set_restrict : ∀ db t p,
    (set db t).restrict p = set (db.restrict p) (t.filter (fun r => p (tenant r)))
  references_restrict : ∀ db p r, p (tenant r) = true → references (db.restrict p) r = references db r

namespace Db

def hasWorkspace (db : Db) (workspaceId : Uuid) : Bool := (db.workspaces.find? workspaceId).isSome

def hasWorkflowVersion (db : Db) (workspaceId id : Uuid) : Bool :=
  (db.workflowVersions.find? id).any (fun r => r.workspaceId = workspaceId)

def hasProject (db : Db) (workspaceId id : Uuid) : Bool :=
  (db.projects.find? id).any (fun r => r.workspaceId = workspaceId)

def hasMilestone (db : Db) (workspaceId id : Uuid) : Bool :=
  (db.milestones.find? id).any (fun r => r.workspaceId = workspaceId)

def hasIssue (db : Db) (workspaceId id : Uuid) : Bool :=
  (db.issues.find? id).any (fun r => r.workspaceId = workspaceId)

variable {p : Uuid → Bool} {workspaceId : Uuid}

theorem hasWorkspace_restrict (db : Db) (h : p workspaceId = true) :
    (db.restrict p).hasWorkspace workspaceId = db.hasWorkspace workspaceId := by
  simp only [hasWorkspace, restrict, Table.find?_filter]
  cases hf : db.workspaces.find? workspaceId with
  | none => rfl
  | some w =>
      have hw : w.id = workspaceId := (Table.find?_eq_some.mp hf).2
      simp only [Option.filter, hw, h, if_true]

theorem any_filter_of_imp {ρ : Type} {o : Option ρ} {f q : ρ → Bool}
    (h : ∀ r, f r = true → q r = true) : (o.filter q).any f = o.any f := by
  cases o with
  | none => rfl
  | some r =>
      cases hq : q r with
      | true => simp only [Option.filter, hq, if_true]
      | false =>
          have hf : f r = false := by
            by_contra hf
            exact absurd (h r (by simpa using hf)) (by simp [hq])
          simp [Option.filter, hq, hf]

theorem hasWorkflowVersion_restrict (db : Db) (id : Uuid) (h : p workspaceId = true) :
    (db.restrict p).hasWorkflowVersion workspaceId id = db.hasWorkflowVersion workspaceId id := by
  simp only [hasWorkflowVersion, restrict, Table.find?_filter]
  exact any_filter_of_imp (fun r hr => by rwa [of_decide_eq_true hr])

theorem hasProject_restrict (db : Db) (id : Uuid) (h : p workspaceId = true) :
    (db.restrict p).hasProject workspaceId id = db.hasProject workspaceId id := by
  simp only [hasProject, restrict, Table.find?_filter]
  exact any_filter_of_imp (fun r hr => by rwa [of_decide_eq_true hr])

theorem hasMilestone_restrict (db : Db) (id : Uuid) (h : p workspaceId = true) :
    (db.restrict p).hasMilestone workspaceId id = db.hasMilestone workspaceId id := by
  simp only [hasMilestone, restrict, Table.find?_filter]
  exact any_filter_of_imp (fun r hr => by rwa [of_decide_eq_true hr])

theorem hasIssue_restrict (db : Db) (id : Uuid) (h : p workspaceId = true) :
    (db.restrict p).hasIssue workspaceId id = db.hasIssue workspaceId id := by
  simp only [hasIssue, restrict, Table.find?_filter]
  exact any_filter_of_imp (fun r hr => by rwa [of_decide_eq_true hr])

end Db

/-! ## The tables under row-level security -/

namespace TenantTable

@[reducible] def workspace : TenantTable WorkspaceRow Uuid where
  key := WorkspaceRow.id
  check := WorkspaceRow.check
  tenant := WorkspaceRow.id
  get := Db.workspaces
  set db t := { db with workspaces := t }
  conflicts _ _ := false
  references _ _ := true
  get_set _ _ := rfl
  set_get _ := rfl
  set_set _ _ _ := rfl
  get_restrict _ _ := rfl
  set_restrict _ _ _ := rfl
  references_restrict _ _ _ _ := rfl

@[reducible] def workflowVersion : TenantTable WorkflowVersionRow Uuid where
  key := WorkflowVersionRow.id
  check := unchecked
  tenant := WorkflowVersionRow.workspaceId
  get := Db.workflowVersions
  set db t := { db with workflowVersions := t }
  conflicts _ _ := false
  references db r := db.hasWorkspace r.workspaceId
  get_set _ _ := rfl
  set_get _ := rfl
  set_set _ _ _ := rfl
  get_restrict _ _ := rfl
  set_restrict _ _ _ := rfl
  references_restrict db _ _ h := db.hasWorkspace_restrict h

@[reducible] def project : TenantTable ProjectRow Uuid where
  key := ProjectRow.id
  check := ProjectRow.check
  tenant := ProjectRow.workspaceId
  get := Db.projects
  set db t := { db with projects := t }
  conflicts _ _ := false
  references db r :=
    db.hasWorkspace r.workspaceId && db.hasWorkflowVersion r.workspaceId r.workflowVersionId
  get_set _ _ := rfl
  set_get _ := rfl
  set_set _ _ _ := rfl
  get_restrict _ _ := rfl
  set_restrict _ _ _ := rfl
  references_restrict db _ _ h := by
    rw [db.hasWorkspace_restrict h, db.hasWorkflowVersion_restrict _ h]

@[reducible] def milestone : TenantTable MilestoneRow Uuid where
  key := MilestoneRow.id
  check := unchecked
  tenant := MilestoneRow.workspaceId
  get := Db.milestones
  set db t := { db with milestones := t }
  conflicts _ _ := false
  references db r := db.hasWorkspace r.workspaceId && db.hasProject r.workspaceId r.projectId
  get_set _ _ := rfl
  set_get _ := rfl
  set_set _ _ _ := rfl
  get_restrict _ _ := rfl
  set_restrict _ _ _ := rfl
  references_restrict db _ _ h := by rw [db.hasWorkspace_restrict h, db.hasProject_restrict _ h]

@[reducible] def issue : TenantTable IssueRow Uuid where
  key := IssueRow.id
  check := IssueRow.check
  tenant := IssueRow.workspaceId
  get := Db.issues
  set db t := { db with issues := t }
  conflicts _ _ := false
  references db r :=
    db.hasWorkspace r.workspaceId && db.hasProject r.workspaceId r.projectId &&
      r.milestoneId.all (db.hasMilestone r.workspaceId)
  get_set _ _ := rfl
  set_get _ := rfl
  set_set _ _ _ := rfl
  get_restrict _ _ := rfl
  set_restrict _ _ _ := rfl
  references_restrict db _ r h := by
    have hm : (db.restrict _).hasMilestone r.workspaceId = db.hasMilestone r.workspaceId :=
      funext (fun id => db.hasMilestone_restrict id h)
    rw [db.hasWorkspace_restrict h, db.hasProject_restrict _ h, hm]

@[reducible] def activity : TenantTable ActivityRow Uuid where
  key := ActivityRow.id
  check := ActivityRow.check
  tenant := ActivityRow.workspaceId
  get := Db.activities
  set db t := { db with activities := t }
  conflicts _ _ := false
  references db r :=
    db.hasWorkspace r.workspaceId && db.hasProject r.workspaceId r.projectId &&
      r.issueId.all (db.hasIssue r.workspaceId)
  get_set _ _ := rfl
  set_get _ := rfl
  set_set _ _ _ := rfl
  get_restrict _ _ := rfl
  set_restrict _ _ _ := rfl
  references_restrict db _ r h := by
    have hi : (db.restrict _).hasIssue r.workspaceId = db.hasIssue r.workspaceId :=
      funext (fun id => db.hasIssue_restrict id h)
    rw [db.hasWorkspace_restrict h, db.hasProject_restrict _ h, hi]

@[reducible] def outbox : TenantTable OutboxRow Uuid where
  key := OutboxRow.id
  check := OutboxRow.check
  tenant := OutboxRow.workspaceId
  get := Db.outbox
  set db t := { db with outbox := t }
  conflicts r s := r.eventId = s.eventId
  references db r := db.hasWorkspace r.workspaceId
  get_set _ _ := rfl
  set_get _ := rfl
  set_set _ _ _ := rfl
  get_restrict _ _ := rfl
  set_restrict _ _ _ := rfl
  references_restrict db _ _ h := db.hasWorkspace_restrict h

@[reducible] def idempotency : TenantTable IdempotencyRow (Uuid ×ₗ String ×ₗ String) where
  key := IdempotencyRow.key
  check := IdempotencyRow.check
  tenant := IdempotencyRow.workspaceId
  get := Db.idempotencyRecords
  set db t := { db with idempotencyRecords := t }
  conflicts _ _ := false
  references db r := db.hasWorkspace r.workspaceId
  get_set _ _ := rfl
  set_get _ := rfl
  set_set _ _ _ := rfl
  get_restrict _ _ := rfl
  set_restrict _ _ _ := rfl
  references_restrict db _ _ h := db.hasWorkspace_restrict h

end TenantTable
end Dandori
