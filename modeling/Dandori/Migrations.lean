import Dandori.SchemaShape
import Dandori.Session

/-!
# The migrations of the store

The five migrations as scripts over a catalog: the `up` and `down` texts statement by statement, with the
columns, keys and constraints of each table and the policies of row-level security. The migrator runs the
scripts of all pending migrations in one transaction. Column defaults and the labels of the enumerations
have no effect on a script.
-/

namespace Dandori.Migrator

open Ddl (Column ForeignKey Check Policy Index Statement Catalog)

/-- A cell that no script computes with is known by its text. -/
inductive Cell
  | uuid (id : Uuid)
  | smallint (n : Int)
  | value (text : String)
  deriving DecidableEq

def Cell.text (codec : Codec) : Cell → String
  | .uuid id => codec.uuidText id
  | .smallint n => toString n
  | .value text => text

abbrev Row := String → Option Cell

/-- The session of a migration is the value of `current_setting('app.workspace_id', true)`. -/
abbrev Sql := Statement String Cell (Option String)

abbrev Schema := Catalog String Cell (Option String)

structure Setup where
  codec : Codec
  hashtext : String → Int32
  /-- `current_setting('dandori.app_role', true)`. -/
  appRole : Option String
  /-- The names in `pg_roles`. -/
  roles : List String

structure TableDef where
  name : String
  columns : List (Column String)
  keys : List (List String)
  foreignKeys : List (ForeignKey String)
  checks : List (Check String Cell)

def TableDef.create (t : TableDef) : Sql :=
  .createTable t.name t.columns t.keys t.foreignKeys t.checks

def required (name type : String) : Column String := ⟨name, type, true⟩

def nullable (name type : String) : Column String := ⟨name, type, false⟩

def references (columns : List String) (target : String) (targetColumns : List String) :
    ForeignKey String := ⟨columns, target, targetColumns⟩

def referencesWorkspace : ForeignKey String := references ["workspace_id"] "workspace" ["id"]

section Scripts

variable (env : Setup)

/-- `CHECK (char_length(column) BETWEEN lo AND hi)`; a NULL passes. -/
def lengthCheck (table column : String) (lo hi : ℕ) : Check String Cell where
  name := table ++ "_" ++ column ++ "_check"
  columns := [column]
  holds cells := cells.all (fun cell => cell.all (fun v => charLengthBetween lo hi (v.text env.codec)))

/-- `CHECK (shard_bucket BETWEEN 0 AND 1023)`; a NULL passes. -/
def bucketCheck (name : String) : Check String Cell where
  name := name
  columns := ["shard_bucket"]
  holds cells := cells.all (fun cell => match cell with
    | some (.smallint n) => 0 ≤ n && n ≤ 1023
    | some _ => false
    | none => true)

def workspace : TableDef where
  name := "workspace"
  columns := [required "id" "uuid", required "name" "text", required "row_version" "bigint",
    required "created_at" "timestamptz", required "updated_at" "timestamptz"]
  keys := [["id"]]
  foreignKeys := []
  checks := [lengthCheck env "workspace" "name" 1 200]

def workflowVersion : TableDef where
  name := "workflow_version"
  columns := [required "id" "uuid", required "workspace_id" "uuid", required "name" "text",
    required "version" "integer", required "checksum" "text", required "states" "jsonb",
    required "transitions" "jsonb", required "created_at" "timestamptz"]
  keys := [["id"], ["workspace_id", "id"], ["workspace_id", "name", "version"]]
  foreignKeys := [referencesWorkspace]
  checks := [lengthCheck env "workflow_version" "name" 1 200,
    lengthCheck env "workflow_version" "checksum" 1 128]

def project : TableDef where
  name := "project"
  columns := [required "id" "uuid", required "workspace_id" "uuid", required "name" "text",
    required "workflow_version_id" "uuid", required "row_version" "bigint",
    required "created_at" "timestamptz", required "updated_at" "timestamptz"]
  keys := [["id"], ["workspace_id", "id"]]
  foreignKeys := [referencesWorkspace,
    references ["workspace_id", "workflow_version_id"] "workflow_version" ["workspace_id", "id"]]
  checks := [lengthCheck env "project" "name" 1 200]

def milestone : TableDef where
  name := "milestone"
  columns := [required "id" "uuid", required "workspace_id" "uuid", required "project_id" "uuid",
    required "title" "text", nullable "due_at" "timestamptz", required "row_version" "bigint",
    required "created_at" "timestamptz", required "updated_at" "timestamptz"]
  keys := [["id"], ["workspace_id", "id"]]
  foreignKeys := [referencesWorkspace,
    references ["workspace_id", "project_id"] "project" ["workspace_id", "id"]]
  checks := [lengthCheck env "milestone" "title" 1 200]

def issue : TableDef where
  name := "issue"
  columns := [required "id" "uuid", required "workspace_id" "uuid", required "project_id" "uuid",
    nullable "milestone_id" "uuid", required "title" "text", nullable "description" "text",
    required "state_category" "issue_state_category", required "priority" "issue_priority",
    nullable "archived_at" "timestamptz", required "row_version" "bigint",
    required "created_at" "timestamptz", required "updated_at" "timestamptz"]
  keys := [["id"], ["workspace_id", "id"]]
  foreignKeys := [referencesWorkspace,
    references ["workspace_id", "project_id"] "project" ["workspace_id", "id"],
    references ["workspace_id", "milestone_id"] "milestone" ["workspace_id", "id"]]
  checks := [lengthCheck env "issue" "title" 1 200, lengthCheck env "issue" "description" 0 4000]

def activity : TableDef where
  name := "activity"
  columns := [required "id" "uuid", required "workspace_id" "uuid", required "project_id" "uuid",
    nullable "issue_id" "uuid", required "command_id" "uuid", required "actor_id" "uuid",
    required "event_type" "text", required "event_payload" "jsonb",
    required "created_at" "timestamptz"]
  keys := [["id"]]
  foreignKeys := [referencesWorkspace,
    references ["workspace_id", "project_id"] "project" ["workspace_id", "id"],
    references ["workspace_id", "issue_id"] "issue" ["workspace_id", "id"]]
  checks := [lengthCheck env "activity" "event_type" 1 128]

def outbox : TableDef where
  name := "outbox"
  columns := [required "id" "uuid", required "workspace_id" "uuid", required "event_id" "uuid",
    required "event_type" "text", required "aggregate_type" "text", required "aggregate_id" "uuid",
    required "occurred_at" "timestamptz", required "correlation_id" "uuid", required "payload" "jsonb",
    required "attempts" "integer", required "available_at" "timestamptz",
    required "status" "outbox_status", nullable "leased_at" "timestamptz",
    nullable "leased_until" "timestamptz", nullable "lease_token" "uuid", nullable "lease_owner" "uuid",
    nullable "published_at" "timestamptz", nullable "last_error" "text",
    required "created_at" "timestamptz", required "updated_at" "timestamptz"]
  keys := [["id"], ["event_id"]]
  foreignKeys := [referencesWorkspace]
  checks := [lengthCheck env "outbox" "event_type" 1 128,
    lengthCheck env "outbox" "aggregate_type" 1 64, lengthCheck env "outbox" "last_error" 0 4000]

def idempotencyRecord : TableDef where
  name := "idempotency_record"
  columns := [required "workspace_id" "uuid", required "command_name" "text",
    required "idempotency_key" "text", required "request_fingerprint" "text",
    required "response_payload" "jsonb", required "expires_at" "timestamptz",
    required "created_at" "timestamptz"]
  keys := [["workspace_id", "command_name", "idempotency_key"]]
  foreignKeys := [referencesWorkspace]
  checks := [lengthCheck env "idempotency_record" "command_name" 1 128,
    lengthCheck env "idempotency_record" "idempotency_key" 1 128,
    lengthCheck env "idempotency_record" "request_fingerprint" 1 128]

def workerPartitionLease : TableDef where
  name := "worker_partition_lease"
  columns := [required "workspace_id" "uuid", required "shard_bucket" "smallint",
    required "lease_owner" "uuid", required "leased_at" "timestamptz",
    required "leased_until" "timestamptz", required "updated_at" "timestamptz"]
  keys := [["workspace_id"]]
  foreignKeys := [referencesWorkspace]
  checks := [bucketCheck "worker_partition_lease_shard_bucket_range_check"]

structure Migration where
  name : String
  up : List Sql
  down : List Sql

def createEnumsAndCoreTables : Migration where
  name := "m20260415_000001_create_enums_and_core_tables"
  up := [.createType "issue_state_category", .createType "issue_priority",
    .createType "outbox_status", (workspace env).create, (workflowVersion env).create,
    (project env).create, (milestone env).create, (issue env).create]
  down := [.dropTable "issue", .dropTable "milestone", .dropTable "project",
    .dropTable "workflow_version", .dropTable "workspace", .dropType "outbox_status",
    .dropType "issue_priority", .dropType "issue_state_category"]

def createActivityOutboxAndIdempotency : Migration where
  name := "m20260415_000002_create_activity_outbox_and_idempotency"
  up := [(activity env).create, (outbox env).create, (idempotencyRecord env).create]
  down := [.dropTable "idempotency_record", .dropTable "outbox", .dropTable "activity"]

/-- The indexes with their tables; a partial index also reads the columns of its condition. -/
def indexes : List (String × Index String) :=
  [("project", ⟨"idx_project_workspace_id_id", ["workspace_id", "id"]⟩),
    ("milestone", ⟨"idx_milestone_workspace_id_id", ["workspace_id", "id"]⟩),
    ("issue", ⟨"idx_issue_workspace_id_id", ["workspace_id", "id"]⟩),
    ("issue", ⟨"idx_issue_workspace_project", ["workspace_id", "project_id", "archived_at"]⟩),
    ("issue", ⟨"idx_issue_workspace_project_state", ["workspace_id", "project_id", "state_category"]⟩),
    ("activity", ⟨"idx_activity_workspace_created", ["workspace_id", "created_at"]⟩),
    ("outbox", ⟨"idx_outbox_poll_pending", ["workspace_id", "available_at", "id", "status"]⟩),
    ("outbox", ⟨"idx_outbox_lease_expiry", ["workspace_id", "leased_until", "id", "status"]⟩),
    ("outbox", ⟨"idx_outbox_retention", ["workspace_id", "status", "published_at", "updated_at"]⟩),
    ("idempotency_record", ⟨"idx_idempotency_expires_at", ["expires_at"]⟩),
    ("idempotency_record", ⟨"idx_idempotency_fingerprint",
      ["workspace_id", "command_name", "idempotency_key", "request_fingerprint"]⟩)]

def droppedIndexes : List String :=
  ["idx_idempotency_expires_at", "idx_idempotency_fingerprint", "idx_outbox_retention",
    "idx_outbox_lease_expiry", "idx_outbox_poll_pending", "idx_activity_workspace_created",
    "idx_issue_workspace_project_state", "idx_issue_workspace_project", "idx_issue_workspace_id_id",
    "idx_milestone_workspace_id_id", "idx_project_workspace_id_id"]

def createIndexes : Migration where
  name := "m20260415_000003_create_indexes"
  up := indexes.map (fun p => .createIndex p.1 p.2)
  down := droppedIndexes.map (fun name => .dropIndex name)

/-- `column::text = current_setting('app.workspace_id', true)`, for USING and WITH CHECK. -/
def tenantPolicy (name column : String) : Policy String Cell (Option String) where
  name := name
  columns := [column]
  passes setting cells :=
    cells.all (fun cell => cell.any (fun v => setting = some (v.text env.codec)))

/-- The tables under row-level security, each with its policy and the column of the tenant. -/
def tenantTables : List (String × String × String) :=
  [("workspace", "tenant_workspace_policy", "id"),
    ("workflow_version", "tenant_workflow_version_policy", "workspace_id"),
    ("project", "tenant_project_policy", "workspace_id"),
    ("milestone", "tenant_milestone_policy", "workspace_id"),
    ("issue", "tenant_issue_policy", "workspace_id"),
    ("activity", "tenant_activity_policy", "workspace_id"),
    ("outbox", "tenant_outbox_policy", "workspace_id"),
    ("idempotency_record", "tenant_idempotency_policy", "workspace_id")]

def enableRlsAndPolicies : Migration where
  name := "m20260415_000004_enable_rls_and_policies"
  up := tenantTables.map (fun p => .setRowSecurity p.1 true) ++
    tenantTables.map (fun p => .forceRowSecurity p.1 true) ++
    tenantTables.map (fun p => .createPolicy p.1 (tenantPolicy env p.2.1 p.2.2))
  down := tenantTables.reverse.map (fun p => .dropPolicy p.1 p.2.1) ++
    tenantTables.reverse.map (fun p => .forceRowSecurity p.1 false) ++
    tenantTables.reverse.map (fun p => .setRowSecurity p.1 false)

/-- `(abs(hashtext(id::text)) % 1024)::smallint`; `abs` of the least integer is out of range. -/
def backfilledBucket (row : Row) : Option (Option Cell) :=
  match row "id" with
  | none => some none
  | some id =>
      let hash := env.hashtext (id.text env.codec)
      if hash = Int32.minValue then none
      else some (some (.smallint (hash.toInt.natAbs % 1024 : ℕ)))

def listingFunction : String := "list_workspace_ids_for_partition_lease"

def listingArguments : List String := ["integer", "integer", "integer"]

/-- The configured role, when it is named and exists. -/
def grantedRole : Option String := env.appRole.filter (fun role => role ≠ "" && role ∈ env.roles)

def createWorkerPartitionLease : Migration where
  name := "m20260416_000005_create_worker_partition_lease"
  up := [.addColumn "workspace" (nullable "shard_bucket" "smallint"),
    .fill "workspace" "shard_bucket" (backfilledBucket env),
    .setNotNull "workspace" "shard_bucket",
    .addCheck "workspace" (bucketCheck "workspace_shard_bucket_range_check"),
    .createIndex "workspace" ⟨"idx_workspace_shard_bucket", ["shard_bucket", "id"]⟩,
    workerPartitionLease.create,
    .createIndex "worker_partition_lease"
      ⟨"idx_worker_partition_lease_owner_until", ["lease_owner", "leased_until"]⟩,
    .createIndex "worker_partition_lease" ⟨"idx_worker_partition_lease_until", ["leased_until"]⟩,
    .createIndex "worker_partition_lease"
      ⟨"idx_worker_partition_lease_bucket_until", ["shard_bucket", "leased_until"]⟩,
    .replaceFunction listingFunction listingArguments ["uuid", "smallint"],
    .revokeFromPublic listingFunction listingArguments] ++
    (grantedRole env).toList.map (fun role => .grantExecute listingFunction listingArguments role)
  down := [.dropFunction listingFunction listingArguments,
    .dropIndex "idx_worker_partition_lease_bucket_until",
    .dropIndex "idx_worker_partition_lease_until",
    .dropIndex "idx_worker_partition_lease_owner_until",
    .dropTable "worker_partition_lease",
    .dropIndex "idx_workspace_shard_bucket",
    .dropCheck "workspace" "workspace_shard_bucket_range_check",
    .dropColumn "workspace" "shard_bucket"]

def migrations : List Migration :=
  [createEnumsAndCoreTables env, createActivityOutboxAndIdempotency env, createIndexes,
    enableRlsAndPolicies env, createWorkerPartitionLease env]

end Scripts

def up (ms : List Migration) : List Sql := ms.flatMap Migration.up

/-- The last migration is taken back first. -/
def down (ms : List Migration) : List Sql := ms.reverse.flatMap Migration.down

end Dandori.Migrator
