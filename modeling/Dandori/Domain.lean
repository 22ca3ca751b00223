import Mathlib.Algebra.Group.Int.Defs
import Mathlib.Algebra.Group.Nat.Defs
import Mathlib.Algebra.GroupWithZero.Nat
import Mathlib.Order.Fin.Basic

/-!
# Domain types

Identifiers, aggregates, commands and events of the domain crate, with the validation of a command
and of an idempotency key. A UUID is its 128-bit value, so that the database order on `uuid` is the
order of `Uuid`; a timestamp counts microseconds, the resolution of `timestamptz`. Lengths checked
in Rust are lengths in UTF-8 bytes.
-/

namespace Dandori

abbrev Uuid := Fin (2 ^ 128)

instance Uuid.neZero : NeZero (2 ^ 128) := inferInstance

instance Uuid.lawfulBEq : LawfulBEq Uuid := inferInstance

abbrev Timestamp := Int

abbrev Duration := Int

def seconds (n : Int) : Duration := n * 1000000

def hours (n : Int) : Duration := seconds (n * 3600)

def days (n : Int) : Duration := hours (n * 24)

inductive IssueStateCategory
  | open
  | active
  | done
  | cancelled
  deriving DecidableEq, Repr

inductive IssuePriority
  | low
  | medium
  | high
  | urgent
  deriving DecidableEq, Repr

def IssueStateCategory.asStr : IssueStateCategory → String
  | .open => "open"
  | .active => "active"
  | .done => "done"
  | .cancelled => "cancelled"

def priorityAsStr : IssuePriority → String
  | .low => "low"
  | .medium => "medium"
  | .high => "high"
  | .urgent => "urgent"

inductive CommandName
  | issueCreateV1
  | workspaceCreateV1
  | projectCreateV1
  deriving DecidableEq, Repr

def CommandName.asStr : CommandName → String
  | .issueCreateV1 => "issue.create.v1"
  | .workspaceCreateV1 => "workspace.create.v1"
  | .projectCreateV1 => "project.create.v1"

inductive EventType
  | issueCreatedV1
  | projectCreatedV1
  | workspaceCreatedV1
  deriving DecidableEq, Repr

def EventType.asStr : EventType → String
  | .issueCreatedV1 => "issue.created.v1"
  | .projectCreatedV1 => "project.created.v1"
  | .workspaceCreatedV1 => "workspace.created.v1"

structure AuthContext where
  workspaceId : Uuid
  actorId : Uuid
  deriving DecidableEq

structure Issue where
  id : Uuid
  workspaceId : Uuid
  projectId : Uuid
  milestoneId : Option Uuid
  title : String
  description : Option String
  stateCategory : IssueStateCategory
  priority : IssuePriority
  archivedAt : Option Timestamp
  rowVersion : Int
  createdAt : Timestamp
  updatedAt : Timestamp
  deriving DecidableEq

structure Project where
  id : Uuid
  workspaceId : Uuid
  name : String
  workflowVersionId : Uuid
  rowVersion : Int
  createdAt : Timestamp
  updatedAt : Timestamp
  deriving DecidableEq

structure Workspace where
  id : Uuid
  name : String
  rowVersion : Int
  createdAt : Timestamp
  updatedAt : Timestamp
  deriving DecidableEq

/-- A coded message; the constructor names the kind of error. -/
inductive DomainError
  | validation (code message : String)
  | precondition (code message : String)
  | conflict (code message : String)
  | authz (code message : String)
  | tenantBoundary (code message : String)
  | infrastructure (code message : String)
  deriving DecidableEq

def AuthContext.enforceWorkspace (auth : AuthContext) (workspaceId : Uuid) :
    Except DomainError Unit :=
  if auth.workspaceId ≠ workspaceId then
    .error (.precondition "workspace_mismatch"
      "workspace in command does not match authenticated workspace")
  else .ok ()

/-- The characters with the Unicode property `White_Space`, which `str::trim` removes. -/
def isWhitespace (c : Char) : Bool :=
  (0x09 ≤ c.toNat && c.toNat ≤ 0x0d) || c.toNat == 0x20 || c.toNat == 0x85 || c.toNat == 0xa0 ||
    c.toNat == 0x1680 || (0x2000 ≤ c.toNat && c.toNat ≤ 0x200a) || c.toNat == 0x2028 ||
    c.toNat == 0x2029 || c.toNat == 0x202f || c.toNat == 0x205f || c.toNat == 0x3000

/-- `value.trim().is_empty()`. -/
def trimIsEmpty (value : String) : Bool := value.toList.all isWhitespace

namespace IdempotencyKey

def minLen : ℕ := 1

def maxLen : ℕ := 128

def isAsciiGraphic (c : Char) : Bool := 0x21 ≤ c.toNat && c.toNat ≤ 0x7e

def validate (value : String) : Except DomainError Unit :=
  if value.utf8ByteSize < minLen ∨ maxLen < value.utf8ByteSize then
    .error (.validation "idempotency_key_length"
      s!"idempotency_key length must be between {minLen} and {maxLen} bytes (got {value.utf8ByteSize})")
  else if value.toList.all (fun c => isAsciiGraphic c || c == ' ' || c == '-' || c == '_') then .ok ()
  else
    .error (.validation "idempotency_key_charset"
      "idempotency_key must only contain printable ASCII (graphic, space, dash, underscore)")

end IdempotencyKey

structure IdempotencyKey where
  value : String
  valid : IdempotencyKey.validate value = .ok ()
  deriving DecidableEq

def IdempotencyKey.new (value : String) : Except DomainError IdempotencyKey :=
  match h : IdempotencyKey.validate value with
  | .ok () => .ok ⟨value, h⟩
  | .error e => .error e

structure CreateIssueCommandV1 where
  commandId : Uuid
  idempotencyKey : IdempotencyKey
  requestFingerprint : String
  issueId : Uuid
  workspaceId : Uuid
  projectId : Uuid
  milestoneId : Option Uuid
  title : String
  description : Option String
  priority : IssuePriority
  actorId : Uuid

namespace CreateIssueCommandV1

def maxNameLength : ℕ := 200

def maxIdempotencyKeyLength : ℕ := 128

def maxRequestFingerprintLength : ℕ := 128

def maxIssueDescriptionLength : ℕ := 4000

def validate (command : CreateIssueCommandV1) : Except DomainError Unit :=
  if trimIsEmpty command.title then
    .error (.validation "title_required" "issue title must not be empty")
  else if maxNameLength < command.title.utf8ByteSize then
    .error (.validation "title_too_long" "issue title exceeds 200 characters")
  else if trimIsEmpty command.idempotencyKey.value then
    .error (.validation "idempotency_key_required" "idempotency key must not be empty")
  else if maxIdempotencyKeyLength < command.idempotencyKey.value.utf8ByteSize then
    .error (.validation "idempotency_key_too_long" "idempotency key exceeds 128 characters")
  else if trimIsEmpty command.requestFingerprint then
    .error (.validation "request_fingerprint_required" "request fingerprint must not be empty")
  else if maxRequestFingerprintLength < command.requestFingerprint.utf8ByteSize then
    .error (.validation "request_fingerprint_too_long" "request fingerprint exceeds 128 characters")
  else if command.description.any (fun d => maxIssueDescriptionLength < d.utf8ByteSize) then
    .error (.validation "description_too_long" "issue description exceeds 4000 characters")
  else .ok ()

def mapDuplicateConflict (command : CreateIssueCommandV1) : DomainError :=
  .conflict "duplicate_issue_command"
    s!"issue command with idempotency key '{command.idempotencyKey.value}' already exists with a different payload"

end CreateIssueCommandV1

structure CreateWorkspaceCommandV1 where
  commandId : Uuid
  workspaceId : Uuid
  name : String
  actorId : Uuid

structure CreateProjectCommandV1 where
  commandId : Uuid
  workspaceId : Uuid
  projectId : Uuid
  workflowVersionId : Uuid
  name : String
  actorId : Uuid

/-- The two name checks of a create command, with the texts of its errors. -/
def validateName (name requiredCode requiredMessage tooLongCode tooLongMessage : String) :
    Except DomainError Unit :=
  if trimIsEmpty name then .error (.validation requiredCode requiredMessage)
  else if CreateIssueCommandV1.maxNameLength < name.utf8ByteSize then
    .error (.validation tooLongCode tooLongMessage)
  else .ok ()

def CreateWorkspaceCommandV1.validate (command : CreateWorkspaceCommandV1) :
    Except DomainError Unit :=
  validateName command.name "workspace_name_required" "workspace name must not be empty"
    "workspace_name_too_long" "workspace name exceeds 200 characters"

def CreateProjectCommandV1.validate (command : CreateProjectCommandV1) : Except DomainError Unit :=
  validateName command.name "project_name_required" "project name must not be empty"
    "project_name_too_long" "project name exceeds 200 characters"

structure IssueCreatedEventV1 where
  eventId : Uuid
  issueId : Uuid
  workspaceId : Uuid
  projectId : Uuid
  milestoneId : Option Uuid
  actorId : Uuid
  occurredAt : Timestamp
  title : String
  description : Option String
  priority : IssuePriority
  deriving DecidableEq

end Dandori
