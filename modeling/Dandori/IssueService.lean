import Dandori.IssueRepository
import Dandori.Policy

/-!
# The issue service

`create_issue` authorizes the caller, fingerprints the request, validates the key and the command,
builds the event from the command and runs the store's transaction. Errors are translated into coded
ones whose internal details do not reach the client.
-/

namespace Dandori

open IssueRepository

inductive ErrorKind
  | validation
  | precondition
  | conflict
  | notFound
  | authz
  | tenantBoundary
  | infrastructure
  deriving DecidableEq

structure AppServiceError where
  code : String
  message : String
  kind : ErrorKind
  deriving DecidableEq

def internalErrorPublicMessage : String := "an internal error occurred"

/-- The cause goes to the private log only. -/
def AppServiceError.internal (code : String) : AppServiceError :=
  ⟨code, internalErrorPublicMessage, .infrastructure⟩

inductive IssuePriorityDto
  | low
  | medium
  | high
  | urgent
  deriving DecidableEq

inductive IssueStateCategoryDto
  | open
  | active
  | done
  | cancelled
  deriving DecidableEq

structure IssueDto where
  id : Uuid
  workspaceId : Uuid
  projectId : Uuid
  milestoneId : Option Uuid
  title : String
  description : Option String
  stateCategory : IssueStateCategoryDto
  priority : IssuePriorityDto
  archivedAt : Option Timestamp
  rowVersion : Int
  createdAt : Timestamp
  updatedAt : Timestamp
  deriving DecidableEq

structure CreateIssueRequest where
  idempotencyKey : String
  projectId : Uuid
  milestoneId : Option Uuid
  title : String
  description : Option String
  priority : IssuePriorityDto

structure CreateIssueResponse where
  issue : IssueDto
  idempotentReplay : Bool
  deriving DecidableEq

structure GetIssueResponse where
  issue : IssueDto
  deriving DecidableEq

def mapPriorityFromDto : IssuePriorityDto → IssuePriority
  | .low => .low
  | .medium => .medium
  | .high => .high
  | .urgent => .urgent

def mapPriorityToDto : IssuePriority → IssuePriorityDto
  | .low => .low
  | .medium => .medium
  | .high => .high
  | .urgent => .urgent

def mapStateToDto : IssueStateCategory → IssueStateCategoryDto
  | .open => .open
  | .active => .active
  | .done => .done
  | .cancelled => .cancelled

def mapIssueToDto (issue : Issue) : IssueDto where
  id := issue.id
  workspaceId := issue.workspaceId
  projectId := issue.projectId
  milestoneId := issue.milestoneId
  title := issue.title
  description := issue.description
  stateCategory := mapStateToDto issue.stateCategory
  priority := mapPriorityToDto issue.priority
  archivedAt := issue.archivedAt
  rowVersion := issue.rowVersion
  createdAt := issue.createdAt
  updatedAt := issue.updatedAt

def priorityLiteral : IssuePriorityDto → String
  | .low => "low"
  | .medium => "medium"
  | .high => "high"
  | .urgent => "urgent"

def fingerprintPayload (codec : Codec) (request : CreateIssueRequest) : Value :=
  .object [("schema", .string "issue.create.fingerprint.v2"),
    ("project_id", codec.uuid request.projectId),
    ("milestone_id", .ofOption codec.uuid request.milestoneId), ("title", .string request.title),
    ("description", .ofOption .string request.description),
    ("priority", .string (priorityLiteral request.priority))]

/-- The fields that make up the payload; the idempotency key is not one of them. -/
structure CreateIssueRequest.SamePayload (r₁ r₂ : CreateIssueRequest) : Prop where
  projectId : r₁.projectId = r₂.projectId
  milestoneId : r₁.milestoneId = r₂.milestoneId
  title : r₁.title = r₂.title
  description : r₁.description = r₂.description
  priority : r₁.priority = r₂.priority

theorem priorityLiteral_injective {p q : IssuePriorityDto} (h : priorityLiteral p = priorityLiteral q) :
    p = q := by
  cases p <;> cases q <;> first | rfl | simp [priorityLiteral] at h

theorem fingerprintPayload_eq_iff (codec : Codec) {r₁ r₂ : CreateIssueRequest} :
    fingerprintPayload codec r₁ = fingerprintPayload codec r₂ ↔ r₁.SamePayload r₂ := by
  constructor
  · intro h
    simp only [fingerprintPayload, Value.object.injEq, List.cons.injEq, Prod.mk.injEq, true_and,
      and_true] at h
    obtain ⟨hproject, hmilestone, htitle, hdescription, hpriority⟩ := h
    have hmilestones := Value.ofOption_injective codec.uuid_injective (fun u => by simp [Codec.uuid])
    have hstring : Function.Injective Value.string := fun _ _ => Value.string.inj
    have hdescriptions := Value.ofOption_injective hstring (fun s => by simp)
    exact ⟨codec.uuid_injective hproject, hmilestones hmilestone, Value.string.inj htitle,
      hdescriptions hdescription, priorityLiteral_injective (Value.string.inj hpriority)⟩
  · intro h
    simp only [fingerprintPayload, h.projectId, h.milestoneId, h.title, h.description, h.priority]

def createIssueFingerprint (codec : Codec) (request : CreateIssueRequest) : String :=
  "v2:" ++ codec.digestHex (fingerprintPayload codec request)

def mapMissingProjectPrecondition (codec : Codec) (command : CreateIssueCommandV1) : DomainError :=
  .precondition "project_not_found" s!"project '{codec.uuidText command.projectId}' not found in workspace"

namespace IssueAppService

/-- Identifiers and clock readings generated while a request is served. -/
structure Generated where
  commandId : Uuid
  issueId : Uuid
  eventId : Uuid
  occurredAt : Timestamp
  store : IssueRepository.Generated

def mapDomainError : DomainError → AppServiceError
  | .validation code message => ⟨code, message, .validation⟩
  | .precondition code message => ⟨code, message, .precondition⟩
  | .conflict code message => ⟨code, message, .conflict⟩
  | .authz code message => ⟨code, message, .authz⟩
  | .tenantBoundary code message => ⟨code, message, .tenantBoundary⟩
  | .infrastructure code _ => .internal code

section CreateIssue

variable (codec : Codec) (policy : PolicyEngine)

def mapStoreError (error : StoreError) (command : CreateIssueCommandV1) : AppServiceError :=
  match error with
  | .projectNotFound => mapDomainError (mapMissingProjectPrecondition codec command)
  | .milestoneNotFound =>
      ⟨"milestone_not_found", "milestone not found in workspace", .precondition⟩
  | .milestoneProjectMismatch =>
      ⟨"milestone_project_mismatch", "milestone does not belong to the requested project",
        .precondition⟩
  | .idempotencyConflict => mapDomainError command.mapDuplicateConflict
  | .domain e => mapDomainError e
  | _ => .internal "store_write_failed"

def subjectFromAuth (auth : AuthContext) : Subject :=
  ⟨auth.actorId, auth.workspaceId, [.owner, .member]⟩

def enforcePolicy (auth : AuthContext) (action : Action) (resource : Resource) :
    Except AppServiceError Unit :=
  match policy.evaluate (some (subjectFromAuth auth)) action resource with
  | .allow => .ok ()
  | .deny reason => .error ⟨reason.code, reason.message, .authz⟩

def eventOfCommand (command : CreateIssueCommandV1) (generated : Generated) :
    IssueCreatedEventV1 where
  eventId := generated.eventId
  issueId := command.issueId
  workspaceId := command.workspaceId
  projectId := command.projectId
  milestoneId := command.milestoneId
  actorId := command.actorId
  occurredAt := generated.occurredAt
  title := command.title
  description := command.description
  priority := command.priority

def commandOfRequest (auth : AuthContext) (request : CreateIssueRequest) (generated : Generated)
    (idempotencyKey : IdempotencyKey) : CreateIssueCommandV1 where
  commandId := generated.commandId
  idempotencyKey := idempotencyKey
  requestFingerprint := createIssueFingerprint codec request
  issueId := generated.issueId
  workspaceId := auth.workspaceId
  projectId := request.projectId
  milestoneId := request.milestoneId
  title := request.title
  description := request.description
  priority := mapPriorityFromDto request.priority
  actorId := auth.actorId

/-- Everything before the store call: the call to make, or the error that ends the request. -/
def prepare (auth : AuthContext) (request : CreateIssueRequest) (generated : Generated) :
    Except AppServiceError CreateIssueCall :=
  match enforcePolicy policy auth .issueCreate (.workspace auth.workspaceId) with
  | .error e => .error e
  | .ok () =>
      match IdempotencyKey.new request.idempotencyKey with
      | .error e => .error (mapDomainError e)
      | .ok idempotencyKey =>
          let command := commandOfRequest codec auth request generated idempotencyKey
          match command.validate with
          | .error e => .error (mapDomainError e)
          | .ok () =>
              match auth.enforceWorkspace command.workspaceId with
              | .error e => .error (mapDomainError e)
              | .ok () => .ok ⟨auth, command, eventOfCommand command generated, generated.store⟩

def createIssue (auth : AuthContext) (request : CreateIssueRequest) (generated : Generated)
    (env : Env) (db : Db) : Except AppServiceError CreateIssueResponse × Db :=
  match prepare codec policy auth request generated with
  | .error e => (.error e, db)
  | .ok call =>
      match createIssueTransactional codec call env db with
      | (.error e, db') => (.error (mapStoreError codec e call.command), db')
      | (.ok result, db') => (.ok ⟨mapIssueToDto result.issue, result.idempotentReplay⟩, db')

def mapStoreErrorRead : StoreError → AppServiceError
  | .domain e => mapDomainError e
  | _ => .internal "store_read_failed"

def issueNotFound (issueId : Uuid) : AppServiceError :=
  ⟨"issue_not_found", s!"issue '{codec.uuidText issueId}' was not found", .notFound⟩

def getIssue (auth : AuthContext) (issueId : Uuid) (env : Env) (db : Db) :
    Except AppServiceError GetIssueResponse × Db :=
  match enforcePolicy policy auth .issueRead (.issue auth.workspaceId issueId) with
  | .error e => (.error e, db)
  | .ok () =>
      match IssueRepository.getIssue codec auth issueId env db with
      | (.error e, db') => (.error (mapStoreErrorRead e), db')
      | (.ok none, db') => (.error (issueNotFound codec issueId), db')
      | (.ok (some issue), db') => (.ok ⟨mapIssueToDto issue⟩, db')

end CreateIssue

variable {codec : Codec} {policy : PolicyEngine} {auth : AuthContext} {request : CreateIssueRequest}
  {generated : Generated} {call : CreateIssueCall}

/-- The event of a request repeats its command. -/
theorem event_of_prepare (h : prepare codec policy auth request generated = .ok call) :
    call.event = eventOfCommand call.command generated := by
  unfold prepare at h
  split at h
  · cases h
  · split at h
    · cases h
    · dsimp only at h
      split at h
      · cases h
      · split at h
        · cases h
        · cases h
          rfl

/-- A request changes the database as the transaction it prepares does, or not at all. -/
theorem createIssue_db (codec : Codec) (policy : PolicyEngine) (auth : AuthContext)
    (request : CreateIssueRequest) (generated : Generated) (env : Env) (db : Db) :
    (createIssue codec policy auth request generated env db).2 = db ∨
    ∃ call, prepare codec policy auth request generated = .ok call ∧
      (createIssue codec policy auth request generated env db).2 =
        (createIssueTransactional codec call env db).2 := by
  unfold createIssue
  cases h : prepare codec policy auth request generated with
  | error e => exact Or.inl rfl
  | ok call =>
      refine Or.inr ⟨call, rfl, ?_⟩
      simp only
      cases createIssueTransactional codec call env db with
      | mk result db' => cases result <;> rfl

end IssueAppService
end Dandori
