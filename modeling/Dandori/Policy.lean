import Dandori.Domain

/-!
# Authorization policy

The policy engine decides about a subject, an action and a resource; the engine wired by default
compares workspaces first and then looks the roles of the subject up in a matrix.
-/

namespace Dandori

inductive Role
  | owner
  | member
  | viewer
  | worker
  deriving DecidableEq

inductive Action
  | workspaceRead
  | issueCreate
  | issueRead
  | issueUpdate
  | projectRead
  deriving DecidableEq

inductive Resource
  | workspace (workspaceId : Uuid)
  | project (workspaceId projectId : Uuid)
  | issue (workspaceId issueId : Uuid)
  deriving DecidableEq

def Resource.workspaceId : Resource → Uuid
  | .workspace workspaceId => workspaceId
  | .project workspaceId _ => workspaceId
  | .issue workspaceId _ => workspaceId

structure Subject where
  actorId : Uuid
  workspaceId : Uuid
  roles : List Role

inductive DenyReason
  | missingRole
  | crossTenant
  | missingSubject
  deriving DecidableEq

def DenyReason.code : DenyReason → String
  | .missingRole => "authz_missing_role"
  | .crossTenant => "authz_cross_tenant"
  | .missingSubject => "authz_missing_subject"

def DenyReason.message : DenyReason → String
  | .missingRole => "subject does not have a role granting this action"
  | .crossTenant => "subject's workspace does not match the resource workspace"
  | .missingSubject => "no subject was provided for this action"

inductive PolicyDecision
  | allow
  | deny (reason : DenyReason)
  deriving DecidableEq

structure PolicyEngine where
  evaluate : Option Subject → Action → Resource → PolicyDecision

namespace RoleMatrixPolicy

def standardMatrix : Action → List Role
  | .workspaceRead => [.owner, .member, .viewer]
  | .issueCreate => [.owner, .member]
  | .issueRead => [.owner, .member, .viewer]
  | .issueUpdate => [.owner, .member]
  | .projectRead => [.owner, .member, .viewer]

def standard : PolicyEngine where
  evaluate subject action resource :=
    match subject with
    | none => .deny .missingSubject
    | some subject =>
        if subject.workspaceId ≠ resource.workspaceId then .deny .crossTenant
        else if subject.roles.any (· ∈ standardMatrix action) then .allow
        else .deny .missingRole

end RoleMatrixPolicy
end Dandori
