import Dandori.Session

/-!
# Workspaces and projects

The calls of the ORM-backed repositories. Columns without a value in the INSERT get the defaults of
the table; `now` is the transaction timestamp that `now()` returns.
-/

namespace Dandori.WorkspaceRepository

structure WorkspaceWriteInput where
  workspaceId : Uuid
  name : String

structure ProjectWriteInput where
  projectId : Uuid
  workspaceId : Uuid
  name : String
  workflowVersionId : Uuid

/-- The trailing 16 bits of the id, modulo the number of buckets. -/
def shardBucketFor (id : Uuid) : Fin 1024 :=
  let tail := id.val % 65536
  ⟨tail % 1024, Nat.mod_lt _ (by decide)⟩

def workspaceRow (input : WorkspaceWriteInput) (now : Timestamp) : WorkspaceRow where
  id := input.workspaceId
  name := input.name
  shardBucket := shardBucketFor input.workspaceId
  rowVersion := 0
  createdAt := now
  updatedAt := now

def projectRow (input : ProjectWriteInput) (now : Timestamp) : ProjectRow where
  id := input.projectId
  workspaceId := input.workspaceId
  name := input.name
  workflowVersionId := input.workflowVersionId
  rowVersion := 0
  createdAt := now
  updatedAt := now

def mapWorkspaceModel (model : WorkspaceRow) : Workspace where
  id := model.id
  name := model.name
  rowVersion := model.rowVersion
  createdAt := model.createdAt
  updatedAt := model.updatedAt

def mapProjectModel (model : ProjectRow) : Project where
  id := model.id
  workspaceId := model.workspaceId
  name := model.name
  workflowVersionId := model.workflowVersionId
  rowVersion := model.rowVersion
  createdAt := model.createdAt
  updatedAt := model.updatedAt

section Calls

variable (codec : Codec) (auth : AuthContext)

def createWorkspace (input : WorkspaceWriteInput) (now : Timestamp) (env : Env) (db : Db) :
    Except StoreError Workspace × Db :=
  transaction .seaOrm env (do
    setWorkspaceContext .seaOrm codec auth.workspaceId
    let model ← TenantTable.workspace.insert codec .seaOrm (workspaceRow input now)
    return mapWorkspaceModel model) db

def getWorkspace (workspaceId : Uuid) (env : Env) (db : Db) :
    Except StoreError (Option Workspace) × Db :=
  transaction .seaOrm env (do
    setWorkspaceContext .seaOrm codec auth.workspaceId
    let rows ← TenantTable.workspace.select codec .seaOrm (fun r => r.id = workspaceId)
    return rows.head?.map mapWorkspaceModel) db

def createProject (input : ProjectWriteInput) (now : Timestamp) (env : Env) (db : Db) :
    Except StoreError Project × Db :=
  transaction .seaOrm env (do
    setWorkspaceContext .seaOrm codec auth.workspaceId
    let versions ← TenantTable.workflowVersion.select codec .seaOrm (fun r =>
      r.workspaceId = input.workspaceId && r.id = input.workflowVersionId)
    if versions.isEmpty then throw .workflowVersionNotFound
    else do
      let model ← TenantTable.project.insert codec .seaOrm (projectRow input now)
      return mapProjectModel model) db

def getProject (projectId : Uuid) (env : Env) (db : Db) : Except StoreError (Option Project) × Db :=
  transaction .seaOrm env (do
    setWorkspaceContext .seaOrm codec auth.workspaceId
    let rows ← TenantTable.project.select codec .seaOrm (fun r => r.id = projectId)
    return rows.head?.map mapProjectModel) db

end Calls
end Dandori.WorkspaceRepository
