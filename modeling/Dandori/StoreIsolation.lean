import Dandori.IdempotentCreate
import Dandori.RowSecurity
import Dandori.WorkspaceRepository

/-!
# Tenants do not interfere through the store

Every store call sets its tenant for the transaction and then works under row-level security, so its
answer and the tenant's rows after it depend on the tenant's rows alone, and the rows of the others
stay as they are. A pooled connection keeps its session value across the transactions of different
tenants; no call reads it.
-/

namespace Dandori

open IssueRepository OutboxRepository WorkspaceRepository

/-! ## Transactions of one tenant -/

section Transaction

variable {codec : Codec} {tenant : Uuid} {wrap : DbError → StoreError} {α : Type}

/-- A round trip without an effect on the database. -/
theorem mirrored_roundTrip {P : TxState → Prop} (hP : ∀ s, P s → P (s.next s.db)) :
    Tx.Mirrored P P (TxState.ownView tenant) (statement wrap (fun s => .ok ((), s.db))) := by
  intro s hs
  have hfails : (s.ownView tenant).fails = s.fails := rfl
  unfold statement
  rw [hfails]
  cases s.fails with
  | true => rfl
  | false => exact ⟨hP s hs, rfl⟩

theorem mirrored_setWorkspaceContext {others : Db} :
    Tx.Mirrored (fun s => s.db.others tenant = others) (Scoped codec tenant others)
      (TxState.ownView tenant) (setWorkspaceContext wrap codec tenant) := by
  refine Tx.Mirrored.bind (mirrored_roundTrip (fun _ hs => hs)) (fun _ s hs => ?_)
  exact ⟨⟨rfl, hs⟩, rfl⟩

/-- A transaction of a tenant gives the answer it gives on the tenant's own rows, leaves these rows
as it leaves them there, and keeps the rows of the others. -/
theorem transaction_isolated {rest : Tx α} {env : Env} {db : Db}
    (hrest : Isolated codec tenant (db.others tenant) rest) :
    transaction wrap ⟨none, env.faults⟩ (do setWorkspaceContext wrap codec tenant; rest)
        (db.own tenant) =
      Prod.map id (Db.own tenant)
        (transaction wrap env (do setWorkspaceContext wrap codec tenant; rest) db) ∧
    (transaction wrap env (do setWorkspaceContext wrap codec tenant; rest) db).2.others tenant =
      db.others tenant := by
  have hall : Tx.Mirrored (fun s => s.db.others tenant = db.others tenant)
      (Scoped codec tenant (db.others tenant)) (TxState.ownView tenant)
      (inTransaction wrap (do setWorkspaceContext wrap codec tenant; rest)) := by
    refine Tx.Mirrored.bind (mirrored_roundTrip (fun _ hs => hs)) (fun _ => ?_)
    refine Tx.Mirrored.bind (Tx.Mirrored.bind mirrored_setWorkspaceContext (fun _ => hrest))
      (fun a => ?_)
    exact Tx.Mirrored.bind (mirrored_roundTrip (fun _ hs => ⟨hs.setting, hs.others⟩))
      (fun _ => Isolated.pure a)
  have hrun := hall ⟨db, env.session, none, env.faults⟩ rfl
  unfold transaction Tx.atomically
  cases h : inTransaction wrap (do setWorkspaceContext wrap codec tenant; rest)
      ⟨db, env.session, none, env.faults⟩ with
  | error e =>
      rw [h] at hrun
      have hview : inTransaction wrap (do setWorkspaceContext wrap codec tenant; rest)
          ⟨db.own tenant, none, none, env.faults⟩ = .error e := hrun
      rw [hview]
      exact ⟨rfl, rfl⟩
  | ok p =>
      rw [h] at hrun
      have hview : inTransaction wrap (do setWorkspaceContext wrap codec tenant; rest)
          ⟨db.own tenant, none, none, env.faults⟩ = .ok (p.1, p.2.ownView tenant) := hrun.2
      rw [hview]
      exact ⟨rfl, hrun.1.others⟩

end Transaction

/-! ## The bodies of the calls -/

section Bodies

variable {codec : Codec} {tenant : Uuid} {others : Db} {call : CreateIssueCall}

theorem isolated_reserveIdempotency : Isolated codec tenant others (reserveIdempotency codec call) := by
  refine Tx.Mirrored.bind (TenantTable.isolated_upsert (fun x hx => ?_) (fun _ => rfl))
    (fun _ => Isolated.pure _)
  exact (idempotencyRow_key_iff.mp hx).1

theorem isolated_ensureProjectExists :
    Isolated codec tenant others (ensureProjectExists codec call) := by
  refine Tx.Mirrored.bind TenantTable.isolated_select (fun rows => ?_)
  cases rows.isEmpty with
  | true => exact Tx.Mirrored.throw _
  | false => exact Isolated.pure ()

theorem isolated_ensureMilestoneBelongsToProject :
    Isolated codec tenant others (ensureMilestoneBelongsToProject codec call) := by
  unfold ensureMilestoneBelongsToProject
  cases call.command.milestoneId with
  | none => exact Isolated.pure ()
  | some milestoneId =>
      refine Tx.Mirrored.bind TenantTable.isolated_select (fun rows => ?_)
      cases rows.head? with
      | none => exact Tx.Mirrored.throw _
      | some row =>
          by_cases hproject : row.projectId ≠ call.command.projectId
          · simp only [if_pos hproject]
            exact Tx.Mirrored.throw _
          · simp only [if_neg hproject]
            exact Isolated.pure ()

theorem isolated_insertIssueReturning (hfresh : TenantTable.issue.FreshIn others (issueRow call)) :
    Isolated codec tenant others (insertIssueReturning codec call) := by
  refine Tx.Mirrored.bind (TenantTable.isolated_insert hfresh) (fun row => ?_)
  rw [mapIssueRow_eq]
  exact Isolated.pure _

/-- No other tenant uses the ids that a create inserts. -/
structure FreshIssue (codec : Codec) (call : CreateIssueCall) (others : Db) : Prop where
  issue : TenantTable.issue.FreshIn others (issueRow call)
  activity : TenantTable.activity.FreshIn others (activityRow codec call)
  outbox : TenantTable.outbox.FreshIn others (outboxRow codec call)

theorem isolated_writeIssue (hfresh : FreshIssue codec call others) :
    Isolated codec tenant others (writeIssue codec call) := by
  refine Tx.Mirrored.bind isolated_ensureProjectExists (fun _ => ?_)
  refine Tx.Mirrored.bind isolated_ensureMilestoneBelongsToProject (fun _ => ?_)
  refine Tx.Mirrored.bind (isolated_insertIssueReturning hfresh.issue) (fun issue => ?_)
  refine Tx.Mirrored.bind (Tx.Mirrored.bind (TenantTable.isolated_insert hfresh.activity)
    (fun _ => Isolated.pure ())) (fun _ => ?_)
  refine Tx.Mirrored.bind (Tx.Mirrored.bind (TenantTable.isolated_insert hfresh.outbox)
    (fun _ => Isolated.pure ())) (fun _ => ?_)
  refine Tx.Mirrored.bind (Tx.Mirrored.bind TenantTable.isolated_update
    (fun _ => Isolated.pure ())) (fun _ => ?_)
  exact Isolated.pure issue

theorem isolated_createIssue (hfresh : FreshIssue codec call others) :
    Isolated codec tenant others (do
      let reservation ← reserveIdempotency codec call
      if reservation.inserted then
        let issue ← writeIssue codec call
        return (.inl issue : Issue ⊕ IdempotencyReservation)
      else
        return .inr reservation) := by
  refine Tx.Mirrored.bind isolated_reserveIdempotency (fun reservation => ?_)
  cases reservation.inserted with
  | true => exact Tx.Mirrored.bind (isolated_writeIssue hfresh) (fun issue => Isolated.pure _)
  | false => exact Isolated.pure _

theorem isolated_fetchIssueInTx (issueId : Uuid) :
    Isolated codec tenant others (fetchIssueInTx codec issueId) := by
  refine Tx.Mirrored.bind TenantTable.isolated_select (fun rows => ?_)
  cases rows.head? with
  | none => exact Isolated.pure none
  | some row =>
      simp only [Option.map_some, mapIssueRow_eq]
      exact Isolated.pure _

theorem isolated_leaseRows (call : LeaseCall) :
    Isolated codec tenant others (leaseRows codec call) := by
  refine isolated_statement (frames_statement (fun s rows db hs h => ?_)) (fun s hs => ?_)
  · split_ifs at h
    exact TenantTable.updateRows_others hs h
  · have hrows : (s.ownView tenant).db.outbox.rows.filter
        (TenantTable.outbox.visible codec (s.ownView tenant)) =
        s.db.outbox.rows.filter (TenantTable.outbox.visible codec s) := by
      have hown := TenantTable.own_rows_filter_selected (T := TenantTable.outbox)
        (p := fun _ => true) hs.setting
      have hall : TenantTable.outbox.selected codec (fun _ => true) s =
          TenantTable.outbox.visible codec s := funext (fun _ => Bool.and_true _)
      rw [hall] at hown
      rw [TenantTable.visible_ownView hs.setting]
      exact hown
    rw [hrows]
    by_cases hneg : call.maxItems < 0
    · simp only [if_pos hneg]
      rfl
    · simp only [if_neg hneg]
      exact TenantTable.updateRows_ownView hs.setting

theorem isolated_mark (mark : LeaseTransition) : Isolated codec tenant others (do
    let lease ← fetchLeaseForUpdate codec mark.auth.workspaceId mark.outboxId
    match lease with
    | none => throw (.outboxLeaseMissing mark.auth.workspaceId mark.outboxId)
    | some lease =>
        if mark.leaseOwner ≠ mark.auth.actorId then
          throw (.outboxLeaseOwnerMismatch mark.auth.workspaceId mark.outboxId mark.auth.actorId
            mark.leaseOwner)
        else match mark.validate lease with
          | .error e => throw e
          | .ok () => do
              let rows ← TenantTable.outbox.update codec .sqlx mark.guard (mark.update lease)
              if rows.length ≠ 1 then
                throw (.outboxUpdateNotSingleRow mark.auth.workspaceId mark.outboxId rows.length)
              else return ()) := by
  refine Tx.Mirrored.bind (Tx.Mirrored.bind TenantTable.isolated_select (fun _ => Isolated.pure _))
    (fun lease => ?_)
  cases lease with
  | none => exact Tx.Mirrored.throw _
  | some lease =>
      by_cases howner : mark.leaseOwner ≠ mark.auth.actorId
      · simp only [if_pos howner]
        exact Tx.Mirrored.throw _
      · simp only [if_neg howner]
        cases mark.validate lease with
        | error e => exact Tx.Mirrored.throw e
        | ok _ =>
            refine Tx.Mirrored.bind TenantTable.isolated_update (fun rows => ?_)
            by_cases hone : rows.length ≠ 1
            · simp only [if_pos hone]
              exact Tx.Mirrored.throw _
            · simp only [if_neg hone]
              exact Isolated.pure ()

theorem isolated_createProject {input : ProjectWriteInput} {now : Timestamp}
    (hfresh : TenantTable.project.FreshIn others (projectRow input now)) :
    Isolated codec tenant others (do
      let versions ← TenantTable.workflowVersion.select codec .seaOrm (fun r =>
        r.workspaceId = input.workspaceId && r.id = input.workflowVersionId)
      if versions.isEmpty then throw .workflowVersionNotFound
      else do
        let model ← TenantTable.project.insert codec .seaOrm (projectRow input now)
        return mapProjectModel model) := by
  refine Tx.Mirrored.bind TenantTable.isolated_select (fun versions => ?_)
  cases versions.isEmpty with
  | true => exact Tx.Mirrored.throw _
  | false => exact Tx.Mirrored.bind (TenantTable.isolated_insert hfresh) (fun _ => Isolated.pure _)

end Bodies

/-! ## The calls of the store -/

/-- A call with its arguments, generated ids and clock readings. -/
inductive StoreOperation
  | createIssueTransactional (call : CreateIssueCall)
  | getIssue (auth : AuthContext) (issueId : Uuid)
  | createProject (auth : AuthContext) (input : ProjectWriteInput) (now : Timestamp)
  | getProject (auth : AuthContext) (projectId : Uuid)
  | createWorkspace (auth : AuthContext) (input : WorkspaceWriteInput) (now : Timestamp)
  | getWorkspace (auth : AuthContext) (workspaceId : Uuid)
  | leaseOutboxBatch (call : LeaseCall)
  | markOutboxDelivered (auth : AuthContext) (outboxId leaseToken leaseOwner : Uuid)
      (now : Timestamp)
  | markOutboxFailed (auth : AuthContext) (outboxId : Uuid) (failure : OutboxFailureContext)
  | cleanupOutbox (auth : AuthContext) (deliveredBefore deadLetterBefore : Timestamp)
  | cleanupIdempotency (auth : AuthContext) (expiresBefore : Timestamp)

inductive StoreAnswer
  | written (result : Except StoreError CreateIssueWriteResult)
  | issue (result : Except StoreError (Option Issue))
  | createdProject (result : Except StoreError Project)
  | project (result : Except StoreError (Option Project))
  | createdWorkspace (result : Except StoreError Workspace)
  | workspace (result : Except StoreError (Option Workspace))
  | batch (result : Except StoreError (List OutboxMessage))
  | marked (result : Except StoreError Unit)
  | deleted (result : Except StoreError ℕ)

namespace StoreOperation

def run (codec : Codec) (env : Env) (db : Db) : StoreOperation → StoreAnswer × Db
  | createIssueTransactional call =>
      Prod.map .written id (IssueRepository.createIssueTransactional codec call env db)
  | getIssue auth issueId => Prod.map .issue id (IssueRepository.getIssue codec auth issueId env db)
  | createProject auth input now =>
      Prod.map .createdProject id (WorkspaceRepository.createProject codec auth input now env db)
  | getProject auth projectId =>
      Prod.map .project id (WorkspaceRepository.getProject codec auth projectId env db)
  | createWorkspace auth input now =>
      Prod.map .createdWorkspace id (WorkspaceRepository.createWorkspace codec auth input now env db)
  | getWorkspace auth workspaceId =>
      Prod.map .workspace id (WorkspaceRepository.getWorkspace codec auth workspaceId env db)
  | leaseOutboxBatch call =>
      Prod.map .batch id (OutboxRepository.leaseOutboxBatch codec call env db)
  | markOutboxDelivered auth outboxId leaseToken leaseOwner now =>
      Prod.map .marked id
        (OutboxRepository.markOutboxDelivered codec auth outboxId leaseToken leaseOwner now env db)
  | markOutboxFailed auth outboxId failure =>
      Prod.map .marked id (OutboxRepository.markOutboxFailed codec auth outboxId failure env db)
  | cleanupOutbox auth deliveredBefore deadLetterBefore =>
      Prod.map .deleted id
        (OutboxRepository.cleanupOutbox codec auth deliveredBefore deadLetterBefore env db)
  | cleanupIdempotency auth expiresBefore =>
      Prod.map .deleted id (OutboxRepository.cleanupIdempotency codec auth expiresBefore env db)

/-- The workspace of the `AuthContext`. -/
def tenant : StoreOperation → Uuid
  | createIssueTransactional call => call.auth.workspaceId
  | leaseOutboxBatch call => call.auth.workspaceId
  | getIssue auth _ | createProject auth _ _ | getProject auth _ | createWorkspace auth _ _
  | getWorkspace auth _ | markOutboxDelivered auth _ _ _ _ | markOutboxFailed auth _ _
  | cleanupOutbox auth _ _ | cleanupIdempotency auth _ => auth.workspaceId

/-- No row of `others` has a primary key or an event id that the call inserts. -/
def FreshIn (codec : Codec) (others : Db) : StoreOperation → Prop
  | createIssueTransactional call => FreshIssue codec call others
  | createProject _ input now => TenantTable.project.FreshIn others (projectRow input now)
  | createWorkspace _ input now => TenantTable.workspace.FreshIn others (workspaceRow input now)
  | _ => True

/-- What a call gives on the whole database against what it gives on the rows of its tenant. -/
def IsolatedAt (codec : Codec) (env : Env) (db : Db) (op : StoreOperation) : Prop :=
  op.run codec ⟨none, env.faults⟩ (db.own op.tenant) =
      Prod.map id (Db.own op.tenant) (op.run codec env db) ∧
    (op.run codec env db).2.others op.tenant = db.others op.tenant

variable {codec : Codec} {env : Env} {db : Db}

/-- A call whose transaction is isolated is isolated, whatever it makes of the result. -/
theorem isolatedAt_map {α : Type} {answer : Except StoreError α → StoreAnswer} {tenant : Uuid}
    {onOwn onAll : Except StoreError α × Db}
    (h : onOwn = Prod.map id (Db.own tenant) onAll ∧ onAll.2.others tenant = db.others tenant) :
    Prod.map answer id onOwn = Prod.map id (Db.own tenant) (Prod.map answer id onAll) ∧
      (Prod.map answer id onAll).2.others tenant = db.others tenant := by
  obtain ⟨rfl, hothers⟩ := h
  exact ⟨rfl, hothers⟩

theorem isolatedAt_createIssue {call : CreateIssueCall}
    (hfresh : FreshIssue codec call (db.others call.auth.workspaceId)) :
    IssueRepository.createIssueTransactional codec call ⟨none, env.faults⟩
        (db.own call.auth.workspaceId) =
      Prod.map id (Db.own call.auth.workspaceId)
        (IssueRepository.createIssueTransactional codec call env db) ∧
    (IssueRepository.createIssueTransactional codec call env db).2.others call.auth.workspaceId =
      db.others call.auth.workspaceId := by
  set tenant := call.auth.workspaceId
  have hown : transaction .sqlx ⟨none, env.faults⟩ (createIssueTx codec call) (db.own tenant) =
      Prod.map id (Db.own tenant) (transaction .sqlx env (createIssueTx codec call) db) :=
    (transaction_isolated (isolated_createIssue hfresh)).1
  have hothers : (transaction .sqlx env (createIssueTx codec call) db).2.others tenant =
      db.others tenant := (transaction_isolated (isolated_createIssue hfresh)).2
  unfold IssueRepository.createIssueTransactional
  rw [hown]
  generalize transaction .sqlx env (createIssueTx codec call) db = p at hothers ⊢
  obtain ⟨result, db'⟩ := p
  cases result with
  | error e => exact ⟨rfl, hothers⟩
  | ok out =>
      cases out with
      | inl issue => exact ⟨rfl, hothers⟩
      | inr reservation => exact ⟨rfl, hothers⟩

/-- Every store call is isolated, given that no other tenant uses the ids it inserts. -/
theorem isolatedAt_of_fresh (op : StoreOperation) (hfresh : op.FreshIn codec (db.others op.tenant)) :
    op.IsolatedAt codec env db := by
  cases op with
  | createIssueTransactional call => exact isolatedAt_map (isolatedAt_createIssue hfresh)
  | getIssue auth issueId =>
      exact isolatedAt_map (transaction_isolated (isolated_fetchIssueInTx issueId))
  | createProject auth input now =>
      exact isolatedAt_map (transaction_isolated (isolated_createProject hfresh))
  | getProject auth projectId =>
      exact isolatedAt_map (transaction_isolated
        (Tx.Mirrored.bind TenantTable.isolated_select (fun _ => Isolated.pure _)))
  | createWorkspace auth input now =>
      exact isolatedAt_map (transaction_isolated
        (Tx.Mirrored.bind (TenantTable.isolated_insert hfresh) (fun _ => Isolated.pure _)))
  | getWorkspace auth workspaceId =>
      exact isolatedAt_map (transaction_isolated
        (Tx.Mirrored.bind TenantTable.isolated_select (fun _ => Isolated.pure _)))
  | leaseOutboxBatch call =>
      exact isolatedAt_map (transaction_isolated
        (Tx.Mirrored.bind (isolated_leaseRows call) (fun _ => Isolated.pure _)))
  | markOutboxDelivered auth outboxId leaseToken leaseOwner now =>
      exact isolatedAt_map (transaction_isolated
        (isolated_mark (deliveredMark auth outboxId leaseToken leaseOwner now)))
  | markOutboxFailed auth outboxId failure =>
      exact isolatedAt_map (transaction_isolated (isolated_mark (failedMark auth outboxId failure)))
  | cleanupOutbox auth deliveredBefore deadLetterBefore =>
      exact isolatedAt_map (transaction_isolated TenantTable.isolated_delete)
  | cleanupIdempotency auth expiresBefore =>
      exact isolatedAt_map (transaction_isolated TenantTable.isolated_delete)

end StoreOperation

/-! ## Sequences of calls on one connection -/

structure StoreCall where
  op : StoreOperation
  faults : List Bool

namespace StoreCall

variable (codec : Codec) (session : Option String)

def run (call : StoreCall) (db : Db) : StoreAnswer × Db := call.op.run codec ⟨session, call.faults⟩ db

/-- The database after the calls. -/
def after (calls : List StoreCall) (db : Db) : Db :=
  calls.foldl (fun db call => (call.run codec session db).2) db

/-- The answers to the calls of one tenant. -/
def answers (tenant : Uuid) : List StoreCall → Db → List StoreAnswer
  | [], _ => []
  | call :: calls, db =>
      if call.op.tenant = tenant then
        (call.run codec session db).1 :: answers tenant calls (call.run codec session db).2
      else answers tenant calls (call.run codec session db).2

/-- Each call inserts ids that no other tenant uses at that time. -/
def FreshAlong : List StoreCall → Db → Prop
  | [], _ => True
  | call :: calls, db => call.op.FreshIn codec (db.others call.op.tenant) ∧
      FreshAlong calls (call.run codec session db).2

/-- Each call leaves every row of every other tenant as it is. -/
def LeavesOthers : List StoreCall → Db → Prop
  | [], _ => True
  | call :: calls, db =>
      (call.run codec session db).2.others call.op.tenant = db.others call.op.tenant ∧
        LeavesOthers calls (call.run codec session db).2

variable {codec session} {tenant : Uuid} {call : StoreCall} {db : Db}

theorem run_own (session : Option String) (hfresh : call.op.FreshIn codec (db.others call.op.tenant)) :
    call.run codec none (db.own call.op.tenant) =
      Prod.map id (Db.own call.op.tenant) (call.run codec session db) ∧
    (call.run codec session db).2.others call.op.tenant = db.others call.op.tenant := by
  have hisolated : call.op.IsolatedAt codec ⟨session, call.faults⟩ db :=
    StoreOperation.isolatedAt_of_fresh call.op hfresh
  exact hisolated

theorem leavesOthers_of_fresh {calls : List StoreCall} (h : FreshAlong codec session calls db) :
    LeavesOthers codec session calls db := by
  induction calls generalizing db with
  | nil => trivial
  | cons call calls ih => exact ⟨(run_own session h.1).2, ih h.2⟩

/-- A tenant sees of a sequence of calls what it sees of its own calls on its own rows. -/
theorem answers_own (tenant : Uuid) {calls : List StoreCall} (h : FreshAlong codec session calls db) :
    answers codec session tenant calls db =
        answers codec none tenant (calls.filter (fun call => call.op.tenant = tenant))
          (db.own tenant) ∧
      (after codec session calls db).own tenant =
        after codec none (calls.filter (fun call => call.op.tenant = tenant)) (db.own tenant) := by
  induction calls generalizing db with
  | nil => exact ⟨rfl, rfl⟩
  | cons call calls ih =>
      obtain ⟨hanswers, hafter⟩ := ih h.2
      by_cases htenant : call.op.tenant = tenant
      · subst htenant
        have hown := (run_own session h.1).1
        have hresult : (call.run codec none (db.own call.op.tenant)).1 =
            (call.run codec session db).1 := by
          rw [hown]
          rfl
        have hdb : (call.run codec none (db.own call.op.tenant)).2 =
            (call.run codec session db).2.own call.op.tenant := by
          rw [hown]
          rfl
        rw [List.filter_cons_of_pos (by simp)]
        simp only [answers, if_true, after, List.foldl_cons, hresult, hdb]
        exact ⟨congrArg _ hanswers, hafter⟩
      · have hsame : (call.run codec session db).2.own tenant = db.own tenant :=
          Db.own_eq_of_others_eq htenant (run_own session h.1).2
        rw [List.filter_cons_of_neg (by simpa using htenant)]
        simp only [answers, if_neg htenant, after, List.foldl_cons]
        rw [← hsame]
        exact ⟨hanswers, hafter⟩

end StoreCall

/-- Two databases that agree on the rows of a tenant, and two sequences of calls that agree on its
calls, each on a pooled connection with whatever session value: the tenant gets the same answers and
ends with the same rows, and no call touches a row of another tenant. -/
theorem tenants_do_not_interfere (codec : Codec) (tenant : Uuid) (session₁ session₂ : Option String)
    (calls₁ calls₂ : List StoreCall) (db₁ db₂ : Db)
    (hcalls : calls₁.filter (fun call => call.op.tenant = tenant) =
      calls₂.filter (fun call => call.op.tenant = tenant))
    (hown : db₁.own tenant = db₂.own tenant)
    (hfresh₁ : StoreCall.FreshAlong codec session₁ calls₁ db₁)
    (hfresh₂ : StoreCall.FreshAlong codec session₂ calls₂ db₂) :
    StoreCall.answers codec session₁ tenant calls₁ db₁ =
        StoreCall.answers codec session₂ tenant calls₂ db₂ ∧
      (StoreCall.after codec session₁ calls₁ db₁).own tenant =
        (StoreCall.after codec session₂ calls₂ db₂).own tenant ∧
      StoreCall.LeavesOthers codec session₁ calls₁ db₁ ∧
      StoreCall.LeavesOthers codec session₂ calls₂ db₂ := by
  obtain ⟨hanswers₁, hafter₁⟩ := StoreCall.answers_own tenant hfresh₁
  obtain ⟨hanswers₂, hafter₂⟩ := StoreCall.answers_own tenant hfresh₂
  refine ⟨?_, ?_, StoreCall.leavesOthers_of_fresh hfresh₁, StoreCall.leavesOthers_of_fresh hfresh₂⟩
  · rw [hanswers₁, hanswers₂, hcalls, hown]
  · rw [hafter₁, hafter₂, hcalls, hown]

/-! ## Two tenants on one connection -/

def secondWorkspace : StoreCall := ⟨.createWorkspace ⟨2, 8⟩ ⟨2, "two"⟩ 0, []⟩

def ownIssue : StoreCall := ⟨.createIssueTransactional (retriedCall 4 0), []⟩

/-- The project of tenant 1 beside a workspace of tenant 3. -/
def neighbourDb : Db :=
  { projectDb with
    workspaces := ⟨[⟨1, "one", 0, 0, 0, 0⟩, ⟨3, "three", 3, 0, 0, 0⟩], by decide, by decide⟩ }

theorem ownIssue_fresh {others : Db} (hissues : others.issues.rows = [])
    (hactivities : others.activities.rows = []) (houtbox : others.outbox.rows = []) :
    ownIssue.op.FreshIn Codec.unary others := by
  refine ⟨fun x hx => ?_, fun x hx => ?_, fun x hx => ?_⟩
  · have hmem : x ∈ others.issues.rows := hx
    rw [hissues] at hmem
    cases hmem
  · have hmem : x ∈ others.activities.rows := hx
    rw [hactivities] at hmem
    cases hmem
  · have hmem : x ∈ others.outbox.rows := hx
    rw [houtbox] at hmem
    cases hmem

theorem secondWorkspace_fresh : secondWorkspace.op.FreshIn Codec.unary (projectDb.others 2) := by
  intro x hx
  have hone : x ∈ [(⟨1, "one", 0, 0, 0, 0⟩ : WorkspaceRow)] := hx
  rw [List.mem_singleton.mp hone]
  exact ⟨by decide, rfl⟩

theorem freshAlong_shared :
    StoreCall.FreshAlong Codec.unary none [secondWorkspace, ownIssue] projectDb :=
  ⟨secondWorkspace_fresh, ownIssue_fresh rfl rfl rfl, trivial⟩

theorem freshAlong_alone :
    StoreCall.FreshAlong Codec.unary (some (Codec.unary.uuidText 3)) [ownIssue] neighbourDb :=
  ⟨ownIssue_fresh rfl rfl rfl, trivial⟩

theorem tenants_do_not_interfere_shared :
    StoreCall.answers Codec.unary none 1 [secondWorkspace, ownIssue] projectDb =
        StoreCall.answers Codec.unary (some (Codec.unary.uuidText 3)) 1 [ownIssue] neighbourDb ∧
      (StoreCall.after Codec.unary none [secondWorkspace, ownIssue] projectDb).own 1 =
        (StoreCall.after Codec.unary (some (Codec.unary.uuidText 3)) [ownIssue] neighbourDb).own 1 ∧
      StoreCall.LeavesOthers Codec.unary none [secondWorkspace, ownIssue] projectDb ∧
      StoreCall.LeavesOthers Codec.unary (some (Codec.unary.uuidText 3)) [ownIssue] neighbourDb :=
  tenants_do_not_interfere Codec.unary 1 none (some (Codec.unary.uuidText 3))
    [secondWorkspace, ownIssue] [ownIssue] projectDb neighbourDb rfl rfl freshAlong_shared
    freshAlong_alone

end Dandori
