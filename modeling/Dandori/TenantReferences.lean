import Dandori.IdempotentCreate
import Dandori.WorkspaceRepository

/-!
# Tenant- and project-consistent references

The foreign keys pair every reference with the workspace of the row, and row-level security lets a
call write under its own workspace only. That the milestone of an issue belongs to the project of the
issue is checked by no constraint: the transaction that creates the issue reads the milestone before it
writes the row, and milestones are never updated.
-/

namespace Dandori

/-- Every reference stays within the workspace, and the milestone of an issue within its project. -/
structure Db.Consistent (db : Db) : Prop where
  projectVersion : ∀ p ∈ db.projects, ∃ v ∈ db.workflowVersions,
    v.id = p.workflowVersionId ∧ v.workspaceId = p.workspaceId
  issueProject : ∀ i ∈ db.issues, ∃ p ∈ db.projects,
    p.id = i.projectId ∧ p.workspaceId = i.workspaceId
  issueMilestone : ∀ i ∈ db.issues, ∀ milestoneId, i.milestoneId = some milestoneId →
    ∃ m ∈ db.milestones, m.id = milestoneId ∧ m.workspaceId = i.workspaceId ∧
      m.projectId = i.projectId
  activityProject : ∀ a ∈ db.activities, ∃ p ∈ db.projects,
    p.id = a.projectId ∧ p.workspaceId = a.workspaceId
  activityIssue : ∀ a ∈ db.activities, ∀ issueId, a.issueId = some issueId →
    ∃ i ∈ db.issues, i.id = issueId ∧ i.workspaceId = a.workspaceId

theorem Db.consistent_empty : Db.empty.Consistent where
  projectVersion p hp := absurd hp (Table.not_mem_empty p)
  issueProject i hi := absurd hi (Table.not_mem_empty i)
  issueMilestone i hi := absurd hi (Table.not_mem_empty i)
  activityProject a ha := absurd ha (Table.not_mem_empty a)
  activityIssue a ha := absurd ha (Table.not_mem_empty a)

namespace TenantTable

variable {ρ κ : Type} [LinearOrder κ] (T : TenantTable ρ κ)

/-- The row was added, and its foreign keys found their targets. -/
def Added (r : ρ) (db db' : Db) : Prop :=
  ∃ u, (T.get db).insert? r = some u ∧ T.references db r = true ∧ db' = T.set db u

/-- An INSERT by an administrator, who is above row-level security: the row is added when it meets the
constraints of the table. -/
def insertConstrained (r : ρ) (db : Db) : Db :=
  match (T.get db).insert? r with
  | some u => if (T.get db).rows.any (T.conflicts r) = false ∧ T.references db r then T.set db u else db
  | none => db

theorem insertConstrained_cases (r : ρ) (db : Db) :
    T.insertConstrained r db = db ∨ T.Added r db (T.insertConstrained r db) := by
  unfold insertConstrained
  cases h : (T.get db).insert? r with
  | none => exact Or.inl rfl
  | some u =>
      dsimp only
      split_ifs with href
      · exact Or.inr ⟨u, h, href.2, rfl⟩
      · exact Or.inl rfl

theorem added_of_insert {codec : Codec} {wrap : DbError → StoreError} {r r' : ρ} {s t : TxState}
    (h : T.insert codec wrap r s = .ok (r', t)) : T.Added r s.db t.db := by
  obtain ⟨_, _, db, hdb, rfl⟩ := T.insert_eq_ok.mp h
  obtain ⟨_, _, href, u, hu, rfl⟩ := T.insertRow_eq_ok.mp hdb
  exact ⟨u, hu, href, rfl⟩

end TenantTable

/-! ## What the constraints guarantee of an added row -/

theorem Table.find?_any_iff {ρ κ : Type} [LinearOrder κ] {key : ρ → κ} {check : ρ → Bool}
    {t : Table key check} {k : κ} {p : ρ → Bool} :
    (t.find? k).any p = true ↔ ∃ r ∈ t, key r = k ∧ p r = true := by
  rw [Option.any_eq_true]
  simp only [Table.find?_eq_some, and_assoc]

section Added

variable {db db' : Db}

theorem Db.hasWorkflowVersion_iff {workspaceId id : Uuid} :
    db.hasWorkflowVersion workspaceId id = true ↔
      ∃ v ∈ db.workflowVersions, v.id = id ∧ v.workspaceId = workspaceId := by
  unfold hasWorkflowVersion
  simp only [Table.find?_any_iff, decide_eq_true_eq]

theorem Db.Consistent.workspace {r : WorkspaceRow} (h : db.Consistent)
    (hadded : TenantTable.workspace.Added r db db') : db'.Consistent := by
  obtain ⟨u, _, _, rfl⟩ := hadded
  exact ⟨h.projectVersion, h.issueProject, h.issueMilestone, h.activityProject, h.activityIssue⟩

theorem Db.Consistent.workflowVersion {r : WorkflowVersionRow} (h : db.Consistent)
    (hadded : TenantTable.workflowVersion.Added r db db') : db'.Consistent := by
  obtain ⟨u, hu, _, rfl⟩ := hadded
  refine ⟨fun p hp => ?_, h.issueProject, h.issueMilestone, h.activityProject, h.activityIssue⟩
  obtain ⟨v, hv, hids⟩ := h.projectVersion p hp
  exact ⟨v, ((Table.insert?_eq_some hu).2.2 v).mpr (Or.inr hv), hids⟩

theorem Db.Consistent.milestone {r : MilestoneRow} (h : db.Consistent)
    (hadded : TenantTable.milestone.Added r db db') : db'.Consistent := by
  obtain ⟨u, hu, _, rfl⟩ := hadded
  refine ⟨h.projectVersion, h.issueProject, fun i hi milestoneId hid => ?_, h.activityProject,
    h.activityIssue⟩
  obtain ⟨m, hm, hids⟩ := h.issueMilestone i hi milestoneId hid
  exact ⟨m, ((Table.insert?_eq_some hu).2.2 m).mpr (Or.inr hm), hids⟩

theorem Db.Consistent.project {r : ProjectRow} (h : db.Consistent)
    (hadded : TenantTable.project.Added r db db') : db'.Consistent := by
  obtain ⟨u, hu, href, rfl⟩ := hadded
  have hmem := (Table.insert?_eq_some hu).2.2
  rw [Bool.and_eq_true, Db.hasWorkflowVersion_iff] at href
  refine ⟨fun p hp => ?_, fun i hi => ?_, h.issueMilestone, fun a ha => ?_, h.activityIssue⟩
  · rcases (hmem p).mp hp with rfl | hp
    · exact href.2
    · exact h.projectVersion p hp
  · obtain ⟨p, hp, hids⟩ := h.issueProject i hi
    exact ⟨p, (hmem p).mpr (Or.inr hp), hids⟩
  · obtain ⟨p, hp, hids⟩ := h.activityProject a ha
    exact ⟨p, (hmem p).mpr (Or.inr hp), hids⟩

end Added

/-! ## What a create has checked -/

namespace IssueRepository

variable {codec : Codec} {call : CreateIssueCall} {s t : TxState} {db db' : Db}

/-- The project of the command, and its milestone within that project. -/
structure Located (call : CreateIssueCall) (db : Db) : Prop where
  project : ∃ p ∈ db.projects, p.id = call.command.projectId ∧
    p.workspaceId = call.command.workspaceId
  milestone : ∀ milestoneId, call.command.milestoneId = some milestoneId →
    ∃ m ∈ db.milestones, m.id = milestoneId ∧ m.workspaceId = call.command.workspaceId ∧
      m.projectId = call.command.projectId

theorem ensureProjectExists_found {u : Unit} (h : ensureProjectExists codec call s = .ok (u, t)) :
    ∃ p ∈ s.db.projects, p.id = call.command.projectId ∧
      p.workspaceId = call.command.workspaceId := by
  unfold ensureProjectExists at h
  obtain ⟨rows, v, hv, h⟩ := Tx.bind_eq_ok.mp h
  obtain ⟨_, rfl, _⟩ := TenantTable.select_eq_ok.mp hv
  split at h
  · cases h
  · next hrows =>
      obtain ⟨p, hp, hsel⟩ : ∃ p ∈ s.db.projects.rows, _ := by simpa using hrows
      simp only [TenantTable.selected, Bool.and_eq_true, decide_eq_true_eq] at hsel
      exact ⟨p, hp, hsel.2⟩

theorem ensureMilestoneBelongsToProject_found {u : Unit}
    (h : ensureMilestoneBelongsToProject codec call s = .ok (u, t)) {milestoneId : Uuid}
    (hid : call.command.milestoneId = some milestoneId) :
    ∃ m ∈ s.db.milestones, m.id = milestoneId ∧ m.workspaceId = call.command.workspaceId ∧
      m.projectId = call.command.projectId := by
  unfold ensureMilestoneBelongsToProject at h
  simp only [hid] at h
  obtain ⟨rows, v, hv, h⟩ := Tx.bind_eq_ok.mp h
  obtain ⟨_, hrows, _⟩ := TenantTable.select_eq_ok.mp hv
  cases hrow : rows.head? with
  | none =>
      simp only [hrow] at h
      cases h
  | some m =>
      simp only [hrow] at h
      split_ifs at h with hproject
      · cases h
      · subst hrows
        obtain ⟨hm, hsel⟩ := List.mem_filter.mp (List.mem_of_mem_head? hrow)
        simp only [TenantTable.selected, Bool.and_eq_true, decide_eq_true_eq] at hsel
        exact ⟨m, hm, hsel.2.1, hsel.2.2, not_not.mp hproject⟩

theorem writeIssue_located {issue : Issue} (h : writeIssue codec call s = .ok (issue, t)) :
    Located call s.db := by
  unfold writeIssue at h
  obtain ⟨_, s₁, h₁, h⟩ := Tx.bind_eq_ok.mp h
  obtain ⟨_, s₂, h₂, _⟩ := Tx.bind_eq_ok.mp h
  refine ⟨ensureProjectExists_found h₁, fun milestoneId hid => ?_⟩
  rw [← (ensureProjectExists_db h₁).1]
  exact ensureMilestoneBelongsToProject_found h₂ hid

theorem createIssueTx_located {issue : Issue}
    (h : createIssueTx codec call s = .ok (.inl issue, t)) : Located call s.db := by
  unfold createIssueTx at h
  obtain ⟨_, s₁, h₁, h⟩ := Tx.bind_eq_ok.mp h
  rw [(setWorkspaceContext_eq_ok.mp h₁).2] at h
  obtain ⟨reservation, s₂, h₂, h⟩ := Tx.bind_eq_ok.mp h
  obtain ⟨_, _, hcases⟩ := reserveIdempotency_cases h₂
  split at h
  · obtain ⟨issue', s₃, h₃, _⟩ := Tx.bind_eq_ok.mp h
    have hlocated := writeIssue_located h₃
    rcases hcases with ⟨_, _, u, _, hdb⟩ | ⟨row, _, _, hdb⟩
    · rw [hdb] at hlocated
      exact ⟨hlocated.project, hlocated.milestone⟩
    · rw [hdb] at hlocated
      exact ⟨hlocated.project, hlocated.milestone⟩
  · cases h

/-- A create leaves the database alone, or adds its rows after it has located project and milestone. -/
theorem createIssueTransactional_located (codec : Codec) (call : CreateIssueCall) (env : Env)
    (db : Db) : (createIssueTransactional codec call env db).2 = db ∨
      (Located call db ∧ FreshCreate codec call db (createIssueTransactional codec call env db).2) := by
  unfold createIssueTransactional
  rcases transaction_cases .sqlx env (createIssueTx codec call) db with
    ⟨e, he, _⟩ | ⟨out, t, _, hbody, _, he⟩
  · rw [he]
    exact Or.inl rfl
  · rw [he]
    rcases createIssueTx_cases hbody with ⟨rfl, hfresh⟩ | ⟨row, _, _, rfl, hdb⟩
    · exact Or.inr ⟨createIssueTx_located hbody, hfresh⟩
    · exact Or.inl hdb

theorem FreshCreate.consistent (h : FreshCreate codec call db db') (hlocated : Located call db)
    (hdb : db.Consistent) : db'.Consistent := by
  have hissues := (Table.insert?_eq_some h.issues).2.2
  have hactivities := (Table.insert?_eq_some h.activities).2.2
  have hversions : db'.workflowVersions = db.workflowVersions := by
    have hrest := congrArg Db.workflowVersions h.rest
    exact hrest
  have hprojects : db'.projects = db.projects := by
    have hrest := congrArg Db.projects h.rest
    exact hrest
  have hmilestones : db'.milestones = db.milestones := by
    have hrest := congrArg Db.milestones h.rest
    exact hrest
  constructor
  · rw [hprojects, hversions]
    exact hdb.projectVersion
  · intro i hi
    rw [hprojects]
    rcases (hissues i).mp hi with rfl | hi
    · exact hlocated.project
    · exact hdb.issueProject i hi
  · intro i hi milestoneId hid
    rw [hmilestones]
    rcases (hissues i).mp hi with rfl | hi
    · exact hlocated.milestone milestoneId hid
    · exact hdb.issueMilestone i hi milestoneId hid
  · intro a ha
    rw [hprojects]
    rcases (hactivities a).mp ha with rfl | ha
    · exact hlocated.project
    · exact hdb.activityProject a ha
  · intro a ha issueId hid
    rcases (hactivities a).mp ha with rfl | ha
    · cases hid
      exact ⟨issueRow call, (hissues _).mpr (Or.inl rfl), rfl, rfl⟩
    · obtain ⟨i, hi, hids⟩ := hdb.activityIssue a ha issueId hid
      exact ⟨i, (hissues i).mpr (Or.inr hi), hids⟩

end IssueRepository

/-! ## Runs -/

/-- The calls that write tenants, projects and issues, and the rows an administrator inserts; `delivery`
stands for the calls of workers, which touch none of these tables. -/
inductive TenantStep
  | createWorkspace (auth : AuthContext) (input : WorkspaceRepository.WorkspaceWriteInput)
      (now : Timestamp) (env : Env)
  | createProject (auth : AuthContext) (input : WorkspaceRepository.ProjectWriteInput)
      (now : Timestamp) (env : Env)
  | createIssue (call : IssueRepository.CreateIssueCall) (env : Env)
  | insertWorkflowVersion (row : WorkflowVersionRow)
  | insertMilestone (row : MilestoneRow)
  | delivery (db : Db)

namespace TenantStep

def run (codec : Codec) : TenantStep → Db → Db
  | createWorkspace auth input now env, db =>
      (WorkspaceRepository.createWorkspace codec auth input now env db).2
  | createProject auth input now env, db =>
      (WorkspaceRepository.createProject codec auth input now env db).2
  | createIssue call env, db => (IssueRepository.createIssueTransactional codec call env db).2
  | insertWorkflowVersion row, db => TenantTable.workflowVersion.insertConstrained row db
  | insertMilestone row, db => TenantTable.milestone.insertConstrained row db
  | delivery db', db => { db with
      outbox := db'.outbox
      idempotencyRecords := db'.idempotencyRecords
      partitionLeases := db'.partitionLeases }

end TenantStep

abbrev TenantRun (codec : Codec) : Db → List TenantStep → Db → Prop :=
  Run (fun db step => some (TenantStep.run codec step db))

section Steps

variable {codec : Codec} {db : Db}

theorem createWorkspace_cases (codec : Codec) (auth : AuthContext)
    (input : WorkspaceRepository.WorkspaceWriteInput) (now : Timestamp) (env : Env) (db : Db) :
    (WorkspaceRepository.createWorkspace codec auth input now env db).2 = db ∨
      TenantTable.workspace.Added (WorkspaceRepository.workspaceRow input now) db
        (WorkspaceRepository.createWorkspace codec auth input now env db).2 := by
  unfold WorkspaceRepository.createWorkspace
  rcases transaction_cases .seaOrm env _ db with ⟨e, he, _⟩ | ⟨out, t, _, hbody, _, he⟩
  · rw [he]
    exact Or.inl rfl
  · rw [he]
    obtain ⟨_, s₁, h₁, h⟩ := Tx.bind_eq_ok.mp hbody
    rw [(setWorkspaceContext_eq_ok.mp h₁).2] at h
    obtain ⟨row, s₂, h₂, h⟩ := Tx.bind_eq_ok.mp h
    cases h
    have hadded := TenantTable.workspace.added_of_insert h₂
    exact Or.inr hadded

theorem createProject_cases (codec : Codec) (auth : AuthContext)
    (input : WorkspaceRepository.ProjectWriteInput) (now : Timestamp) (env : Env) (db : Db) :
    (WorkspaceRepository.createProject codec auth input now env db).2 = db ∨
      TenantTable.project.Added (WorkspaceRepository.projectRow input now) db
        (WorkspaceRepository.createProject codec auth input now env db).2 := by
  unfold WorkspaceRepository.createProject
  rcases transaction_cases .seaOrm env _ db with ⟨e, he, _⟩ | ⟨out, t, _, hbody, _, he⟩
  · rw [he]
    exact Or.inl rfl
  · rw [he]
    obtain ⟨_, s₁, h₁, h⟩ := Tx.bind_eq_ok.mp hbody
    rw [(setWorkspaceContext_eq_ok.mp h₁).2] at h
    obtain ⟨versions, s₂, h₂, h⟩ := Tx.bind_eq_ok.mp h
    obtain ⟨_, _, rfl⟩ := TenantTable.select_eq_ok.mp h₂
    split at h
    · cases h
    · obtain ⟨row, s₃, h₃, h⟩ := Tx.bind_eq_ok.mp h
      cases h
      have hadded := TenantTable.project.added_of_insert h₃
      exact Or.inr hadded

theorem TenantStep.consistent_run (step : TenantStep) (h : db.Consistent) :
    (step.run codec db).Consistent := by
  cases step with
  | createWorkspace auth input now env =>
      rcases createWorkspace_cases codec auth input now env db with he | hadded
      · rw [run, he]
        exact h
      · exact h.workspace hadded
  | createProject auth input now env =>
      rcases createProject_cases codec auth input now env db with he | hadded
      · rw [run, he]
        exact h
      · exact h.project hadded
  | createIssue call env =>
      rcases IssueRepository.createIssueTransactional_located codec call env db with
        he | ⟨hlocated, hfresh⟩
      · rw [run, he]
        exact h
      · exact hfresh.consistent hlocated h
  | insertWorkflowVersion row =>
      rcases TenantTable.workflowVersion.insertConstrained_cases row db with he | hadded
      · rw [run, he]
        exact h
      · exact h.workflowVersion hadded
  | insertMilestone row =>
      rcases TenantTable.milestone.insertConstrained_cases row db with he | hadded
      · rw [run, he]
        exact h
      · exact h.milestone hadded
  | delivery db' =>
      exact ⟨h.projectVersion, h.issueProject, h.issueMilestone, h.activityProject, h.activityIssue⟩

end Steps

/-- In every state reached from an empty database the references of projects, issues and activities
are consistent. -/
theorem consistent_of_run (codec : Codec) {db : Db} {steps : List TenantStep}
    (hrun : TenantRun codec Db.empty steps db) : db.Consistent := by
  refine Run.invariant ?_ hrun Db.consistent_empty
  rintro s step t hs ⟨⟩
  exact step.consistent_run hs

def milestoneCall (issueId milestoneId : Uuid) : IssueRepository.CreateIssueCall :=
  let call := IssueRepository.retriedCall issueId 0
  { call with command := { call.command with milestoneId := some milestoneId } }

/-- Workspace 1 gets the projects 2 and 7, each with a milestone; workspace 2 fails to add a project to
workspace 1, and an issue of project 2 gets the milestone of project 2 only. -/
def crossedSteps : List TenantStep :=
  [.createWorkspace ⟨1, 9⟩ ⟨1, "one"⟩ 0 .quiet, .insertWorkflowVersion ⟨3, 1⟩,
    .createProject ⟨1, 9⟩ ⟨2, 1, "project", 3⟩ 0 .quiet,
    .createProject ⟨1, 9⟩ ⟨7, 1, "other", 3⟩ 0 .quiet, .insertMilestone ⟨5, 1, 2⟩,
    .insertMilestone ⟨15, 1, 7⟩, .createWorkspace ⟨2, 8⟩ ⟨2, "two"⟩ 0 .quiet,
    .createProject ⟨2, 8⟩ ⟨12, 1, "foreign", 3⟩ 0 .quiet,
    .createIssue (milestoneCall 6 15) .quiet, .createIssue (milestoneCall 4 5) .quiet]

example : (crossedSteps.foldl (fun db step => step.run Codec.unary db) Db.empty).issues.rows.map
    (fun i => (i.id, i.milestoneId)) = [(4, some 5)] := by
  decide +kernel

theorem consistent_crossedSteps :
    ∃ db, TenantRun Codec.unary Db.empty crossedSteps db ∧ db.Consistent := by
  have hrun : TenantRun Codec.unary Db.empty crossedSteps _ := Run.of_foldlM rfl
  exact ⟨_, hrun, consistent_of_run Codec.unary hrun⟩

end Dandori
