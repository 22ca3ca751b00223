import Dandori.EventFirst
import Dandori.LegacyFingerprint
import Dandori.StoreIsolation
import Dandori.TenantReferences

/-!
# Reading back what a create returned

A create answers with the row it has inserted, a replay with the response stored for its key. Both are
the same issue: every stored response was written together with its row, and no call rewrites a row of
the issue table. A fingerprint of this version is matched by requests with the same fields only. An old
one is also matched by confusable requests, which are then answered with an issue they did not ask for.
-/

namespace Dandori

open IssueRepository OutboxRepository OutboxWorkerService

/-! ## Reading one issue -/

section Read

variable {codec : Codec} {policy : PolicyEngine} {auth : AuthContext} {env : Env} {db : Db}
  {workspaceId issueId : Uuid} {s : TxState}

def Db.issueOf (db : Db) (workspaceId issueId : Uuid) : Option IssueRow :=
  (db.issues.find? issueId).filter (fun r => r.workspaceId = workspaceId)

theorem Db.issueOf_own {row : IssueRow} (hrow : row ∈ db.issues) :
    db.issueOf row.workspaceId row.id = some row := by
  have hfind : db.issues.find? row.id = some row := Table.find?_eq_some.mpr ⟨hrow, rfl⟩
  simp [Db.issueOf, hfind]

theorem Db.issueOf_other {row : IssueRow} (hrow : row ∈ db.issues)
    (hother : workspaceId ≠ row.workspaceId) : db.issueOf workspaceId row.id = none := by
  have hfind : db.issues.find? row.id = some row := Table.find?_eq_some.mpr ⟨hrow, rfl⟩
  simp [Db.issueOf, hfind, hother.symm]

theorem selected_issue_head? (hs : s.setting = some (codec.uuidText workspaceId)) :
    (s.db.issues.rows.filter (TenantTable.issue.selected codec (fun r => r.id = issueId) s)).head? =
      s.db.issueOf workspaceId issueId := by
  rw [List.head?_filter]
  refine Option.ext fun r => ?_
  have hpin : ∀ r ∈ s.db.issues,
      TenantTable.issue.selected codec (fun r => r.id = issueId) s r = true → r.id = issueId := by
    intro r _ hr
    rw [TenantTable.selected_iff hs] at hr
    exact of_decide_eq_true hr.2
  rw [Db.issueOf, Table.rows_find?_eq_some hpin, TenantTable.selected_iff hs,
    Option.filter_eq_some_iff, Table.find?_eq_some]
  simp only [decide_eq_true_eq]
  tauto

theorem fetchIssueInTx_run (hs : s.setting = some (codec.uuidText workspaceId)) :
    fetchIssueInTx codec issueId s = if s.fails then .error (.sqlx .fault)
      else .ok ((s.db.issueOf workspaceId issueId).map issueOfRow, s.next s.db) := by
  unfold fetchIssueInTx
  rw [Tx.bind_run]
  cases hfails : s.fails with
  | true =>
      unfold TenantTable.select statement
      rw [hfails]
      rfl
  | false =>
      have hselect : TenantTable.issue.select codec .sqlx (fun r => r.id = issueId) s =
          .ok (_, s.next s.db) := TenantTable.select_eq_ok.mpr ⟨hfails, rfl, rfl⟩
      rw [hselect]
      simp only [Bool.false_eq_true, if_false]
      rw [selected_issue_head? hs]
      cases s.db.issueOf workspaceId issueId with
      | none => rfl
      | some row =>
          simp only [Option.map_some, mapIssueRow_eq]
          rfl

/-- A read finds the row of the id within the workspace exactly when no statement fails. -/
theorem getIssue_cases (codec : Codec) (auth : AuthContext) (issueId : Uuid) (env : Env) (db : Db) :
    (allowed env.faults 4 = true ∧ IssueRepository.getIssue codec auth issueId env db =
        (.ok ((db.issueOf auth.workspaceId issueId).map issueOfRow), db)) ∨
      allowed env.faults 4 = false ∧
        ∃ d, IssueRepository.getIssue codec auth issueId env db = (.error (.sqlx d), db) := by
  have hallowed := allowed_four_iff codec auth.workspaceId env db
  have hscoped := TxState.scoped_setting (env.start db) codec auth.workspaceId
  have hread : allowed env.faults 4 = true → IssueRepository.getIssue codec auth issueId env db =
      (.ok ((db.issueOf auth.workspaceId issueId).map issueOfRow), db) := by
    intro h
    obtain ⟨hbegin, hset, hselect, hcommit⟩ := hallowed.mp h
    have hfetch : fetchIssueInTx codec issueId ((env.start db).scoped codec auth.workspaceId) =
        .ok ((db.issueOf auth.workspaceId issueId).map issueOfRow,
          ((env.start db).scoped codec auth.workspaceId).next db) := by
      rw [fetchIssueInTx_run hscoped]
      exact if_neg (Bool.eq_false_iff.mp hselect)
    have hcontext : setWorkspaceContext .sqlx codec auth.workspaceId (env.start db) =
        .ok ((), (env.start db).scoped codec auth.workspaceId) :=
      setWorkspaceContext_eq_ok.mpr ⟨hset, rfl⟩
    exact transaction_of_body hbegin (Tx.bind_eq_ok.mpr ⟨(), _, hcontext, hfetch⟩) hcommit
  unfold IssueRepository.getIssue at hread ⊢
  rcases transaction_cases .sqlx env _ db with ⟨e, he, h⟩ | ⟨out, t, hbegin, h, ht, he⟩
  · refine Or.inr ⟨?_, ?_⟩
    · refine Bool.eq_false_iff.mpr (fun h => ?_)
      rw [hread h] at he
      cases he
    · rw [he]
      rcases h with ⟨d, rfl⟩ | h
      · exact ⟨d, rfl⟩
      rcases Tx.bind_eq_error.mp h with h | ⟨_, s₁, h₁, h⟩
      · obtain ⟨d, rfl⟩ := setWorkspaceContext_eq_error h
        exact ⟨d, rfl⟩
      · obtain ⟨_, rfl⟩ := setWorkspaceContext_eq_ok.mp h₁
        rw [fetchIssueInTx_run hscoped] at h
        split_ifs at h
        cases h
        exact ⟨.fault, rfl⟩
  · obtain ⟨_, s₁, h₁, h⟩ := Tx.bind_eq_ok.mp h
    obtain ⟨hset, rfl⟩ := setWorkspaceContext_eq_ok.mp h₁
    rw [fetchIssueInTx_run hscoped] at h
    split_ifs at h with hselect
    cases h
    exact Or.inl ⟨hallowed.mpr ⟨hbegin, hset, Bool.eq_false_iff.mpr hselect, ht⟩, he⟩

def readAnswer (codec : Codec) (issueId : Uuid) :
    Option IssueRow → Except AppServiceError GetIssueResponse
  | none => .error (IssueAppService.issueNotFound codec issueId)
  | some row => .ok ⟨mapIssueToDto (issueOfRow row)⟩

theorem enforcePolicy_issueRead (auth : AuthContext) (issueId : Uuid) :
    IssueAppService.enforcePolicy RoleMatrixPolicy.standard auth .issueRead
      (.issue auth.workspaceId issueId) = .ok () := by
  have hroles : Role.owner ∈ RoleMatrixPolicy.standardMatrix .issueRead := by
    decide
  simp [IssueAppService.enforcePolicy, RoleMatrixPolicy.standard, IssueAppService.subjectFromAuth,
    Resource.workspaceId, hroles]

theorem serviceGetIssue_eq (codec : Codec) (auth : AuthContext) (issueId : Uuid) (env : Env)
    (db : Db) : (IssueAppService.getIssue codec RoleMatrixPolicy.standard auth issueId env db).1 =
      if allowed env.faults 4 then readAnswer codec issueId (db.issueOf auth.workspaceId issueId)
      else .error (.internal "store_read_failed") := by
  unfold IssueAppService.getIssue
  rw [enforcePolicy_issueRead]
  rcases getIssue_cases codec auth issueId env db with ⟨h, he⟩ | ⟨h, d, he⟩
  · rw [h, he]
    cases db.issueOf auth.workspaceId issueId <;> rfl
  · rw [h, he]
    rfl

end Read

/-! ## Requests and their fingerprints -/

namespace CreateIssueRequest

/-- The fields of an issue that a request gives. -/
structure Describes (request : CreateIssueRequest) (issue : IssueDto) : Prop where
  project : issue.projectId = request.projectId
  milestone : issue.milestoneId = request.milestoneId
  title : issue.title = request.title
  description : issue.description = request.description
  priority : issue.priority = request.priority

/-- The fields of a command that a request gives. -/
structure IssuedAs (request : CreateIssueRequest) (command : CreateIssueCommandV1) : Prop where
  project : command.projectId = request.projectId
  milestone : command.milestoneId = request.milestoneId
  title : command.title = request.title
  description : command.description = request.description
  priority : command.priority = mapPriorityFromDto request.priority

/-- The digest tells the payload of one request from that of another. -/
def ToldApart (codec : Codec) (p q : CreateIssueRequest) : Prop :=
  codec.digestHex (fingerprintPayload codec p) = codec.digestHex (fingerprintPayload codec q) →
    fingerprintPayload codec p = fingerprintPayload codec q

end CreateIssueRequest

def ServiceRequest.record (r : ServiceRequest) (db : Db) : Option IdempotencyRow :=
  db.idempotencyRecords.find?
    (toLex (r.auth.workspaceId, toLex (CommandName.issueCreateV1.asStr, r.request.idempotencyKey)))

/-- The record answers the request: its response is an issue of its workspace with the fields of the
request, and its fingerprint is that of this version or the old one. -/
structure StoredFor (codec : Codec) (request : CreateIssueRequest) (record : IdempotencyRow)
    (db : Db) : Prop where
  response : ∃ row ∈ db.issues, row.workspaceId = record.workspaceId ∧
    request.Describes (mapIssueToDto (issueOfRow row)) ∧
    codec.idempotencyResponseFromValue record.responsePayload = .ok (issueOfRow row)
  fingerprint : record.requestFingerprint = createIssueFingerprint codec request ∨
    ∃ command, request.IssuedAs command ∧
      record.requestFingerprint = legacyV1Fingerprint codec command

/-- The stored records answer earlier requests, and their issues are there. -/
def Db.Answers (codec : Codec) (db : Db) : Prop :=
  ∀ record ∈ db.idempotencyRecords, ∃ request, StoredFor codec request record db

/-- The record under the key of the request has the old fingerprint of a request with a confusable
payload, which it answers. -/
def ServiceRequest.FindsConfusable (codec : Codec) (r : ServiceRequest) (db : Db) : Prop :=
  ∃ record q command other, r.record db = some record ∧ StoredFor codec q record db ∧
    record.requestFingerprint = legacyV1Fingerprint codec other ∧ q.IssuedAs other ∧
    r.request.IssuedAs command ∧ Confusable command other

section Requests

variable {codec : Codec} {policy : PolicyEngine} {auth : AuthContext} {p q : CreateIssueRequest}
  {generated : IssueAppService.Generated} {call : CreateIssueCall} {issue : IssueDto}
  {command other : CreateIssueCommandV1}

theorem mapPriorityToDto_fromDto (p : IssuePriorityDto) :
    mapPriorityToDto (mapPriorityFromDto p) = p := by
  cases p <;> rfl

namespace CreateIssueRequest

theorem SamePayload.describes (h : p.SamePayload q) (hq : q.Describes issue) : p.Describes issue where
  project := hq.project.trans h.projectId.symm
  milestone := hq.milestone.trans h.milestoneId.symm
  title := hq.title.trans h.title.symm
  description := hq.description.trans h.description.symm
  priority := hq.priority.trans h.priority.symm

theorem Describes.samePayload (hp : p.Describes issue) (hq : q.Describes issue) : p.SamePayload q where
  projectId := hp.project.symm.trans hq.project
  milestoneId := hp.milestone.symm.trans hq.milestone
  title := hp.title.symm.trans hq.title
  description := hp.description.symm.trans hq.description
  priority := hp.priority.symm.trans hq.priority

theorem IssuedAs.samePayload_iff (hp : p.IssuedAs command) (hq : q.IssuedAs other) :
    IssueRepository.SamePayload command other ↔ p.SamePayload q := by
  have hpriority : command.priority = other.priority ↔ p.priority = q.priority := by
    rw [hp.priority, hq.priority]
    refine ⟨fun h => ?_, fun h => by rw [h]⟩
    rw [← mapPriorityToDto_fromDto p.priority, h, mapPriorityToDto_fromDto]
  constructor
  · intro h
    refine ⟨?_, ?_, ?_, ?_, hpriority.mp h.priority⟩
    · rw [← hp.project, h.projectId, hq.project]
    · rw [← hp.milestone, h.milestoneId, hq.milestone]
    · rw [← hp.title, h.title, hq.title]
    · rw [← hp.description, h.description, hq.description]
  · intro h
    refine ⟨?_, ?_, ?_, ?_, hpriority.mpr h.priority⟩
    · rw [hp.project, h.projectId, hq.project]
    · rw [hp.milestone, h.milestoneId, hq.milestone]
    · rw [hp.title, h.title, hq.title]
    · rw [hp.description, h.description, hq.description]

end CreateIssueRequest

theorem call_of_prepare
    (h : IssueAppService.prepare codec policy auth p generated = .ok call) :
    call.command.workspaceId = auth.workspaceId ∧
      call.command.idempotencyKey.value = p.idempotencyKey ∧
      call.command.requestFingerprint = createIssueFingerprint codec p ∧
      p.IssuedAs call.command ∧ p.Describes (mapIssueToDto (issueOfRow (issueRow call))) := by
  unfold IssueAppService.prepare at h
  split at h
  · cases h
  · split at h
    · cases h
    · rename_i key hkey
      have hvalue : key.value = p.idempotencyKey := by
        unfold IdempotencyKey.new at hkey
        split at hkey
        · cases hkey
          rfl
        · cases hkey
      dsimp only at h
      split at h
      · cases h
      · split at h
        · cases h
        · cases h
          exact ⟨rfl, hvalue, rfl, ⟨rfl, rfl, rfl, rfl, rfl⟩, rfl, rfl, rfl, rfl,
            mapPriorityToDto_fromDto p.priority⟩

theorem createIssueFingerprint_versioned (codec : Codec) (request : CreateIssueRequest) :
    "v2:".toList.isPrefixOf (createIssueFingerprint codec request).toList = true := by
  simp [createIssueFingerprint, String.toList_append]

/-- A stored fingerprint of this version matches only its own digest. -/
theorem digest_of_matches
    (hcommand : command.requestFingerprint = createIssueFingerprint codec q)
    (h : matchesRequestFingerprint codec (createIssueFingerprint codec p) command = true) :
    codec.digestHex (fingerprintPayload codec p) = codec.digestHex (fingerprintPayload codec q) := by
  unfold matchesRequestFingerprint at h
  rw [createIssueFingerprint_versioned, hcommand] at h
  simp only [Bool.not_true, Bool.false_and, Bool.or_false, decide_eq_true_eq] at h
  exact String.append_right_inj _ |>.mp h

theorem payload_of_legacy_matches (htext : HexUuidTexts codec)
    (hcommand : command.requestFingerprint = createIssueFingerprint codec q)
    (h : matchesRequestFingerprint codec (legacyV1Fingerprint codec other) command = true) :
    IssueRepository.SamePayload command other ∨ Confusable command other := by
  rcases (matchesRequestFingerprint_legacy codec command other).mp h with hown | hlegacy
  · have hversioned := createIssueFingerprint_versioned codec q
    rw [← hcommand, ← hown, legacyV1Fingerprint_unversioned] at hversioned
    cases hversioned
  · exact (legacyV1Fingerprint_eq_iff_confusable htext command other).mp hlegacy

/-- A record that answers another request is matched by the same payload, or it is confusable. -/
theorem samePayload_of_matches {record : IdempotencyRow} {db : Db} (htext : HexUuidTexts codec)
    (hdigest : CreateIssueRequest.ToldApart codec p q) (hstored : StoredFor codec p record db)
    (hissued : q.IssuedAs command)
    (hcommand : command.requestFingerprint = createIssueFingerprint codec q)
    (h : matchesRequestFingerprint codec record.requestFingerprint command = true) :
    q.SamePayload p ∨ ∃ other, record.requestFingerprint = legacyV1Fingerprint codec other ∧
      p.IssuedAs other ∧ Confusable command other := by
  rcases hstored.fingerprint with hversion | ⟨other, hother, hlegacy⟩
  · rw [hversion] at h
    exact Or.inl ((fingerprintPayload_eq_iff codec).mp (hdigest (digest_of_matches hcommand h)).symm)
  · rw [hlegacy] at h
    rcases payload_of_legacy_matches htext hcommand h with hsame | hconfusable
    · exact Or.inl ((hissued.samePayload_iff hother).mp hsame)
    · exact Or.inr ⟨other, hlegacy, hother, hconfusable⟩

end Requests

theorem storedFor_of_freshCreate {codec : Codec} {r : ServiceRequest} {call : CreateIssueCall}
    {db db' : Db} (hprepare : IssueAppService.prepare codec RoleMatrixPolicy.standard r.auth r.request
      r.generated = .ok call) (h : FreshCreate codec call db db') :
    StoredFor codec r.request (storedRecord codec call) db' := by
  obtain ⟨_, _, hfingerprint, _, hdescribes⟩ := call_of_prepare hprepare
  refine ⟨⟨issueRow call, (h.mem_issues _).mpr (Or.inl rfl), rfl, hdescribes, ?_⟩, Or.inl hfingerprint⟩
  exact response_of_storedRecord

theorem StoredFor.mono {codec : Codec} {request : CreateIssueRequest} {record : IdempotencyRow}
    {db db' : Db} (h : StoredFor codec request record db) (hissues : ∀ i ∈ db.issues, i ∈ db'.issues) :
    StoredFor codec request record db' := by
  obtain ⟨row, hrow, hresponse⟩ := h.response
  exact ⟨⟨row, hissues row hrow, hresponse⟩, h.fingerprint⟩

/-! ## Runs of the whole system -/

def StoreOperation.createsIssue : StoreOperation → Bool
  | .createIssueTransactional _ => true
  | _ => false

/-- Requests and workers, the other calls of the store, and writes of other parties to the tables
beside those of issues and stored responses. -/
inductive ServingStep (ω ι : Type)
  | system (action : SysAction ω ι ServiceRequest)
  | store (op : StoreOperation) (env : Env)
  | elsewhere (db : Db)

section StoreOperation

variable {codec : Codec} {env : Env} {db : Db} {op : StoreOperation}

theorem transaction_read {α ρ κ : Type} [LinearOrder κ] {T : TenantTable ρ κ} {workspaceId : Uuid}
    {wrap : DbError → StoreError} {p : ρ → Bool} {f : List ρ → α} :
    (transaction wrap env (do
      setWorkspaceContext wrap codec workspaceId
      let rows ← T.select codec wrap p
      return f rows) db).2 = db := by
  rcases transaction_cases wrap env _ db with ⟨e, he, _⟩ | ⟨a, t, _, h, _, he⟩
  · rw [he]
  · rw [he]
    obtain ⟨_, s₁, h₁, h⟩ := Tx.bind_eq_ok.mp h
    obtain ⟨_, rfl⟩ := setWorkspaceContext_eq_ok.mp h₁
    obtain ⟨rows, s₂, h₂, h⟩ := Tx.bind_eq_ok.mp h
    obtain ⟨_, _, rfl⟩ := TenantTable.select_eq_ok.mp h₂
    cases h
    rfl

def Db.KeepsIssues (db db' : Db) : Prop :=
  db'.issues = db.issues ∧ ∀ r ∈ db'.idempotencyRecords, r ∈ db.idempotencyRecords

theorem Db.KeepsIssues.refl (db : Db) : db.KeepsIssues db := ⟨rfl, fun _ hr => hr⟩

theorem keepsIssues_of_mark {mark : LeaseTransition} {result : Except StoreError Unit} {db' : Db}
    (h : mark.run codec env db = (result, db')) : db.KeepsIssues db' := by
  rcases LeaseTransition.run_cases codec mark env db with ⟨e, he⟩ | ⟨_, _, _, _, v, he, _⟩
  · rw [he] at h
    cases h
    exact .refl db
  · rw [he] at h
    cases h
    exact ⟨rfl, fun _ hr => hr⟩

theorem StoreOperation.keepsIssues_run (h : op.createsIssue = false) :
    db.KeepsIssues (op.run codec env db).2 := by
  cases op with
  | createIssueTransactional call => cases h
  | getIssue auth issueId =>
      rcases getIssue_cases codec auth issueId env db with ⟨_, he⟩ | ⟨_, d, he⟩
      · rw [run, Prod.map_snd, he]
        exact .refl db
      · rw [run, Prod.map_snd, he]
        exact .refl db
  | createProject auth input now =>
      rcases createProject_cases codec auth input now env db with he | ⟨u, _, _, he⟩
      · rw [run, Prod.map_snd, he]
        exact .refl db
      · rw [run, Prod.map_snd, he]
        exact ⟨rfl, fun _ hr => hr⟩
  | getProject auth projectId =>
      have hdb : (WorkspaceRepository.getProject codec auth projectId env db).2 = db := transaction_read
      rw [run, Prod.map_snd, hdb]
      exact .refl db
  | createWorkspace auth input now =>
      rcases createWorkspace_cases codec auth input now env db with he | ⟨u, _, _, he⟩
      · rw [run, Prod.map_snd, he]
        exact .refl db
      · rw [run, Prod.map_snd, he]
        exact ⟨rfl, fun _ hr => hr⟩
  | getWorkspace auth workspaceId =>
      have hdb : (WorkspaceRepository.getWorkspace codec auth workspaceId env db).2 = db :=
        transaction_read
      rw [run, Prod.map_snd, hdb]
      exact .refl db
  | leaseOutboxBatch call =>
      rcases leaseOutboxBatch_cases codec call env db with ⟨e, he⟩ | ⟨_, v, he, _⟩
      · rw [run, Prod.map_snd, he]
        exact .refl db
      · rw [run, Prod.map_snd, he]
        exact ⟨rfl, fun _ hr => hr⟩
  | markOutboxDelivered auth outboxId leaseToken leaseOwner now =>
      exact @keepsIssues_of_mark codec env db
        (deliveredMark auth outboxId leaseToken leaseOwner now) _ _ rfl
  | markOutboxFailed auth outboxId failure =>
      exact @keepsIssues_of_mark codec env db (failedMark auth outboxId failure) _ _ rfl
  | cleanupOutbox auth deliveredBefore deadLetterBefore =>
      rcases cleanupOutbox_cases codec auth deliveredBefore deadLetterBefore env db with
        ⟨e, he⟩ | ⟨n, he⟩
      · rw [run, Prod.map_snd, he]
        exact .refl db
      · rw [run, Prod.map_snd, he]
        exact ⟨rfl, fun _ hr => hr⟩
  | cleanupIdempotency auth expiresBefore =>
      rcases cleanupIdempotency_cases codec auth expiresBefore env db with ⟨e, he⟩ | ⟨n, he⟩
      · rw [run, Prod.map_snd, he]
        exact .refl db
      · rw [run, Prod.map_snd, he]
        exact ⟨rfl, fun _ hr => (Table.mem_filter.mp hr).1⟩

end StoreOperation

namespace Program

variable {ω σ ι γ : Type} [DecidableEq ω]

def servingStep (P : Program ω σ ι γ) (s : Sys ω σ) : ServingStep ω ι → Option (Sys ω σ)
  | .system action => (P.serving RoleMatrixPolicy.standard).step s action
  | .store op env =>
      if op.createsIssue then none else some { s with db := (op.run P.codec env s.db).2 }
  | .elsewhere db => some { s with db := { db with
      issues := s.db.issues
      idempotencyRecords := s.db.idempotencyRecords } }

abbrev ServingRun (P : Program ω σ ι γ) : Sys ω σ → List (ServingStep ω ι) → Sys ω σ → Prop :=
  Run P.servingStep

section Runs

variable {P : Program ω σ ι γ} {s t : Sys ω σ} {a : ServingStep ω ι} {as : List (ServingStep ω ι)}

theorem prepare_of_serviceClient {codec : Codec} {policy : PolicyEngine} {r : ServiceRequest}
    {call : CreateIssueCall} (h : (serviceClient codec policy).call r = some call) :
    IssueAppService.prepare codec policy r.auth r.request r.generated = .ok call := by
  have hoption : (IssueAppService.prepare codec policy r.auth r.request r.generated).toOption =
      some call := h
  cases hprepare : IssueAppService.prepare codec policy r.auth r.request r.generated with
  | error e =>
      rw [hprepare] at hoption
      cases hoption
  | ok call' =>
      rw [hprepare] at hoption
      cases hoption
      rfl

/-- A step keeps the issues, and stores no response but that of a request whose issue it inserts. -/
theorem servingStep_issues (h : P.servingStep s a = some t) :
    (∀ i ∈ s.db.issues, i ∈ t.db.issues) ∧ ∀ record ∈ t.db.idempotencyRecords,
      record ∈ s.db.idempotencyRecords ∨ ∃ request, StoredFor P.codec request record t.db := by
  have hkeeps : s.db.KeepsIssues t.db → (∀ i ∈ s.db.issues, i ∈ t.db.issues) ∧
      ∀ record ∈ t.db.idempotencyRecords, record ∈ s.db.idempotencyRecords ∨
        ∃ request, StoredFor P.codec request record t.db := by
    rintro ⟨hissues, hrecords⟩
    exact ⟨fun i hi => hissues ▸ hi, fun record hr => Or.inl (hrecords record hr)⟩
  cases a with
  | system action =>
      have heffect := db_of_step ((P.serving RoleMatrixPolicy.standard).step_effect h)
      generalize t.db = db' at heffect hkeeps ⊢
      cases heffect with
      | leases => exact hkeeps ⟨rfl, fun _ hr => hr⟩
      | @created r call _ hcall hfresh =>
          refine ⟨fun i hi => (hfresh.mem_issues i).mpr (Or.inr hi), fun record hr => ?_⟩
          rcases (hfresh.records record).mp hr with rfl | hr
          · exact Or.inr ⟨_, storedFor_of_freshCreate (prepare_of_serviceClient hcall) hfresh⟩
          · exact Or.inl hr
      | leased hlease =>
          obtain ⟨ids, v, rfl, _⟩ := leaseOutboxBatch_ok hlease
          exact hkeeps ⟨rfl, fun _ hr => hr⟩
      | applied _ _ hrun => exact hkeeps (keepsIssues_of_mark hrun)
      | cleanedOutbox => exact hkeeps ⟨rfl, fun _ hr => hr⟩
      | cleanedIdempotency => exact hkeeps ⟨rfl, fun _ hr => (Table.mem_filter.mp hr).1⟩
  | store op env =>
      simp only [servingStep] at h
      split_ifs at h with hop
      cases h
      exact hkeeps (StoreOperation.keepsIssues_run (Bool.eq_false_iff.mpr hop))
  | elsewhere db =>
      cases h
      exact hkeeps ⟨rfl, fun _ hr => hr⟩

theorem answers_of_run (h : P.ServingRun s as t) (hs : s.db.Answers P.codec) :
    t.db.Answers P.codec := by
  refine Run.invariant (P := fun s => s.db.Answers P.codec) (fun s a t hs ha record hr => ?_) h hs
  obtain ⟨hissues, hrecords⟩ := servingStep_issues ha
  rcases hrecords record hr with hr | hstored
  · obtain ⟨request, hstored⟩ := hs record hr
    exact ⟨request, hstored.mono hissues⟩
  · exact hstored

theorem mem_issues_of_run (h : P.ServingRun s as t) {i : IssueRow} (hi : i ∈ s.db.issues) :
    i ∈ t.db.issues :=
  Run.invariant (P := fun s => i ∈ s.db.issues)
    (fun _ _ _ hs ha => (servingStep_issues ha).1 i hs) h hi

end Runs

/-! ## The issue of a response -/

section Response

variable {codec : Codec} {env : Env} {db : Db} {r : ServiceRequest} {response : CreateIssueResponse}

theorem replay_of_branch {command : CreateIssueCommandV1} {record : IdempotencyRow} {issue : Issue}
    {result : CreateIssueWriteResult}
    (hdecode : codec.idempotencyResponseFromValue record.responsePayload = .ok issue)
    (h : branchOnStoredFingerprint codec command
      ⟨false, record.requestFingerprint, record.responsePayload⟩ = .ok result) :
    matchesRequestFingerprint codec record.requestFingerprint command = true ∧
      result = ⟨issue, true⟩ := by
  rw [branchOnStoredFingerprint_of_response hdecode, replayAnswer] at h
  split_ifs at h with hmatches
  cases h
  exact ⟨hmatches, rfl⟩

/-- A request that is answered has created its issue, or it has found a record under its key that its
fingerprint matches, and is answered with the response of that record. -/
theorem createIssue_ok_cases
    (h : (IssueAppService.createIssue codec RoleMatrixPolicy.standard r.auth r.request r.generated
      env db).1 = .ok response) :
    ∃ call, IssueAppService.prepare codec RoleMatrixPolicy.standard r.auth r.request r.generated =
        .ok call ∧
      ((response = ⟨mapIssueToDto (issueOfRow (issueRow call)), false⟩ ∧ r.record db = none ∧
          FreshCreate codec call db (IssueAppService.createIssue codec RoleMatrixPolicy.standard r.auth
            r.request r.generated env db).2) ∨
        ∃ record result, r.record db = some record ∧
          branchOnStoredFingerprint codec call.command
            ⟨false, record.requestFingerprint, record.responsePayload⟩ = .ok result ∧
          response = ⟨mapIssueToDto result.issue, result.idempotentReplay⟩ ∧
          (IssueAppService.createIssue codec RoleMatrixPolicy.standard r.auth r.request r.generated
            env db).2 = db) := by
  unfold IssueAppService.createIssue at h ⊢
  cases hcall : IssueAppService.prepare codec RoleMatrixPolicy.standard r.auth r.request r.generated with
  | error e =>
      rw [hcall] at h
      cases h
  | ok call =>
      obtain ⟨hworkspace, hvalue, _⟩ := call_of_prepare hcall
      have hrecord : r.record db = db.idempotencyRecords.find? (idempotencyRowKey call.command) := by
        rw [ServiceRequest.record, idempotencyRowKey, hworkspace, hvalue]
      rw [hcall] at h
      refine ⟨call, rfl, ?_⟩
      rw [hrecord]
      simp only at h ⊢
      rcases createIssueTransactional_cases codec call env db with
        ⟨e, he, _⟩ | ⟨record, hfind, _, he⟩ | ⟨db', hfresh, he⟩
      · rw [he] at h
        cases h
      · rw [he] at h ⊢
        cases hbranch : branchOnStoredFingerprint codec call.command
            ⟨false, record.requestFingerprint, record.responsePayload⟩ with
        | error e =>
            rw [hbranch] at h
            cases h
        | ok result =>
            rw [hbranch] at h
            cases h
            exact Or.inr ⟨record, result, hfind, hbranch, rfl, rfl⟩
      · rw [he] at h ⊢
        cases h
        exact Or.inl ⟨rfl, hfresh.unreserved, hfresh⟩

theorem returned_issue (hdb : db.Answers codec)
    (h : (IssueAppService.createIssue codec RoleMatrixPolicy.standard r.auth r.request r.generated
      env db).1 = .ok response) :
    ∃ row ∈ (IssueAppService.createIssue codec RoleMatrixPolicy.standard r.auth r.request r.generated
        env db).2.issues,
      response.issue = mapIssueToDto (issueOfRow row) ∧ row.workspaceId = r.auth.workspaceId := by
  obtain ⟨call, hcall, ⟨rfl, _, hfresh⟩ | ⟨record, result, hrecord, hbranch, rfl, hsame⟩⟩ :=
    createIssue_ok_cases h
  · exact ⟨issueRow call, (hfresh.mem_issues _).mpr (Or.inl rfl), rfl, (call_of_prepare hcall).1⟩
  · obtain ⟨hmem, hkey⟩ := Table.find?_eq_some.mp hrecord
    obtain ⟨q, hstored⟩ := hdb record hmem
    obtain ⟨row, hrow, hworkspace, _, hresponse⟩ := hstored.response
    obtain ⟨_, rfl⟩ := replay_of_branch hresponse hbranch
    rw [hsame]
    refine ⟨row, hrow, rfl, hworkspace.trans ?_⟩
    exact congrArg (fun key => (ofLex key).1) hkey

/-- A request for which the record under the key was stored has the fields of the replayed issue. -/
theorem described_of_replay
    (h : (IssueAppService.createIssue codec RoleMatrixPolicy.standard r.auth r.request r.generated
      env db).1 = .ok response) {record : IdempotencyRow} {q : CreateIssueRequest}
    (hrecord : r.record db = some record) (hstored : StoredFor codec q record db) :
    q.Describes response.issue := by
  obtain ⟨row, _, _, hdescribes, hresponse⟩ := hstored.response
  obtain ⟨call, _, ⟨_, hnone, _⟩ | ⟨found, result, hfound, hbranch, rfl, _⟩⟩ := createIssue_ok_cases h
  · rw [hrecord] at hnone
    cases hnone
  · rw [hrecord] at hfound
    cases hfound
    obtain ⟨_, rfl⟩ := replay_of_branch hresponse hbranch
    exact hdescribes

/-- The issue of a response has the fields of the request, unless the request finds a confusable record. -/
theorem describes_returned (htext : HexUuidTexts codec) (hdb : db.Answers codec)
    (hdigest : ∀ record q, r.record db = some record → StoredFor codec q record db →
      CreateIssueRequest.ToldApart codec q r.request) (hclear : ¬r.FindsConfusable codec db)
    (h : (IssueAppService.createIssue codec RoleMatrixPolicy.standard r.auth r.request r.generated
      env db).1 = .ok response) : r.request.Describes response.issue := by
  obtain ⟨call, hcall, ⟨rfl, _⟩ | ⟨record, result, hrecord, hbranch, rfl, _⟩⟩ := createIssue_ok_cases h
  · obtain ⟨_, _, _, _, hdescribes⟩ := call_of_prepare hcall
    exact hdescribes
  · obtain ⟨_, _, hfingerprint, hissued, _⟩ := call_of_prepare hcall
    obtain ⟨q, hstored⟩ := hdb record (Table.find?_eq_some.mp hrecord).1
    obtain ⟨row, _, _, hdescribes, hresponse⟩ := hstored.response
    obtain ⟨hmatches, rfl⟩ := replay_of_branch hresponse hbranch
    rcases samePayload_of_matches htext (hdigest record q hrecord hstored) hstored hissued hfingerprint
      hmatches with hsame | ⟨other, hlegacy, hother, hconfusable⟩
    · exact hsame.describes hdescribes
    · exact absurd ⟨record, q, call.command, other, hrecord, hstored, hlegacy, hother, hissued,
        hconfusable⟩ hclear

theorem not_describes_returned (hfinds : r.FindsConfusable codec db)
    (h : (IssueAppService.createIssue codec RoleMatrixPolicy.standard r.auth r.request r.generated
      env db).1 = .ok response) : ¬r.request.Describes response.issue := by
  intro hdescribes
  obtain ⟨record, q, command, other, hrecord, hstored, _, hother, hissued, hconfusable⟩ := hfinds
  have hsame := hdescribes.samePayload (described_of_replay h hrecord hstored)
  exact hconfusable.not_samePayload ((hissued.samePayload_iff hother).mpr hsame)

end Response

/-- What reading the issue of a response gives, under the workspace of its request and under another. -/
structure ReadsBack (codec : Codec) (r : ServiceRequest) (issue : IssueDto) (db : Db) : Prop where
  own : ∀ auth env, auth.workspaceId = r.auth.workspaceId →
    (IssueAppService.getIssue codec RoleMatrixPolicy.standard auth issue.id env db).1 =
      if allowed env.faults 4 then .ok ⟨issue⟩ else .error (.internal "store_read_failed")
  other : ∀ auth env, auth.workspaceId ≠ r.auth.workspaceId →
    (IssueAppService.getIssue codec RoleMatrixPolicy.standard auth issue.id env db).1 =
      if allowed env.faults 4 then .error (IssueAppService.issueNotFound codec issue.id)
      else .error (.internal "store_read_failed")
  request : r.request.Describes issue

/-- Once a request has returned an issue, every later read under its workspace gives that issue as it
was returned and no other workspace finds it. The issue has the fields of the request exactly when the
request has not found a confusable record under its key. -/
theorem readYourWrites_iff (P : Program ω σ ι γ) (htext : HexUuidTexts P.codec) (db : Db)
    (hdb : db.Answers P.codec) (before : List (ServingStep ω ι)) (r : ServiceRequest) (s : Sys ω σ)
    (response : CreateIssueResponse)
    (hbefore : P.ServingRun ((P.serving RoleMatrixPolicy.standard).initial db) before s)
    (hresponse : (IssueAppService.createIssue P.codec RoleMatrixPolicy.standard r.auth r.request
      r.generated r.env s.db).1 = .ok response)
    (hdigest : ∀ record q, r.record s.db = some record → StoredFor P.codec q record s.db →
      CreateIssueRequest.ToldApart P.codec q r.request) :
    (∀ after t, P.ServingRun s (.system (.request r) :: after) t →
      ReadsBack P.codec r response.issue t.db) ↔ ¬r.FindsConfusable P.codec s.db := by
  have hanswers := answers_of_run hbefore hdb
  constructor
  · intro hreads hfinds
    exact not_describes_returned hfinds hresponse (hreads [] _ (.single rfl)).request
  · intro hclear after t hafter
    obtain ⟨row, hrow, hissue, hworkspace⟩ := returned_issue hanswers hresponse
    have hread : row ∈ t.db.issues := by
      obtain ⟨u, hu, hrest⟩ := Run.cons_iff.mp hafter
      cases hu
      exact mem_issues_of_run hrest hrow
    have hid : response.issue.id = row.id := by
      rw [hissue]
      rfl
    refine ⟨fun auth env hauth => ?_, fun auth env hauth => ?_,
      describes_returned htext hanswers hdigest hclear hresponse⟩
    · rw [serviceGetIssue_eq, hauth, ← hworkspace, hid, Db.issueOf_own hread, hissue]
      rfl
    · rw [← hworkspace] at hauth
      rw [serviceGetIssue_eq, hid, Db.issueOf_other hread hauth]
      rfl

/-! ## A database with a record of the old version -/

def hyphenatedProgram : Program Unit Unit Unit (CreateIssueCall × Env) :=
  { noopProgram with
    codec := Codec.hyphenated
    client := storeClient Codec.hyphenated
    registry := defaultRegistry Codec.hyphenated }

def olderCall : CreateIssueCall :=
  { retriedCall 3 0 with
    command := { retriedCommand 3 with
      idempotencyKey := ⟨"old", by rfl⟩
      title := "a"
      description := some "|description=" } }

def olderRecord : IdempotencyRow :=
  { storedRecord Codec.hyphenated olderCall with
    requestFingerprint := legacyV1Fingerprint Codec.hyphenated olderCall.command }

def olderDb : Db :=
  { projectDb with
    issues := ⟨[issueRow olderCall], by decide, by decide⟩
    idempotencyRecords := ⟨[olderRecord], by decide, by decide +kernel⟩ }

def olderRequest (title : String) (description : Option String) : ServiceRequest where
  auth := ⟨1, 9⟩
  request := ⟨"old", 2, none, title, description, .medium⟩
  generated := ⟨5, 5, 5, 0, ⟨0, 0, 5, 5⟩⟩
  env := .quiet

def replayedRequest : ServiceRequest := olderRequest "a" (some "|description=")

def shiftedRequest : ServiceRequest := olderRequest "a|description=" none

def olderIssue : IssueDto := mapIssueToDto (issueOfRow (issueRow olderCall))

theorem olderDb_answers : olderDb.Answers Codec.hyphenated := by
  intro record hr
  have hr : record ∈ [olderRecord] := hr
  rw [List.mem_singleton.mp hr]
  refine ⟨replayedRequest.request,
    ⟨issueRow olderCall, List.mem_singleton.mpr rfl, rfl, ⟨rfl, rfl, rfl, rfl, rfl⟩,
      response_of_storedRecord⟩, Or.inr ⟨olderCall.command, ⟨rfl, rfl, rfl, rfl, rfl⟩, rfl⟩⟩

def createdBefore : List (ServingStep Unit Unit) := [.system (.request (servedRequest 4))]

def deliveredAfter : List (ServingStep Unit Unit) :=
  [.store (.createWorkspace ⟨2, 8⟩ ⟨2, "two"⟩ 0) .quiet, .system (.acquire () 0 .quiet),
    .system (.start ()), .system (.cycle () 0 (.lease 0 7 .quiet)),
    .system (.cycle () 0 (.dispatch 0 ())), .system (.cycle () 0 (.apply ⟨.quiet, 1, 0⟩))]

def hyphenatedService : Program Unit Unit Unit ServiceRequest :=
  hyphenatedProgram.serving RoleMatrixPolicy.standard

theorem replayed_run : ∃ s t,
    hyphenatedProgram.ServingRun (hyphenatedService.initial olderDb) createdBefore s ∧
    hyphenatedProgram.ServingRun s (.system (.request replayedRequest) :: deliveredAfter) t ∧
    (IssueAppService.createIssue Codec.hyphenated RoleMatrixPolicy.standard ⟨1, 9⟩
      replayedRequest.request replayedRequest.generated .quiet s.db).1 = .ok ⟨olderIssue, true⟩ := by
  have hrun : (createdBefore.foldlM hyphenatedProgram.servingStep
      (hyphenatedService.initial olderDb)).any (fun s =>
        ((.system (.request replayedRequest) :: deliveredAfter).foldlM
          hyphenatedProgram.servingStep s).isSome &&
        (IssueAppService.createIssue Codec.hyphenated RoleMatrixPolicy.standard ⟨1, 9⟩
          replayedRequest.request replayedRequest.generated .quiet s.db).1 =
            .ok ⟨olderIssue, true⟩) = true := by
    decide +kernel
  rw [Option.any_eq_true] at hrun
  obtain ⟨s, hs, hrun⟩ := hrun
  rw [Bool.and_eq_true, Option.isSome_iff_exists] at hrun
  obtain ⟨⟨t, ht⟩, hresponse⟩ := hrun
  exact ⟨s, t, Run.of_foldlM hs, Run.of_foldlM ht, of_decide_eq_true hresponse⟩

/-- The old record is replayed for the payload it was stored for, and its issue is read back after a
create of another key and a worker cycle. -/
theorem readYourWrites_iff_replayed : olderDb.Answers Codec.hyphenated ∧ ∃ s t,
    hyphenatedProgram.ServingRun (hyphenatedService.initial olderDb) createdBefore s ∧
    (IssueAppService.createIssue Codec.hyphenated RoleMatrixPolicy.standard ⟨1, 9⟩
      replayedRequest.request replayedRequest.generated .quiet s.db).1 = .ok ⟨olderIssue, true⟩ ∧
    hyphenatedProgram.ServingRun s (.system (.request replayedRequest) :: deliveredAfter) t ∧
    ReadsBack Codec.hyphenated replayedRequest olderIssue t.db := by
  obtain ⟨s, t, hbefore, hafter, hresponse⟩ := replayed_run
  have htext : HexUuidTexts Codec.hyphenated := fun u c hc => Uuid.mem_hyphenated hc
  have hdescribes : replayedRequest.request.Describes olderIssue := ⟨rfl, rfl, rfl, rfl, rfl⟩
  have hdigest : ∀ record q, replayedRequest.record s.db = some record →
      StoredFor Codec.hyphenated q record s.db →
        CreateIssueRequest.ToldApart Codec.hyphenated q replayedRequest.request :=
    fun record q hrecord hstored _ => (fingerprintPayload_eq_iff _).mpr
      ((described_of_replay hresponse hrecord hstored).samePayload hdescribes)
  have hclear : ¬replayedRequest.FindsConfusable Codec.hyphenated s.db :=
    fun hfinds => not_describes_returned hfinds hresponse hdescribes
  have hreads := (readYourWrites_iff hyphenatedProgram htext olderDb olderDb_answers createdBefore
    replayedRequest s ⟨olderIssue, true⟩ hbefore hresponse hdigest).mpr hclear
  exact ⟨olderDb_answers, s, t, hbefore, hresponse, hafter, hreads deliveredAfter t hafter⟩

/-- The old record is also replayed for the title `a|description=` without a description. -/
theorem shiftedTitle_not_readsBack : olderDb.Answers Codec.hyphenated ∧
    (IssueAppService.createIssue Codec.hyphenated RoleMatrixPolicy.standard ⟨1, 9⟩
      shiftedRequest.request shiftedRequest.generated .quiet olderDb).1 = .ok ⟨olderIssue, true⟩ ∧
    olderIssue.title = "a" ∧ olderIssue.description = some "|description=" ∧
    ∃ t, hyphenatedProgram.ServingRun (hyphenatedService.initial olderDb)
        [.system (.request shiftedRequest)] t ∧
      ¬ReadsBack Codec.hyphenated shiftedRequest olderIssue t.db := by
  have hresponse : (IssueAppService.createIssue Codec.hyphenated RoleMatrixPolicy.standard ⟨1, 9⟩
      shiftedRequest.request shiftedRequest.generated .quiet olderDb).1 = .ok ⟨olderIssue, true⟩ := by
    decide +kernel
  refine ⟨olderDb_answers, hresponse, rfl, rfl, _, .single rfl, fun h => ?_⟩
  have hne : "a" ≠ "a|description=" := by decide
  exact hne h.request.title

end Program
end Dandori
