import Dandori.IssueRepository
import Dandori.LabelledRun
import Dandori.OutboxRepository

/-!
# One create for each idempotency key

The record that a committed create leaves is rewritten by no later call and is deleted by no cleanup
before it has expired. While it is there, every call under its key reads the response that the create
stored, so no second create can commit within the seven days.
-/

namespace Dandori.IssueRepository

open OutboxRepository

/-- A create, or the cleanup of a worker whose clock showed `reading`; `time` is the time at which
the transaction takes effect. -/
inductive KeyCall
  | create (call : CreateIssueCall) (env : Env) (time : Timestamp)
  | cleanup (auth : AuthContext) (reading : Timestamp) (retention : Duration) (env : Env)
      (time : Timestamp)

namespace KeyCall

def run (codec : Codec) : KeyCall → Db → Db
  | create call env _, db => (createIssueTransactional codec call env db).2
  | cleanup auth reading retention env _, db =>
      (cleanupIdempotency codec auth (reading - retention) env db).2

def time : KeyCall → Timestamp
  | create _ _ time => time
  | cleanup _ _ _ _ time => time

/-- The clock does not run backwards within a call, and no retention is negative. -/
def Timely : KeyCall → Prop
  | create call _ time =>
      call.generated.idempotencyNow ≤ call.generated.expiresNow ∧ call.generated.expiresNow ≤ time
  | cleanup _ reading retention _ time => 0 ≤ retention ∧ reading ≤ time

theorem run_create (codec : Codec) (call : CreateIssueCall) (env : Env) (time : Timestamp) (db : Db) :
    (create call env time).run codec db = (createIssueTransactional codec call env db).2 := rfl

theorem run_cleanup (codec : Codec) (auth : AuthContext) (reading : Timestamp) (retention : Duration)
    (env : Env) (time : Timestamp) (db : Db) : (cleanup auth reading retention env time).run codec db =
      (cleanupIdempotency codec auth (reading - retention) env db).2 := rfl

end KeyCall

section Runs

variable (codec : Codec)

abbrev KeyRun : Db → List KeyCall → Db → Prop :=
  Run (fun db call => some (KeyCall.run codec call db))

/-- No stored record still has the payload of a reservation. -/
def Settled (db : Db) : Prop :=
  ∀ r ∈ db.idempotencyRecords, r.responsePayload ≠ placeholderPayload

/-- The answer to a call under the key of a stored fingerprint and issue. -/
def replayAnswer (fingerprint : String) (issue : Issue) (command : CreateIssueCommandV1) :
    Except StoreError CreateIssueWriteResult :=
  if matchesRequestFingerprint codec fingerprint command then .ok ⟨issue, true⟩
  else .error .idempotencyConflict

/-- A call that finds its key taken meets no database failure: none of its four statements fails, it
reserves a key of the caller's workspace, and the reservation passes the CHECKs of its columns. -/
structure Admitted (call : CreateIssueCall) (env : Env) : Prop where
  statements : allowed env.faults 4 = true
  workspace : call.auth.workspaceId = call.command.workspaceId
  checks : (reservationRow call).check = true

/-- `fresh` returned a new issue, and `later` runs under the same key after it and within seven days
of the reservation. -/
structure Follows (db : Db) (calls : List KeyCall) (fresh later : CreateIssueCall)
    (laterEnv : Env) (issue : Issue) (s : Db) : Prop where
  split : ∃ pre freshEnv freshTime mid laterTime post s₀,
    calls = pre ++ .create fresh freshEnv freshTime ::
      (mid ++ .create later laterEnv laterTime :: post) ∧
    KeyRun codec db pre s₀ ∧
    (createIssueTransactional codec fresh freshEnv s₀).1 = .ok ⟨issue, false⟩ ∧
    KeyRun codec db (pre ++ .create fresh freshEnv freshTime :: mid) s ∧
    laterTime < fresh.generated.idempotencyNow + days 7
  key : idempotencyRowKey later.command = idempotencyRowKey fresh.command

structure ExactlyOnce (db : Db) (calls : List KeyCall) : Prop where
  once : ∀ fresh later env issue s, Follows codec db calls fresh later env issue s →
    ∀ again, (createIssueTransactional codec later env s).1 ≠ .ok ⟨again, false⟩
  replays : ∀ fresh later env issue s, Follows codec db calls fresh later env issue s →
    Admitted later env → (createIssueTransactional codec later env s).1 =
      replayAnswer codec fresh.command.requestFingerprint issue later.command
  refuses : ∀ fresh later env issue s, Follows codec db calls fresh later env issue s →
    ¬Admitted later env → ∃ e, (createIssueTransactional codec later env s).1 = .error (.sqlx e)
  observes : Settled db → ∀ pre call env time post s reservation,
    calls = pre ++ .create call env time :: post → KeyRun codec db pre s →
      (transaction .sqlx env (createIssueTx codec call) s).1 = .ok (.inr reservation) →
        reservation.storedPayload ≠ placeholderPayload
  failed : ∀ pre call env time post s e, calls = pre ++ .create call env time :: post →
    KeyRun codec db pre s → (createIssueTransactional codec call env s).1 = .error e →
      (createIssueTransactional codec call env s).2 = s

end Runs

/-! ## The stored record -/

def storedRecord (codec : Codec) (call : CreateIssueCall) : IdempotencyRow :=
  { reservationRow call with
    responsePayload := codec.idempotencyResponseToValue (issueOfRow (issueRow call)) }

section Record

variable {codec : Codec} {call later : CreateIssueCall} {env : Env} {db db' s : Db}
  {r : IdempotencyRow} {issue : Issue}

theorem FreshCreate.stored (h : FreshCreate codec call db db') :
    storedRecord codec call ∈ db'.idempotencyRecords := (h.records _).mpr (Or.inl rfl)

theorem FreshCreate.keeps_record (h : FreshCreate codec call db db')
    (hr : r ∈ db.idempotencyRecords) : r ∈ db'.idempotencyRecords := (h.records r).mpr (Or.inr hr)

theorem freshCreate_of_ok
    (h : (createIssueTransactional codec call env db).1 = .ok ⟨issue, false⟩) :
    issue = issueOfRow (issueRow call) ∧
      FreshCreate codec call db (createIssueTransactional codec call env db).2 := by
  rcases createIssueTransactional_cases codec call env db with
    ⟨e, he, _⟩ | ⟨row, _, _, he⟩ | ⟨db', hfresh, he⟩
  · rw [he] at h
    cases h
  · rw [he] at h
    simp only [branchOnStoredFingerprint] at h
    split_ifs at h
    split at h <;> cases h
  · rw [he] at h ⊢
    cases h
    exact ⟨rfl, hfresh⟩

theorem branchOnStoredFingerprint_of_response {fingerprint : String} {payload : Value}
    (hdecode : codec.idempotencyResponseFromValue payload = .ok issue)
    (command : CreateIssueCommandV1) :
    branchOnStoredFingerprint codec command ⟨false, fingerprint, payload⟩ =
      replayAnswer codec fingerprint issue command := by
  unfold branchOnStoredFingerprint replayAnswer
  simp only [hdecode]
  cases matchesRequestFingerprint codec fingerprint command <;> rfl

theorem response_of_storedRecord :
    codec.idempotencyResponseFromValue (storedRecord codec call).responsePayload =
      .ok (issueOfRow (issueRow call)) := by
  have hversion : (issueOfRow (issueRow call)).rowVersion = 0 := rfl
  exact codec.idempotencyResponseFromValue_toValue _ (by simp [hversion])

/-- Under the key of a stored record the upsert returns that record, unless the database refuses it. -/
theorem reserveIdempotency_run {t : TxState} {workspaceId : Uuid}
    (hs : t.setting = some (codec.uuidText workspaceId))
    (hrow : t.db.idempotencyRecords.find? (idempotencyRowKey call.command) = some r) :
    reserveIdempotency codec call t =
      if t.fails then .error (.sqlx .fault)
      else if call.command.workspaceId ≠ workspaceId then .error (.sqlx .rowLevelSecurity)
      else if (reservationRow call).check = false then .error (.sqlx .check)
      else .ok (⟨false, r.requestFingerprint, r.responsePayload⟩, t.next t.db) := by
  have hfind : (TenantTable.idempotency.get t.db).find?
      (TenantTable.idempotency.key (reservationRow call)) = some r := hrow
  have htenant : r.workspaceId = call.command.workspaceId :=
    (idempotencyRow_key_iff.mp (Table.find?_eq_some.mp hrow).2).1
  have hvisible (x : IdempotencyRow) :
      TenantTable.idempotency.visible codec t x = false ↔ x.workspaceId ≠ workspaceId := by
    rw [← Bool.not_eq_true, TenantTable.visible_iff _ codec hs]
  have hrefused : TenantTable.idempotency.visible codec t (reservationRow call) = false ∨
      TenantTable.idempotency.visible codec t r = false ↔ call.command.workspaceId ≠ workspaceId := by
    rw [hvisible, hvisible, htenant]
    exact or_self_iff
  have hkept : (TenantTable.idempotency.get t.db).update?
      (fun x => TenantTable.idempotency.key x = TenantTable.idempotency.key (reservationRow call))
      keepExpiry.apply keepExpiry.key_apply = some (TenantTable.idempotency.get t.db) :=
    Table.update?_id
  unfold reserveIdempotency TenantTable.upsert statement
  simp only [Tx.bind_run, hfind, hrefused, hkept]
  split_ifs <;> rfl

/-- The transaction of a call under the key of a stored record commits exactly when the call is
admitted, and then it has read that record and changed nothing. -/
theorem createIssueTx_of_stored (codec : Codec) (env : Env)
    (hrow : db.idempotencyRecords.find? (idempotencyRowKey call.command) = some r) :
    (Admitted call env ∧ transaction .sqlx env (createIssueTx codec call) db =
      (.ok (.inr ⟨false, r.requestFingerprint, r.responsePayload⟩), db)) ∨
    ¬Admitted call env ∧
      ∃ e, transaction .sqlx env (createIssueTx codec call) db = (.error (.sqlx e), db) := by
  have hallowed := allowed_four_iff codec call.auth.workspaceId env db
  have hreserve : reserveIdempotency codec call
      ((env.start db).scoped codec call.auth.workspaceId) = _ :=
    reserveIdempotency_run (TxState.scoped_setting _ codec call.auth.workspaceId) hrow
  have hcommits : Admitted call env → transaction .sqlx env (createIssueTx codec call) db =
      (.ok (.inr ⟨false, r.requestFingerprint, r.responsePayload⟩), db) := by
    intro h
    obtain ⟨hbegin, hset, hupsert, hcommit⟩ := hallowed.mp h.statements
    have hchecks : ¬(reservationRow call).check = false := by simp [h.checks]
    rw [if_neg (Bool.eq_false_iff.mp hupsert), if_neg (not_not.mpr h.workspace.symm),
      if_neg hchecks] at hreserve
    have hcontext : setWorkspaceContext .sqlx codec call.auth.workspaceId (env.start db) =
        .ok ((), (env.start db).scoped codec call.auth.workspaceId) :=
      setWorkspaceContext_eq_ok.mpr ⟨hset, rfl⟩
    exact transaction_of_body hbegin
      (Tx.bind_eq_ok.mpr ⟨(), _, hcontext, Tx.bind_eq_ok.mpr ⟨_, _, hreserve, rfl⟩⟩) hcommit
  rcases transaction_cases .sqlx env (createIssueTx codec call) db with
    ⟨e, he, hcause⟩ | ⟨out, t, hbegin, hbody, ht, he⟩
  · refine Or.inr ⟨fun h => ?_, ?_⟩
    · rw [hcommits h] at he
      cases he
    · rw [he]
      rcases hcause with ⟨d, rfl⟩ | hbody
      · exact ⟨d, rfl⟩
      · rcases createIssueTx_error hbody with ⟨d, rfl⟩ | hnone
        · exact ⟨d, rfl⟩
        · rw [Env.start_db, hrow] at hnone
          cases hnone
  · obtain ⟨_, s₁, hcontext, hbody⟩ := Tx.bind_eq_ok.mp hbody
    obtain ⟨hset, rfl⟩ := setWorkspaceContext_eq_ok.mp hcontext
    obtain ⟨reservation, s₂, h₂, hbody⟩ := Tx.bind_eq_ok.mp hbody
    rw [hreserve] at h₂
    split_ifs at h₂ with hupsert hworkspace hchecks
    cases h₂
    cases hbody
    have hadmitted : Admitted call env := by
      refine ⟨hallowed.mpr ⟨hbegin, hset, Bool.eq_false_iff.mpr hupsert, ht⟩, ?_, by simpa using hchecks⟩
      exact (not_not.mp hworkspace).symm
    exact Or.inl ⟨hadmitted, hcommits hadmitted⟩

/-- Under the key of a committed create an admitted call gets the stored answer, and any other call
fails at the database. -/
theorem createIssueTransactional_of_stored
    (hkey : idempotencyRowKey later.command = idempotencyRowKey call.command)
    (hstored : storedRecord codec call ∈ db.idempotencyRecords) :
    (Admitted later env ∧ (createIssueTransactional codec later env db).1 =
      replayAnswer codec call.command.requestFingerprint (issueOfRow (issueRow call)) later.command) ∨
    ¬Admitted later env ∧ ∃ e, (createIssueTransactional codec later env db).1 = .error (.sqlx e) := by
  have hfind : db.idempotencyRecords.find? (idempotencyRowKey later.command) =
      some (storedRecord codec call) := by
    rw [Table.find?_eq_some]
    exact ⟨hstored, hkey.symm⟩
  unfold createIssueTransactional
  rcases createIssueTx_of_stored codec env hfind with ⟨hadmitted, h⟩ | ⟨hadmitted, e, h⟩
  · rw [h]
    exact Or.inl ⟨hadmitted, branchOnStoredFingerprint_of_response response_of_storedRecord _⟩
  · rw [h]
    exact Or.inr ⟨hadmitted, e, rfl⟩

theorem replayAnswer_ne_fresh (fingerprint : String) (again : Issue)
    (command : CreateIssueCommandV1) :
    replayAnswer codec fingerprint issue command ≠ .ok ⟨again, false⟩ := by
  unfold replayAnswer
  split_ifs <;> simp

end Record

/-! ## What one call does to a record -/

section Steps

variable {codec : Codec} {c : KeyCall} {db s t : Db} {calls : List KeyCall} {r : IdempotencyRow}

/-- A record stays as it is until its end has passed. -/
theorem KeyCall.mem_run (hc : c.Timely) (hr : r ∈ db.idempotencyRecords)
    (htime : c.time < r.expiresAt) : r ∈ (c.run codec db).idempotencyRecords := by
  cases c with
  | create call env time =>
      rw [run_create]
      rcases createIssueTransactional_cases codec call env db with
        ⟨e, he, _⟩ | ⟨row, _, _, he⟩ | ⟨db', hfresh, he⟩
      · rw [he]
        exact hr
      · rw [he]
        exact hr
      · rw [he]
        exact hfresh.keeps_record hr
  | cleanup auth reading retention env time =>
      rw [run_cleanup]
      rcases cleanupIdempotency_cases codec auth (reading - retention) env db with ⟨e, he⟩ | ⟨n, he⟩
      · rw [he]
        exact hr
      · rw [he]
        refine Table.mem_filter.mpr ⟨hr, ?_⟩
        have hcutoff : reading - retention ≤ time := (Int.sub_le_self reading hc.1).trans hc.2
        have hkept : ¬r.expiresAt < reading - retention :=
          not_lt.mpr (hcutoff.trans (le_of_lt htime))
        simp [isExpiredRecord, hkept]

theorem KeyCall.settled_run (hs : Settled db) : Settled (c.run codec db) := by
  intro r hr
  cases c with
  | create call env time =>
      rw [run_create] at hr
      rcases createIssueTransactional_cases codec call env db with
        ⟨e, he, _⟩ | ⟨row, _, _, he⟩ | ⟨db', hfresh, he⟩
      · rw [he] at hr
        exact hs r hr
      · rw [he] at hr
        exact hs r hr
      · rw [he] at hr
        rcases (hfresh.records r).mp hr with rfl | hr
        · simp [Codec.idempotencyResponseToValue, placeholderPayload]
        · exact hs r hr
  | cleanup auth reading retention env time =>
      rw [run_cleanup] at hr
      rcases cleanupIdempotency_cases codec auth (reading - retention) env db with ⟨e, he⟩ | ⟨n, he⟩
      · rw [he] at hr
        exact hs r hr
      · rw [he] at hr
        exact hs r (Table.mem_filter.mp hr).1

theorem settled_of_run (h : KeyRun codec s calls t) (hs : Settled s) : Settled t := by
  refine Run.invariant ?_ h hs
  rintro s c t hs ⟨⟩
  exact KeyCall.settled_run hs

theorem mem_of_run (h : KeyRun codec s calls t) (hcalls : ∀ c ∈ calls, c.Timely ∧ c.time < r.expiresAt)
    (hr : r ∈ s.idempotencyRecords) : r ∈ t.idempotencyRecords := by
  refine Run.invariant_of (P := fun s => r ∈ s.idempotencyRecords)
    (C := fun c : KeyCall => c.Timely ∧ c.time < r.expiresAt) ?_ h hcalls hr
  rintro s c t hr ⟨hc, htime⟩ ⟨⟩
  exact c.mem_run hc hr htime

/-- The record of the fresh create is still there when the later call runs. -/
theorem Follows.stored {fresh later : CreateIssueCall} {env : Env} {issue : Issue}
    (h : Follows codec db calls fresh later env issue s) (htimely : ∀ c ∈ calls, c.Timely)
    (hsorted : calls.Pairwise (·.time ≤ ·.time)) :
    issue = issueOfRow (issueRow fresh) ∧ storedRecord codec fresh ∈ s.idempotencyRecords := by
  obtain ⟨pre, freshEnv, freshTime, mid, laterTime, post, s₀, rfl, hpre, hok, hmid, htime⟩ := h.split
  obtain ⟨hissue, hfresh⟩ := freshCreate_of_ok hok
  refine ⟨hissue, ?_⟩
  have hrest : KeyRun codec (createIssueTransactional codec fresh freshEnv s₀).2 mid s := by
    obtain ⟨t, ht, hrest⟩ := Run.append_iff.mp hmid
    rw [ht.deterministic hpre] at hrest
    exact Run.total_cons_iff.mp hrest
  refine mem_of_run hrest (fun c hc => ⟨htimely c (by simp [hc]), ?_⟩) hfresh.stored
  have hreading := (htimely (.create fresh freshEnv freshTime) (by simp)).1
  have hbefore : c.time ≤ laterTime := by
    have htail := (List.pairwise_cons.mp (List.pairwise_append.mp hsorted).2.1).2
    exact (List.pairwise_append.mp htail).2.2 c hc _ List.mem_cons_self
  have hlatest : fresh.generated.idempotencyNow + days 7 ≤ fresh.generated.expiresNow + days 7 :=
    Int.add_le_add_right hreading (days 7)
  exact lt_of_le_of_lt hbefore (lt_of_lt_of_le htime hlatest)

end Steps

/-- In every run of creates and cleanups under a clock that does not run backwards, a key is created
once within the seven days of its reservation and every other call gets the first answer. -/
theorem createIssue_exactlyOnce (codec : Codec) (db : Db) (calls : List KeyCall)
    (htimely : ∀ c ∈ calls, c.Timely) (hsorted : calls.Pairwise (·.time ≤ ·.time)) :
    ExactlyOnce codec db calls where
  once := by
    intro fresh later env issue s h again hagain
    obtain ⟨_, hstored⟩ := h.stored htimely hsorted
    rcases createIssueTransactional_of_stored h.key hstored with ⟨_, he⟩ | ⟨_, e, he⟩
    · rw [hagain] at he
      exact replayAnswer_ne_fresh _ _ _ he.symm
    · rw [hagain] at he
      cases he
  replays := by
    intro fresh later env issue s h hadmitted
    obtain ⟨rfl, hstored⟩ := h.stored htimely hsorted
    rcases createIssueTransactional_of_stored h.key hstored with ⟨_, he⟩ | ⟨hrefused, _⟩
    · exact he
    · exact absurd hadmitted hrefused
  refuses := by
    intro fresh later env issue s h hrefused
    obtain ⟨rfl, hstored⟩ := h.stored htimely hsorted
    rcases createIssueTransactional_of_stored h.key hstored with ⟨hadmitted, _⟩ | ⟨_, he⟩
    · exact absurd hadmitted hrefused
    · exact he
  observes := by
    rintro hs pre call env time post s reservation rfl hrun h
    have hsettled := settled_of_run hrun hs
    rcases transaction_cases .sqlx env (createIssueTx codec call) s with
      ⟨e, he, _⟩ | ⟨out, t, _, hbody, _, he⟩
    · rw [he] at h
      cases h
    · rw [he] at h
      cases h
      rcases createIssueTx_cases hbody with ⟨hout, _⟩ | ⟨row, hrow, _, hout, _⟩
      · cases hout
      · cases hout
        exact hsettled row (Table.find?_eq_some.mp hrow).1
  failed := by
    intro pre call env time post s e _ _ h
    rcases createIssueTransactional_cases codec call env s with
      ⟨e', he, _⟩ | ⟨row, _, _, he⟩ | ⟨db', _, he⟩
    · rw [he]
    · rw [he]
    · rw [he] at h
      cases h

/-! ## A call and its retry -/

def projectDb : Db :=
  { Db.empty with
    workspaces := Db.oneWorkspace
    workflowVersions := ⟨[⟨3, 1⟩], by decide, by decide⟩
    projects := ⟨[⟨2, 1, "project", 3, 0, 0, 0⟩], by decide, by decide⟩ }

def retriedCommand (issueId : Uuid) : CreateIssueCommandV1 where
  commandId := issueId
  idempotencyKey := ⟨"key", by rfl⟩
  requestFingerprint := "v2:1"
  issueId := issueId
  workspaceId := 1
  projectId := 2
  milestoneId := none
  title := "issue"
  description := none
  priority := .medium
  actorId := 9

def retriedEvent (issueId : Uuid) (now : Timestamp) : IssueCreatedEventV1 where
  eventId := issueId
  issueId := issueId
  workspaceId := 1
  projectId := 2
  milestoneId := none
  actorId := 9
  occurredAt := now
  title := "issue"
  description := none
  priority := .medium

def retriedCall (issueId : Uuid) (now : Timestamp) : CreateIssueCall where
  auth := ⟨1, 9⟩
  command := retriedCommand issueId
  event := retriedEvent issueId now
  generated := ⟨now, now, issueId, issueId⟩

example : (createIssueTransactional Codec.unary (retriedCall 4 0) .quiet projectDb).1 =
    .ok ⟨issueOfRow (issueRow (retriedCall 4 0)), false⟩ := by
  rfl

def conflictingCall : CreateIssueCall :=
  { retriedCall 6 3 with
    command := { retriedCommand 6 with requestFingerprint := "v2:2", title := "other" }
    event := { retriedEvent 6 3 with title := "other" } }

def retriedRun : List KeyCall :=
  [.create (retriedCall 4 0) .quiet 0, .cleanup ⟨1, 9⟩ 1 0 .quiet 1,
    .create (retriedCall 5 2) .quiet 2, .create conflictingCall .quiet 3]

theorem retriedRun_timely : ∀ c ∈ retriedRun, c.Timely := by
  simp [retriedRun, KeyCall.Timely, retriedCall, conflictingCall]

theorem retriedRun_sorted : retriedRun.Pairwise (·.time ≤ ·.time) := by
  simp [retriedRun, KeyCall.time]

def createdIssue : Issue := issueOfRow (issueRow (retriedCall 4 0))

theorem retriedRun_replay : ∃ s, Follows Codec.unary projectDb retriedRun (retriedCall 4 0)
    (retriedCall 5 2) .quiet createdIssue s := by
  refine ⟨_, ⟨[], .quiet, 0, [.cleanup ⟨1, 9⟩ 1 0 .quiet 1], 2, [.create conflictingCall .quiet 3],
    projectDb, rfl, .nil _, rfl, .cons rfl (.cons rfl (.nil _)), by decide⟩, rfl⟩

theorem retriedRun_conflict : ∃ s, Follows Codec.unary projectDb retriedRun (retriedCall 4 0)
    conflictingCall .quiet createdIssue s := by
  refine ⟨_, ⟨[], .quiet, 0, [.cleanup ⟨1, 9⟩ 1 0 .quiet 1, .create (retriedCall 5 2) .quiet 2], 3, [],
    projectDb, rfl, .nil _, rfl, .cons rfl (.cons rfl (.cons rfl (.nil _))), by decide⟩, rfl⟩

/-- The retry replays the created issue, and the other issue conflicts with it. -/
theorem createIssue_exactlyOnce_retriedRun :
    (∀ c ∈ retriedRun, c.Timely) ∧ retriedRun.Pairwise (·.time ≤ ·.time) ∧
      ExactlyOnce Codec.unary projectDb retriedRun ∧
      (∃ s, Follows Codec.unary projectDb retriedRun (retriedCall 4 0) (retriedCall 5 2) .quiet
          createdIssue s ∧
        (createIssueTransactional Codec.unary (retriedCall 5 2) .quiet s).1 =
          .ok ⟨createdIssue, true⟩) ∧
      ∃ s, Follows Codec.unary projectDb retriedRun (retriedCall 4 0) conflictingCall .quiet
          createdIssue s ∧
        (createIssueTransactional Codec.unary conflictingCall .quiet s).1 =
          .error .idempotencyConflict := by
  have honce := createIssue_exactlyOnce Codec.unary projectDb retriedRun retriedRun_timely
    retriedRun_sorted
  obtain ⟨s, hreplay⟩ := retriedRun_replay
  obtain ⟨t, hconflict⟩ := retriedRun_conflict
  refine ⟨retriedRun_timely, retriedRun_sorted, honce, ⟨s, hreplay, ?_⟩, t, hconflict, ?_⟩
  · exact honce.replays _ _ _ _ _ hreplay ⟨rfl, rfl, rfl⟩
  · exact honce.replays _ _ _ _ _ hconflict ⟨rfl, rfl, rfl⟩

end Dandori.IssueRepository
