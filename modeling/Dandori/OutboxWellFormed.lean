import Dandori.IdempotentCreate
import Dandori.LeaseFencing

/-!
# Well-formed outbox rows

The table lets the lease columns, the publication column and the attempts of a row be anything. The
statements that write them keep them in step with the status: a row has its lease columns just while
it is leased, a publication time once it is delivered, and an attempt for each recorded failure, within
the budget that all workers share. A mark therefore never finds a leased row that lacks a column, never
overflows the attempts, and updates the one row it has validated.
-/

namespace Dandori.OutboxRepository

/-- What the columns of a row say together when every worker uses `maxAttempts`. -/
structure WellFormed (maxAttempts : Int32) (r : OutboxRow) : Prop where
  leased : r.status = .leased → r.leasedAt.isSome ∧ r.leasedUntil.isSome ∧ r.leaseToken.isSome ∧
    r.leaseOwner.isSome
  free : r.status ≠ .leased → r.leasedAt = none ∧ r.leasedUntil = none ∧ r.leaseToken = none ∧
    r.leaseOwner = none
  published : r.publishedAt.isSome ↔ r.status = .delivered
  attempts : 0 ≤ r.attempts ∧ r.attempts ≤ maxAttempts
  pending : r.status = .pending → r.attempts = 0
  failed : r.status = .failed → 1 ≤ r.attempts ∧ r.attempts < maxAttempts
  unspent : r.status = .leased ∨ r.status = .delivered → r.attempts < maxAttempts
  deadLetter : r.status = .deadLetter → 1 ≤ r.attempts

/-- A step that may touch the outbox; `elsewhere` stands for everything that leaves it alone. -/
inductive OutboxStep
  | create (call : IssueRepository.CreateIssueCall) (env : Env)
  | outbox (call : OutboxCall)
  | cleanup (auth : AuthContext) (deliveredBefore deadLetterBefore : Timestamp) (env : Env)
  | elsewhere (db : Db)

namespace OutboxStep

def run (codec : Codec) : OutboxStep → Db → Db
  | create call env, db => (IssueRepository.createIssueTransactional codec call env db).2
  | outbox call, db => call.run codec db
  | cleanup auth deliveredBefore deadLetterBefore env, db =>
      (cleanupOutbox codec auth deliveredBefore deadLetterBefore env db).2
  | elsewhere db', db => { db' with outbox := db.outbox }

/-- A recorded failure counts against this budget. -/
def Uses (maxAttempts : Int32) : OutboxStep → Prop
  | outbox (.mark (.failed _ _ failure) _) => failure.maxAttempts = maxAttempts
  | _ => True

end OutboxStep

abbrev OutboxRun (codec : Codec) : Db → List OutboxStep → Db → Prop :=
  Run (fun db step => some (OutboxStep.run codec step db))

/-- Every row is well formed, a mark that has validated its lease updates one row, and no mark meets a
leased row without its lease columns. -/
structure OutboxWellFormed (codec : Codec) (maxAttempts : Int32) (db : Db) : Prop where
  rows : ∀ r ∈ db.outbox, WellFormed maxAttempts r
  budget : ∀ (mark : OutboxMark), ∀ r ∈ db.outbox, mark.transition.validate (leaseOfRow r) = .ok () →
    (r.attempts + 1).toInt = r.attempts.toInt + 1
  accepted : ∀ (mark : OutboxMark), ∀ r ∈ db.outbox,
    r.workspaceId = mark.transition.auth.workspaceId → r.id = mark.transition.outboxId →
      mark.transition.validate (leaseOfRow r) = .ok () →
        db.outbox.rows.filter mark.transition.guard = [r]
  singleRow : ∀ (mark : OutboxMark) env workspaceId outboxId n,
    (mark.run codec env db).1 ≠ .error (.outboxUpdateNotSingleRow workspaceId outboxId n)
  columns : ∀ (mark : OutboxMark) env workspaceId outboxId status,
    (mark.run codec env db).1 = .error (.outboxNotLeased workspaceId outboxId status) →
      status ≠ "leased"

/-! ## What one statement writes -/

section Rows

variable {codec : Codec} {maxAttempts : Int32} {r : OutboxRow}

theorem wellFormed_outboxRow (hmax : 1 ≤ maxAttempts) (call : IssueRepository.CreateIssueCall) :
    WellFormed maxAttempts (IssueRepository.outboxRow codec call) where
  leased h := by cases h
  free _ := ⟨rfl, rfl, rfl, rfl⟩
  published := by simp [IssueRepository.outboxRow]
  attempts := by
    have hzero : (IssueRepository.outboxRow codec call).attempts = 0 := rfl
    rw [hzero]
    refine ⟨by decide, ?_⟩
    rw [Int32.le_iff_toInt_le] at hmax ⊢
    exact le_trans (by decide) hmax
  pending _ := rfl
  failed h := by cases h
  unspent h := by rcases h with h | h <;> cases h
  deadLetter h := by cases h

/-- A due row has attempts left. -/
theorem WellFormed.lt_of_candidate {workspaceId : Uuid} {now : Timestamp} (hmax : 1 ≤ maxAttempts)
    (h : WellFormed maxAttempts r) (hcand : isCandidate workspaceId now r = true) :
    r.attempts < maxAttempts := by
  cases hstatus : r.status with
  | pending =>
      rw [h.pending hstatus, Int32.lt_iff_toInt_lt]
      rw [Int32.le_iff_toInt_le] at hmax
      exact lt_of_lt_of_le (by decide) hmax
  | leased => exact h.unspent (Or.inl hstatus)
  | failed => exact (h.failed hstatus).2
  | delivered => simp [isCandidate, hstatus] at hcand
  | deadLetter => simp [isCandidate, hstatus] at hcand

theorem WellFormed.unpublished_of_candidate {workspaceId : Uuid} {now : Timestamp}
    (h : WellFormed maxAttempts r) (hcand : isCandidate workspaceId now r = true) :
    r.publishedAt.isSome = false := by
  rw [Bool.eq_false_iff]
  intro hpublished
  have hstatus := h.published.mp hpublished
  simp [isCandidate, hstatus] at hcand

theorem WellFormed.lease (hmax : 1 ≤ maxAttempts) (h : WellFormed maxAttempts r) (call : LeaseCall)
    (hcand : isCandidate call.auth.workspaceId call.now r = true) :
    WellFormed maxAttempts (call.leased r) where
  leased _ := ⟨rfl, rfl, rfl, rfl⟩
  free hstatus := absurd rfl hstatus
  published := by
    have hpublished := h.unpublished_of_candidate hcand
    simpa [LeaseCall.leased] using hpublished
  attempts := h.attempts
  pending hstatus := by cases hstatus
  failed hstatus := by cases hstatus
  unspent _ := by
    have hlt := h.lt_of_candidate hmax hcand
    exact hlt
  deadLetter hstatus := by cases hstatus

theorem WellFormed.delivered (h : WellFormed maxAttempts r) (hleased : r.status = .leased)
    (now : Timestamp) : WellFormed maxAttempts ((deliveredUpdate now).apply r) where
  leased hstatus := by cases hstatus
  free _ := ⟨rfl, rfl, rfl, rfl⟩
  published := by simp [deliveredUpdate]
  attempts := h.attempts
  pending hstatus := by cases hstatus
  failed hstatus := by cases hstatus
  unspent _ := h.unspent (Or.inl hleased)
  deadLetter hstatus := by cases hstatus

/-- A leased row has room for one more attempt. -/
theorem WellFormed.toInt_add_one (h : WellFormed maxAttempts r) (hleased : r.status = .leased) :
    (r.attempts + 1).toInt = r.attempts.toInt + 1 := by
  rw [toInt_add_one_iff]
  intro hlast
  have hlt := Int32.lt_iff_toInt_lt.mp (h.unspent (Or.inl hleased))
  have hhigh := maxAttempts.toInt_lt
  rw [hlast] at hlt
  have hmax : Int32.maxValue.toInt = 2 ^ 31 - 1 := by decide
  omega

theorem WellFormed.failure (h : WellFormed maxAttempts r) (hleased : r.status = .leased)
    (auth : AuthContext) (outboxId : Uuid) (failure : OutboxFailureContext)
    (hbudget : failure.maxAttempts = maxAttempts) :
    WellFormed maxAttempts ((failedMark auth outboxId failure).written r) := by
  obtain ⟨hat, huntil, htoken, howner⟩ := written_failedMark_lease auth outboxId failure r
  have hstatus := written_failedMark_status auth outboxId failure r
  have hattempts := written_failedMark_attempts auth outboxId failure r
  have hpublished : ((failedMark auth outboxId failure).written r).publishedAt = r.publishedAt := by
    rw [written_failedMark]
    split <;> rfl
  have hone := h.toInt_add_one hleased
  have hnonneg := Int32.le_iff_toInt_le.mp h.attempts.1
  have hlt := Int32.lt_iff_toInt_lt.mp (h.unspent (Or.inl hleased))
  have hzero : (0 : Int32).toInt = 0 := rfl
  have hunit : (1 : Int32).toInt = 1 := rfl
  have hpos : 1 ≤ r.attempts + 1 := by
    rw [Int32.le_iff_toInt_le]
    omega
  have hnotLeased : ((failedMark auth outboxId failure).written r).status ≠ .leased := by
    rw [hstatus]
    split <;> simp
  refine ⟨fun hs => absurd hs hnotLeased, fun _ => ⟨hat, huntil, htoken, howner⟩, ?_, ?_, ?_, ?_,
    ?_, fun _ => hattempts ▸ hpos⟩
  · rw [hpublished, h.published, hleased, hstatus]
    split <;> simp
  · rw [hattempts, Int32.le_iff_toInt_le, Int32.le_iff_toInt_le]
    omega
  · intro hs
    rw [hstatus] at hs
    split at hs <;> cases hs
  · intro hs
    rw [hattempts]
    refine ⟨hpos, ?_⟩
    rw [hstatus] at hs
    split at hs
    · cases hs
    · next hretry =>
        rw [Int32.lt_iff_toInt_lt]
        simp only [OutboxFailureContext.deadLetterNow, Bool.or_eq_true, decide_eq_true_eq, hbudget,
          not_or] at hretry
        have hspent := hretry.2
        rw [Int32.le_iff_toInt_le] at hspent
        omega
  · intro hs
    rw [hstatus] at hs
    rcases hs with hs | hs
    · split at hs <;> cases hs
    · split at hs <;> cases hs

theorem WellFormed.mark {mark : OutboxMark} (h : WellFormed maxAttempts r)
    (hleased : r.status = .leased)
    (hbudget : ∀ env, (OutboxStep.outbox (.mark mark env)).Uses maxAttempts) :
    WellFormed maxAttempts (mark.transition.written r) := by
  cases mark with
  | delivered auth outboxId leaseToken leaseOwner now => exact h.delivered hleased now
  | failed auth outboxId failure => exact h.failure hleased auth outboxId failure (hbudget .quiet)

end Rows

/-! ## What a step keeps -/

section Steps

variable {codec : Codec} {maxAttempts : Int32} {db : Db}

theorem status_of_guard {mark : LeaseTransition} {r : OutboxRow} (h : mark.guard r = true) :
    r.status = .leased := by
  obtain ⟨_, _, hheld⟩ := LeaseTransition.guard_iff.mp h
  simp only [heldBy, Bool.and_eq_true, decide_eq_true_eq] at hheld
  exact hheld.1.1.1

theorem OutboxCall.wellFormed_run {c : OutboxCall} (hmax : 1 ≤ maxAttempts)
    (hc : (OutboxStep.outbox c).Uses maxAttempts) (hs : ∀ r ∈ db.outbox, WellFormed maxAttempts r) :
    ∀ r ∈ (c.run codec db).outbox, WellFormed maxAttempts r := by
  intro x hx
  cases c with
  | lease call env =>
      rw [run_lease] at hx
      rcases row_of_leaseOutboxBatch hx with hold | ⟨r, hr, hcandidate, rfl⟩
      · exact hs x hold
      · exact (hs r hr).lease hmax call hcandidate
  | mark m env =>
      rw [run_mark] at hx
      rcases LeaseTransition.run_cases codec m.transition env db with
        ⟨e, he⟩ | ⟨y, hy, hguard, _, v, he, _⟩
      · rw [he] at hx
        exact hs x hx
      · obtain ⟨r, hr, rfl⟩ := (LeaseTransition.mem_run_iff x he).mp (by rwa [he] at hx)
        split_ifs with hid
        · have hsame : y = r := Table.eq_of_key_eq hy hr
            ((LeaseTransition.guard_iff.mp hguard).2.1.trans hid.symm)
          rw [hsame] at hguard
          exact (hs r hr).mark (status_of_guard hguard) (fun _ => by cases m <;> exact hc)
        · exact hs r hr

theorem OutboxStep.wellFormed_run {step : OutboxStep} (hmax : 1 ≤ maxAttempts)
    (hstep : step.Uses maxAttempts) (hs : ∀ r ∈ db.outbox, WellFormed maxAttempts r) :
    ∀ r ∈ (step.run codec db).outbox, WellFormed maxAttempts r := by
  cases step with
  | create call env =>
      intro r hr
      rw [run] at hr
      rcases IssueRepository.createIssueTransactional_cases codec call env db with
        ⟨e, he, _⟩ | ⟨row, _, _, he⟩ | ⟨db', hfresh, he⟩
      · rw [he] at hr
        exact hs r hr
      · rw [he] at hr
        exact hs r hr
      · rw [he] at hr
        rcases ((Table.insert?_eq_some hfresh.outbox).2.2 r).mp hr with rfl | hr
        · exact wellFormed_outboxRow hmax call
        · exact hs r hr
  | outbox call => exact call.wellFormed_run hmax hstep hs
  | cleanup auth deliveredBefore deadLetterBefore env =>
      intro r hr
      rw [run] at hr
      rcases cleanupOutbox_cases codec auth deliveredBefore deadLetterBefore env db with
        ⟨e, he⟩ | ⟨n, he⟩
      · rw [he] at hr
        exact hs r hr
      · rw [he] at hr
        exact hs r (Table.mem_filter.mp hr).1
  | elsewhere db' => exact hs

end Steps

/-! ## What a mark can answer -/

section Answers

variable {codec : Codec} {maxAttempts : Int32} {db : Db} {r : OutboxRow}

theorem LeaseTransition.guard_of_validate {mark : LeaseTransition}
    (hworkspace : r.workspaceId = mark.auth.workspaceId) (hid : r.id = mark.outboxId)
    (h : mark.validate (leaseOfRow r) = .ok ()) : mark.guard r = true :=
  guard_iff.mpr ⟨hworkspace, hid, validate_eq_ok.mp h⟩

theorem LeaseTransition.filter_guard {mark : LeaseTransition} (hr : r ∈ db.outbox)
    (h : mark.guard r = true) : db.outbox.rows.filter mark.guard = [r] :=
  Table.rows_filter_eq_singleton (fun _ _ hx => (guard_iff.mp hx).2.1) hr h

theorem fetchLeaseForUpdate_eq_error {workspaceId outboxId : Uuid} {s : TxState} {e : StoreError}
    (h : fetchLeaseForUpdate codec workspaceId outboxId s = .error e) : ∃ d, e = .sqlx d := by
  unfold fetchLeaseForUpdate TenantTable.select at h
  rcases Tx.bind_eq_error.mp h with h | ⟨rows, t, _, h⟩
  · exact statement_eq_error h
  · cases h

/-- A mark fails in the database, on a missing row, on a foreign owner, or in the validation of the
lease; once the lease is validated only the database can refuse it. -/
theorem LeaseTransition.body_eq_error {mark : LeaseTransition} {s : TxState} {e : StoreError}
    (h : mark.body codec s = .error e) :
    (∃ d, e = .sqlx d) ∨ e = .outboxLeaseMissing mark.auth.workspaceId mark.outboxId ∨
      e = .outboxLeaseOwnerMismatch mark.auth.workspaceId mark.outboxId mark.auth.actorId
        mark.leaseOwner ∨
      ∃ r ∈ s.db.outbox, mark.validate (leaseOfRow r) = .error e := by
  have hpin : ∀ r : OutboxRow,
      (decide (r.workspaceId = mark.auth.workspaceId) && decide (r.id = mark.outboxId)) = true →
      r.id = mark.outboxId := fun r hr => by
    simp only [Bool.and_eq_true, decide_eq_true_eq] at hr
    exact hr.2
  unfold body at h
  rcases Tx.bind_eq_error.mp h with h | ⟨_, s₁, h₁, h⟩
  · exact Or.inl (setWorkspaceContext_eq_error h)
  obtain ⟨_, rfl⟩ := setWorkspaceContext_eq_ok.mp h₁
  rcases Tx.bind_eq_error.mp h with h | ⟨lease, s₂, h₂, h⟩
  · exact Or.inl (fetchLeaseForUpdate_eq_error h)
  obtain ⟨_, rfl, rfl⟩ := (fetchLeaseForUpdate_eq_ok (TxState.scoped_setting _ _ _)).mp h₂
  cases hrow : s.db.outbox.rows.find? (fun r =>
      r.workspaceId = mark.auth.workspaceId && r.id = mark.outboxId) with
  | none =>
      rw [TxState.scoped_db, hrow] at h
      cases h
      exact Or.inr (Or.inl rfl)
  | some r =>
      rw [TxState.scoped_db, hrow] at h
      simp only [Option.map_some] at h
      obtain ⟨hr, hid⟩ := (Table.rows_find?_eq_some (fun r _ => hpin r)).mp hrow
      simp only [Bool.and_eq_true, decide_eq_true_eq] at hid
      split_ifs at h with howner
      · cases h
        exact Or.inr (Or.inr (Or.inl rfl))
      · cases hvalid : mark.validate (leaseOfRow r) with
        | error e' =>
            rw [hvalid] at h
            cases h
            exact Or.inr (Or.inr (Or.inr ⟨r, hr, hvalid⟩))
        | ok _ =>
            rw [hvalid] at h
            have hguard := guard_of_validate hid.1 hid.2 hvalid
            rcases Tx.bind_eq_error.mp h with h | ⟨rows, s₃, h₃, h⟩
            · exact Or.inl (statement_eq_error h)
            · obtain ⟨_, rfl, _⟩ :=
                (update_eq_ok (s := mark.fetched codec s) rfl hr hguard).mp h₃
              rw [if_neg (by simp)] at h
              cases h

/-- A validation refuses a row of a well-formed table for its status, never for a missing column, and
never for the number of updated rows. -/
theorem LeaseTransition.validate_ne {mark : LeaseTransition} (h : WellFormed maxAttempts r)
    (workspaceId outboxId : Uuid) :
    mark.validate (leaseOfRow r) ≠ .error (.outboxNotLeased workspaceId outboxId "leased") ∧
      ∀ n, mark.validate (leaseOfRow r) ≠
        .error (.outboxUpdateNotSingleRow workspaceId outboxId n) := by
  by_cases hstatus : r.status = .leased
  · obtain ⟨_, huntil, htoken, howner⟩ := h.leased hstatus
    obtain ⟨leasedUntil, huntil⟩ := Option.isSome_iff_exists.mp huntil
    obtain ⟨token, htoken⟩ := Option.isSome_iff_exists.mp htoken
    obtain ⟨owner, howner⟩ := Option.isSome_iff_exists.mp howner
    simp only [validate, validateLeaseTransition, metadata, leaseOfRow, huntil, htoken, howner]
    have hleased : ¬r.status.asStr ≠ "leased" := not_not.mpr (OutboxStatus.asStr_eq_leased.mpr hstatus)
    constructor
    · split_ifs <;> simp
    · intro n
      split_ifs <;> simp
  · have hrefused : mark.validate (leaseOfRow r) =
        .error (.outboxNotLeased mark.auth.workspaceId mark.outboxId r.status.asStr) :=
      if_pos (mt OutboxStatus.asStr_eq_leased.mp hstatus)
    rw [hrefused]
    constructor
    · intro he
      injection he with he
      injection he with _ _ he
      exact hstatus (OutboxStatus.asStr_eq_leased.mp he)
    · intro n he
      cases he

theorem OutboxMark.run_eq_error {mark : OutboxMark} {env : Env} {e : StoreError}
    (h : (mark.run codec env db).1 = .error e) :
    (∃ d, e = .sqlx d) ∨ (∃ workspaceId outboxId, e = .outboxLeaseMissing workspaceId outboxId) ∨
      (∃ workspaceId outboxId expected actual,
        e = .outboxLeaseOwnerMismatch workspaceId outboxId expected actual) ∨
      ∃ r ∈ db.outbox, mark.transition.validate (leaseOfRow r) = .error e := by
  rw [mark.run_eq] at h
  rcases transaction_cases .sqlx env (mark.transition.body codec) db with
    ⟨e', he, hcause⟩ | ⟨_, _, _, _, _, he⟩
  · unfold LeaseTransition.run at h
    rw [he] at h
    cases h
    rcases hcause with hd | hbody
    · exact Or.inl hd
    · rcases LeaseTransition.body_eq_error hbody with hd | hmissing | howner | hrow
      · exact Or.inl hd
      · exact Or.inr (Or.inl ⟨_, _, hmissing⟩)
      · exact Or.inr (Or.inr (Or.inl ⟨_, _, _, _, howner⟩))
      · exact Or.inr (Or.inr (Or.inr hrow))
  · unfold LeaseTransition.run at h
    rw [he] at h
    cases h

theorem outboxWellFormed_of_rows (hrows : ∀ r ∈ db.outbox, WellFormed maxAttempts r) :
    OutboxWellFormed codec maxAttempts db where
  rows := hrows
  budget mark r hr hvalid := by
    have hheld := LeaseTransition.validate_eq_ok.mp hvalid
    simp only [heldBy, Bool.and_eq_true, decide_eq_true_eq] at hheld
    exact (hrows r hr).toInt_add_one hheld.1.1.1
  accepted mark r hr hworkspace hid hvalid :=
    LeaseTransition.filter_guard hr (LeaseTransition.guard_of_validate hworkspace hid hvalid)
  singleRow mark env workspaceId outboxId n h := by
    rcases OutboxMark.run_eq_error h with ⟨_, he⟩ | ⟨_, _, he⟩ | ⟨_, _, _, _, he⟩ | ⟨r, hr, hrow⟩
    · cases he
    · cases he
    · cases he
    · exact (LeaseTransition.validate_ne (hrows r hr) workspaceId outboxId).2 n hrow
  columns mark env workspaceId outboxId status h := by
    rintro rfl
    rcases OutboxMark.run_eq_error h with ⟨_, he⟩ | ⟨_, _, he⟩ | ⟨_, _, _, _, he⟩ | ⟨r, hr, hrow⟩
    · cases he
    · cases he
    · cases he
    · exact (LeaseTransition.validate_ne (hrows r hr) workspaceId outboxId).1 hrow

end Answers

/-- Under one budget every state reached from an empty outbox has well-formed rows, and its marks
neither overflow the attempts nor miss a column nor update anything but the validated row. -/
theorem outboxWellFormed_of_run (codec : Codec) (maxAttempts : Int32) (hmax : 1 ≤ maxAttempts)
    {s t : Db} {steps : List OutboxStep} (hempty : s.outbox = Table.empty)
    (hbudget : ∀ step ∈ steps, step.Uses maxAttempts) (hrun : OutboxRun codec s steps t) :
    OutboxWellFormed codec maxAttempts t := by
  refine outboxWellFormed_of_rows ?_
  refine Run.invariant_of (P := fun db => ∀ r ∈ db.outbox, WellFormed maxAttempts r) ?_ hrun hbudget ?_
  · rintro db step _ hs hstep ⟨⟩
    exact OutboxStep.wellFormed_run hmax hstep hs
  · intro r hr
    rw [hempty] at hr
    exact absurd hr (Table.not_mem_empty r)

/-! ## A row that spends its budget -/

def failedAttempt (leaseToken : Uuid) (now : Timestamp) : OutboxStep :=
  .outbox (.mark (.failed ⟨1, 9⟩ 4 ⟨.transient, leaseToken, 9, now, "no answer", 2, seconds 15⟩) .quiet)

/-- A created row is leased, fails, is leased again and fails again under a budget of two. -/
def spentSteps : List OutboxStep :=
  [.create (IssueRepository.retriedCall 4 0) .quiet,
    .outbox (.lease ⟨⟨1, 9⟩, 0, seconds 30, 8, 7⟩ .quiet), failedAttempt 7 (seconds 1),
    .outbox (.lease ⟨⟨1, 9⟩, seconds 16, seconds 30, 8, 8⟩ .quiet), failedAttempt 8 (seconds 17)]

example : (spentSteps.foldl (fun db step => step.run Codec.unary db)
    IssueRepository.projectDb).outbox.rows.map (fun r => (r.status, r.attempts)) =
      [(.deadLetter, 2)] := by
  decide +kernel

theorem outboxWellFormed_spentSteps : (1 : Int32) ≤ 2 ∧
    IssueRepository.projectDb.outbox = Table.empty ∧ (∀ step ∈ spentSteps, step.Uses 2) ∧
      ∃ t, OutboxRun Codec.unary IssueRepository.projectDb spentSteps t ∧
        OutboxWellFormed Codec.unary 2 t := by
  have hmax : (1 : Int32) ≤ 2 := by decide
  have hbudget : ∀ step ∈ spentSteps, step.Uses 2 := by
    simp [spentSteps, failedAttempt, OutboxStep.Uses]
  have hrun : OutboxRun Codec.unary IssueRepository.projectDb spentSteps _ := Run.of_foldlM rfl
  exact ⟨hmax, rfl, hbudget, _, hrun, outboxWellFormed_of_run Codec.unary 2 hmax rfl hbudget hrun⟩

end Dandori.OutboxRepository
