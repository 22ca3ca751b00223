import Dandori.WorkerSystem

/-!
# The report of a worker run

Every tenant cycle counts into a report of its own, which it returns when it is through with its calls
and which is lost when one of them fails. `run_once` adds up the reports that were returned and counts
the failures.

`onceStep` takes the system one step further together with what one call of `run_once` has in memory,
from the return of its acquisition on. Other workers and clients step in between; a crash of the
worker leaves no report behind.
-/

namespace Dandori

open OutboxRepository OutboxWorkerService

/-- What `run_once` adds to its report for the outcome of a tenant cycle. -/
def WorkerRunReport.addOutcome (report : WorkerRunReport) :
    Except AppServiceError WorkerRunReport → WorkerRunReport
  | .ok tenantReport =>
      { report with
        leased := report.leased + tenantReport.leased
        delivered := report.delivered + tenantReport.delivered
        failed := report.failed + tenantReport.failed
        deadLettered := report.deadLettered + tenantReport.deadLettered
        cleanedOutboxRows := report.cleanedOutboxRows + tenantReport.cleanedOutboxRows
        cleanedIdempotencyRows :=
          report.cleanedIdempotencyRows + tenantReport.cleanedIdempotencyRows }
  | .error _ => { report with tenantFailures := report.tenantFailures + 1 }

abbrev TenantOutcome := Uuid × Except AppServiceError WorkerRunReport

def runReport (perTenant : List TenantOutcome) : WorkerRunReport :=
  perTenant.foldl (fun report o => report.addOutcome o.2) .default

/-- The reports of the cycles under way, slot by slot, and the outcomes of those that returned. -/
structure RunMemory where
  reports : List WorkerRunReport
  perTenant : List TenantOutcome

def RunMemory.empty : RunMemory := ⟨[], []⟩

/-- What a step makes of the report of its cycle: the cycle goes on with it, or returns. -/
inductive Progress
  | running (report : WorkerRunReport)
  | returned (outcome : Except AppServiceError WorkerRunReport)

def RunMemory.record (memory : RunMemory) (slot : ℕ) (workspaceId : Uuid) : Progress → RunMemory
  | .running report => { memory with reports := memory.reports.set slot report }
  | .returned outcome =>
      ⟨memory.reports.eraseIdx slot, memory.perTenant ++ [(workspaceId, outcome)]⟩

def SysAction.worker? {ω ι γ : Type} : SysAction ω ι γ → Option ω
  | .request _ => none
  | .acquire w _ _ | .start w | .cycle w _ _ | .shutdown w _ | .crash w => some w

namespace Program

variable {ω σ ι γ : Type} (P : Program ω σ ι γ)

/-- The report of `run_tenant_cycle` after one of its steps. -/
def cycleReport (config : OutboxWorkerConfig) (workspaceId : Uuid) :
    CycleAction ι → Phase → WorkerRunReport → Db → Progress
  | .lease now leaseToken env, .leasing, report, db =>
      match leaseOutboxBatch P.codec (leaseCall config workspaceId now leaseToken) env db with
      | (.ok batch, _) => .running { report with leased := report.leased + batch.length }
      | (.error e, _) => .returned (.error (mapStoreWorkerError e))
  | .apply reading, .processing [] ((message, outcome) :: _), report, db =>
      match applyPublishOutcome P.codec config (tenantAuth config workspaceId) message outcome reading
        report db with
      | (.ok report, _) => .running report
      | (.error e, _) => .returned (.error e)
  | .cleanOutbox deliveredNow deadLetterNow env, .processing [] [], report, db =>
      match cleanTenantOutbox P.codec config workspaceId deliveredNow deadLetterNow env db with
      | (.ok n, _) => .running { report with cleanedOutboxRows := report.cleanedOutboxRows + n }
      | (.error e, _) => .returned (.error (mapStoreWorkerError e))
  | .cleanIdempotency now env, .cleaning, report, db =>
      match cleanTenantIdempotency P.codec config workspaceId now env db with
      | (.ok n, _) =>
          .returned (.ok { report with cleanedIdempotencyRows := report.cleanedIdempotencyRows + n })
      | (.error e, _) => .returned (.error (mapStoreWorkerError e))
  | _, _, report, _ => .running report

inductive ReportEffect (config : OutboxWorkerConfig) (workspaceId : Uuid) :
    CycleAction ι → Phase → WorkerRunReport → Db → Option Phase → Progress → Db → Prop
  | failed (action : CycleAction ι) (phase : Phase) (report : WorkerRunReport) (e : AppServiceError)
      (db : Db) :
      ReportEffect config workspaceId action phase report db none (.returned (.error e)) db
  | leased {now leaseToken env report db batch db'}
      (h : leaseOutboxBatch P.codec (leaseCall config workspaceId now leaseToken) env db =
        (.ok batch, db')) :
      ReportEffect config workspaceId (.lease now leaseToken env) .leasing report db
        (some (.processing batch []))
        (.running { report with leased := report.leased + batch.length }) db'
  | dispatched {index pending completed message} (remote : ι) (outcome : Except PublishError Unit)
      (report : WorkerRunReport) (db : Db) (hmessage : pending[index]? = some message) :
      ReportEffect config workspaceId (.dispatch index remote) (.processing pending completed) report
        db (some (.processing (pending.eraseIdx index) (completed ++ [(message, outcome)])))
        (.running report) db
  | applied {reading message outcome rest db db'} (report : WorkerRunReport)
      (h : (outcomeMark config (tenantAuth config workspaceId) message outcome reading).run P.codec
        reading.env db = (.ok (), db')) :
      ReportEffect config workspaceId (.apply reading) (.processing [] ((message, outcome) :: rest))
        report db (some (.processing [] rest))
        (.running (reportOutcome config message outcome report)) db'
  | cleanedOutbox (deliveredNow deadLetterNow : Timestamp) (env : Env) (report : WorkerRunReport)
      (n : ℕ) (db : Db) :
      ReportEffect config workspaceId (.cleanOutbox deliveredNow deadLetterNow env)
        (.processing [] []) report db (some .cleaning)
        (.running { report with cleanedOutboxRows := report.cleanedOutboxRows + n })
        { db with outbox := db.outbox.filter (fun r => !isExpiredOutbox workspaceId
            (deliveredNow - hours config.deliveredRetentionHours)
            (deadLetterNow - hours config.deadLetterRetentionHours) r) }
  | returned (now : Timestamp) (env : Env) (report : WorkerRunReport) (n : ℕ) (db : Db) :
      ReportEffect config workspaceId (.cleanIdempotency now env) .cleaning report db none
        (.returned (.ok
          { report with cleanedIdempotencyRows := report.cleanedIdempotencyRows + n }))
        { db with idempotencyRecords := db.idempotencyRecords.filter (fun r =>
            !isExpiredRecord workspaceId (now - hours config.idempotencyRetentionHours) r) }

theorem cycleStep_reportEffect {config : OutboxWorkerConfig} {workspaceId : Uuid}
    {action : CycleAction ι} {phase : Phase} {publisher publisher' : σ} {db db' : Db}
    {phase' : Option Phase} (report : WorkerRunReport)
    (h : P.cycleStep config workspaceId action phase publisher db = some (phase', publisher', db')) :
    P.ReportEffect config workspaceId action phase report db phase'
      (P.cycleReport config workspaceId action phase report db) db' := by
  cases action with
  | lease now leaseToken env =>
      cases phase with
      | leasing =>
          simp only [cycleStep] at h
          simp only [cycleReport]
          rcases leaseOutboxBatch_cases P.codec (leaseCall config workspaceId now leaseToken) env db
            with ⟨e, he⟩ | ⟨ids, v, he, _, _⟩
          · rw [he] at h ⊢
            cases h
            exact .failed _ _ _ _ _
          · rw [he] at h ⊢
            cases h
            exact .leased he
      | processing pending completed => cases h
      | cleaning => cases h
  | dispatch index remote =>
      cases phase with
      | leasing => cases h
      | processing pending completed =>
          simp only [cycleStep] at h
          split_ifs at h
          cases hmessage : pending[index]? with
          | none =>
              rw [hmessage] at h
              cases h
          | some message =>
              rw [hmessage] at h
              cases h
              exact .dispatched _ _ _ _ hmessage
      | cleaning => cases h
  | apply reading =>
      cases phase with
      | leasing => cases h
      | processing pending completed =>
          cases pending with
          | cons _ _ => cases h
          | nil =>
              cases completed with
              | nil => cases h
              | cons first rest =>
                  obtain ⟨message, outcome⟩ := first
                  simp only [cycleStep, markOutcome_eq] at h
                  simp only [cycleReport]
                  rcases LeaseTransition.run_cases P.codec
                    (outcomeMark config (tenantAuth config workspaceId) message outcome reading)
                    reading.env db with ⟨e, he⟩ | ⟨r, _, _, _, v, he, _⟩
                  · rw [he] at h
                    cases h
                    rw [applyPublishOutcome_of_error he]
                    exact .failed _ _ _ _ _
                  · rw [he] at h
                    cases h
                    rw [applyPublishOutcome_eq_ok.mpr ⟨he, rfl⟩]
                    exact .applied report he
      | cleaning => cases h
  | cleanOutbox deliveredNow deadLetterNow env =>
      cases phase with
      | leasing => cases h
      | processing pending completed =>
          cases pending with
          | cons _ _ => cases h
          | nil =>
              cases completed with
              | cons _ _ => cases h
              | nil =>
                  simp only [cycleStep, cleanTenantOutbox] at h
                  simp only [cycleReport, cleanTenantOutbox]
                  rcases cleanupOutbox_cases P.codec (tenantAuth config workspaceId)
                    (deliveredNow - hours config.deliveredRetentionHours)
                    (deadLetterNow - hours config.deadLetterRetentionHours) env db
                    with ⟨e, he⟩ | ⟨n, he⟩
                  · rw [he] at h ⊢
                    cases h
                    exact .failed _ _ _ _ _
                  · rw [he] at h ⊢
                    cases h
                    exact .cleanedOutbox _ _ _ _ _ _
      | cleaning => cases h
  | cleanIdempotency now env =>
      cases phase with
      | leasing => cases h
      | processing pending completed => cases h
      | cleaning =>
          simp only [cycleStep, cleanTenantIdempotency] at h
          simp only [cycleReport, cleanTenantIdempotency]
          rcases cleanupIdempotency_cases P.codec (tenantAuth config workspaceId)
            (now - hours config.idempotencyRetentionHours) env db with ⟨e, he⟩ | ⟨n, he⟩
          · rw [he] at h ⊢
            cases h
            exact .failed _ _ _ _ _
          · rw [he] at h ⊢
            cases h
            exact .returned _ _ _ _ _

variable [DecidableEq ω]

/-- What `run_once` of `w` has in memory after a step of `w`; only starts and steps of cycles belong
to the call. -/
def rememberOwn (w : ω) (s : Sys ω σ) (memory : RunMemory) : SysAction ω ι γ → Option RunMemory
  | .start _ => some { memory with reports := memory.reports ++ [.default] }
  | .cycle _ slot action => do
      let cycle ← (s.workers w).cycles[slot]?
      let report ← memory.reports[slot]?
      return memory.record slot cycle.workspaceId
        (P.cycleReport (P.config w) cycle.workspaceId action cycle.phase report s.db)
  | _ => none

def remember (w : ω) (s : Sys ω σ) (memory : RunMemory) (a : SysAction ω ι γ) : Option RunMemory :=
  if a.worker? = some w then P.rememberOwn w s memory a else some memory

def onceStep (w : ω) (x : Sys ω σ × RunMemory) (a : SysAction ω ι γ) :
    Option (Sys ω σ × RunMemory) := do
  let t ← P.step x.1 a
  let memory ← P.remember w x.1 x.2 a
  return (t, memory)

abbrev OnceRun (w : ω) :
    Sys ω σ × RunMemory → List (SysAction ω ι γ) → Sys ω σ × RunMemory → Prop :=
  Run (P.onceStep w)

section Steps

variable {P} {w : ω} {x y : Sys ω σ × RunMemory} {a : SysAction ω ι γ} {as : List (SysAction ω ι γ)}

theorem step_of_onceStep (h : P.onceStep w x a = some y) : P.step x.1 a = some y.1 := by
  obtain ⟨t, ht, h⟩ := Option.bind_eq_some_iff.mp h
  obtain ⟨memory, _, h⟩ := Option.bind_eq_some_iff.mp h
  cases h
  exact ht

theorem workers_of_other {s t : Sys ω σ} (h : P.StepEffect s a t) (ha : a.worker? ≠ some w) :
    t.workers w = s.workers w := by
  have hne : ∀ {v : ω}, some v ≠ some w → w ≠ v := fun hv hw => hv (congrArg some hw.symm)
  cases h with
  | unchanged => rfl
  | requested => rfl
  | acquired => exact setWorker_of_ne _ _ _ _ (hne ha)
  | started => exact setWorker_of_ne _ _ _ _ (hne ha)
  | cycled => exact setWorker_of_ne _ _ _ _ (hne ha)
  | shutDown => exact setWorker_of_ne _ _ _ _ (hne ha)
  | crashed => exact setWorker_of_ne _ _ _ _ (hne ha)

/-- A step is made by somebody else, starts the cycle of a waiting workspace, or takes a cycle on. -/
theorem onceStep_cases (h : P.onceStep w x a = some y) :
    (a.worker? ≠ some w ∧ y.1.workers w = x.1.workers w ∧ y.2 = x.2) ∨
    (∃ workspaceId waiting, a = .start w ∧ (x.1.workers w).waiting = workspaceId :: waiting ∧
      y.1.db = x.1.db ∧
      y.1.workers w = { x.1.workers w with
        waiting := waiting
        cycles := (x.1.workers w).cycles ++ [⟨workspaceId, .leasing⟩] } ∧
      y.2 = { x.2 with reports := x.2.reports ++ [.default] }) ∨
    ∃ slot action cycle report phase' publisher' progress, a = .cycle w slot action ∧
      (x.1.workers w).cycles[slot]? = some cycle ∧ x.2.reports[slot]? = some report ∧
      P.ReportEffect (P.config w) cycle.workspaceId action cycle.phase report x.1.db phase' progress
        y.1.db ∧
      y.1.workers w = { x.1.workers w with
        cycles := replaceCycle (x.1.workers w).cycles slot cycle.workspaceId phase'
        publisher := publisher' } ∧
      y.2 = x.2.record slot cycle.workspaceId progress := by
  obtain ⟨t, ht, h⟩ := Option.bind_eq_some_iff.mp h
  obtain ⟨memory, hmemory, h⟩ := Option.bind_eq_some_iff.mp h
  cases h
  unfold remember at hmemory
  by_cases ha : a.worker? = some w
  · rw [if_pos ha] at hmemory
    right
    cases a with
    | request => cases ha
    | acquire => cases hmemory
    | shutdown => cases hmemory
    | crash => cases hmemory
    | start v =>
        cases ha
        cases hmemory
        simp only [step] at ht
        split at ht
        · cases ht
        · next workspaceId waiting hwaiting =>
            split_ifs at ht
            cases ht
            exact Or.inl ⟨workspaceId, waiting, rfl, hwaiting, rfl, setWorker_self _ _ _ _, rfl⟩
    | cycle v slot action =>
        cases ha
        obtain ⟨cycle, hcycle, hmemory⟩ := Option.bind_eq_some_iff.mp hmemory
        obtain ⟨report, hreport, hmemory⟩ := Option.bind_eq_some_iff.mp hmemory
        cases hmemory
        simp only [step, hcycle] at ht
        split at ht
        · cases ht
        · next phase publisher db' hstep =>
            cases ht
            exact Or.inr ⟨slot, action, cycle, report, phase, publisher, _, rfl, hcycle, hreport,
              P.cycleStep_reportEffect report hstep, setWorker_self _ _ _ _, rfl⟩
  · rw [if_neg ha] at hmemory
    cases hmemory
    exact Or.inl ⟨ha, workers_of_other (P.step_effect ht) ha, rfl⟩

end Steps
end Program
end Dandori
