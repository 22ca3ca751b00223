import Dandori.StoreIsolation
import Dandori.WorkerReport

/-!
# The books of a worker run

The reports of the cycles under way stand in the slots of their cycles. A step of a cycle changes
rows of its own workspace only, and reads and writes its own report only, whatever becomes of the
cycle.
-/

namespace Dandori

open IssueRepository OutboxRepository OutboxWorkerService

section Slots

variable {α β : Type} {l : List α} {m : List β} {i : ℕ} {a b : α} {p : α → Bool}

theorem zip_set (l : List α) (m : List β) (i : ℕ) (a : α) (b : β) :
    (l.set i a).zip (m.set i b) = (l.zip m).set i (a, b) := by
  induction l generalizing m i with
  | nil => simp
  | cons x l ih =>
      cases m with
      | nil => simp
      | cons y m =>
          cases i with
          | zero => rfl
          | succ i => simp [ih]

theorem zip_eraseIdx (h : l.length = m.length) (i : ℕ) :
    (l.eraseIdx i).zip (m.eraseIdx i) = (l.zip m).eraseIdx i := by
  induction l generalizing m i with
  | nil =>
      rw [List.eq_nil_of_length_eq_zero h.symm]
      rfl
  | cons x l ih =>
      cases m with
      | nil => cases h
      | cons y m =>
          cases i with
          | zero => rfl
          | succ i => simp [ih (Nat.succ.inj h)]

theorem filter_set (ha : l[i]? = some a) (hpa : p a = false) (hpb : p b = false) :
    (l.set i b).filter p = l.filter p := by
  induction l generalizing i with
  | nil => rfl
  | cons x l ih =>
      cases i with
      | zero =>
          cases ha
          simp [hpa, hpb]
      | succ i =>
          rw [List.set_cons_succ, List.filter_cons, List.filter_cons, ih ha]

theorem filter_eraseIdx (ha : l[i]? = some a) (hpa : p a = false) :
    (l.eraseIdx i).filter p = l.filter p := by
  induction l generalizing i with
  | nil => rfl
  | cons x l ih =>
      cases i with
      | zero =>
          cases ha
          simp [hpa]
      | succ i =>
          rw [List.eraseIdx_cons_succ, List.filter_cons, List.filter_cons, ih ha]

end Slots

/-- A call that inserts no key leaves the rows of the other tenants alone. -/
theorem StoreOperation.others_of_run (codec : Codec) (env : Env) (db : Db) (op : StoreOperation)
    (hfresh : op.FreshIn codec (db.others op.tenant)) :
    (op.run codec env db).2.others op.tenant = db.others op.tenant :=
  (isolatedAt_of_fresh op hfresh).2

namespace Program

variable {ω σ ι γ : Type} (P : Program ω σ ι γ)

/-! ## A cycle leaves the other tenants alone -/

def books (w : ω) (x : Sys ω σ × RunMemory) : List (Cycle × WorkerRunReport) :=
  (x.1.workers w).cycles.zip x.2.reports

/-- The reports of a tenant that are under way, with their cycles, and those that have returned. -/
def contribution (w : ω) (x : Sys ω σ × RunMemory) (workspaceId : Uuid) :
    List (Cycle × WorkerRunReport) × List TenantOutcome :=
  ((books w x).filter (fun z => z.1.workspaceId = workspaceId),
    x.2.perTenant.filter (fun o => o.1 = workspaceId))

section Frame

variable {P} {config : OutboxWorkerConfig} {workspaceId tenant : Uuid} {action : CycleAction ι}
  {phase : Phase} {report : WorkerRunReport} {db db' : Db} {phase' : Option Phase}
  {progress : Progress}

theorem ReportEffect.shape
    (h : P.ReportEffect config workspaceId action phase report db phase' progress db') :
    (∃ next report', phase' = some next ∧ progress = .running report') ∨
      ∃ outcome, phase' = none ∧ progress = .returned outcome := by
  cases h with
  | failed action phase report e db => exact Or.inr ⟨_, rfl, rfl⟩
  | leased => exact Or.inl ⟨_, _, rfl, rfl⟩
  | dispatched => exact Or.inl ⟨_, _, rfl, rfl⟩
  | applied => exact Or.inl ⟨_, _, rfl, rfl⟩
  | cleanedOutbox => exact Or.inl ⟨_, _, rfl, rfl⟩
  | returned => exact Or.inr ⟨_, rfl, rfl⟩

theorem ReportEffect.own
    (h : P.ReportEffect config workspaceId action phase report db phase' progress db')
    (hne : workspaceId ≠ tenant) : db'.own tenant = db.own tenant := by
  have hother : ∀ r : Uuid, decide (r = tenant) = true → decide (r = workspaceId) = false := by
    intro r hr
    rw [of_decide_eq_true hr]
    exact decide_eq_false hne.symm
  cases h with
  | failed => rfl
  | @leased now leaseToken env _ _ batch _ hlease =>
      have hothers := StoreOperation.others_of_run P.codec env db
        (.leaseOutboxBatch (leaseCall config workspaceId now leaseToken)) trivial
      simp only [StoreOperation.run, hlease] at hothers
      exact Db.own_eq_of_others_eq hne hothers
  | dispatched => rfl
  | @applied reading message outcome rest _ _ _ hrun =>
      have hothers : db'.others workspaceId = db.others workspaceId := by
        cases outcome with
        | ok _ =>
            have hop := StoreOperation.others_of_run P.codec reading.env db
              (.markOutboxDelivered (tenantAuth config workspaceId) message.id message.leaseToken
                message.leaseOwner reading.now) trivial
            simp only [StoreOperation.run, markOutboxDelivered] at hop
            rw [outcomeMark] at hrun
            rwa [hrun] at hop
        | error error =>
            have hop := StoreOperation.others_of_run P.codec reading.env db
              (.markOutboxFailed (tenantAuth config workspaceId) message.id
                (failureContext config message error reading)) trivial
            simp only [StoreOperation.run, markOutboxFailed] at hop
            rw [outcomeMark] at hrun
            rwa [hrun] at hop
      exact Db.own_eq_of_others_eq hne hothers
  | cleanedOutbox =>
      unfold Db.own Db.restrict
      congr 1
      refine Table.filter_filter_of_imp _ (fun r hr => ?_)
      simp only [isExpiredOutbox, hother _ hr, Bool.false_and, Bool.not_false]
  | returned =>
      unfold Db.own Db.restrict
      congr 1
      refine Table.filter_filter_of_imp _ (fun r hr => ?_)
      simp only [isExpiredRecord, hother _ hr, Bool.false_and, Bool.not_false]

end Frame

variable [DecidableEq ω]

section Books

variable {P} {w : ω} {x y : Sys ω σ × RunMemory} {a : SysAction ω ι γ} {slot : ℕ}
  {action : CycleAction ι} {cycle : Cycle} {workspaceId : Uuid}

/-- What a step of a cycle writes into the books. -/
inductive BooksEffect (P : Program ω σ ι γ) (w : ω) (slot : ℕ) (action : CycleAction ι)
    (cycle : Cycle) (report : WorkerRunReport) (x y : Sys ω σ × RunMemory) : Prop
  | running (next : Phase) (report' : WorkerRunReport)
      (heffect : P.ReportEffect (P.config w) cycle.workspaceId action cycle.phase report x.1.db
        (some next) (.running report') y.1.db)
      (hbooks : books w y = (books w x).set slot (⟨cycle.workspaceId, next⟩, report'))
      (hreturned : y.2.perTenant = x.2.perTenant)
  | returned (outcome : Except AppServiceError WorkerRunReport)
      (heffect : P.ReportEffect (P.config w) cycle.workspaceId action cycle.phase report x.1.db none
        (.returned outcome) y.1.db)
      (hbooks : books w y = (books w x).eraseIdx slot)
      (hreturned : y.2.perTenant = x.2.perTenant ++ [(cycle.workspaceId, outcome)])

def Paired (w : ω) (x : Sys ω σ × RunMemory) : Prop :=
  (x.1.workers w).cycles.length = x.2.reports.length

theorem paired_of_onceStep (h : P.onceStep w x a = some y) (hpaired : Paired w x) : Paired w y := by
  rcases onceStep_cases h with ⟨_, hworker, hmemory⟩ | ⟨_, _, _, _, _, hworker, hmemory⟩ |
    ⟨slot, _, cycle, report, phase', publisher', progress, _, hcycle, _, heffect, hworker, hmemory⟩
  · rwa [Paired, hworker, hmemory]
  · simp only [Paired, hworker, hmemory, List.length_append, List.length_singleton]
    exact congrArg (· + 1) hpaired
  · obtain ⟨hlt, _⟩ := List.getElem?_eq_some_iff.mp hcycle
    rcases heffect.shape with ⟨next, report', rfl, rfl⟩ | ⟨outcome, rfl, rfl⟩
    · simpa only [Paired, hworker, hmemory, replaceCycle, RunMemory.record, List.length_set]
        using hpaired
    · simp only [Paired, hworker, hmemory, replaceCycle, RunMemory.record]
      rw [List.length_eraseIdx_of_lt hlt, List.length_eraseIdx_of_lt (hpaired ▸ hlt), hpaired]

theorem books_of_onceStep (h : P.onceStep w x a = some y) (hpaired : Paired w x) :
    (a.worker? ≠ some w ∧ (y.1.workers w).waiting = (x.1.workers w).waiting ∧
      books w y = books w x ∧ y.2.perTenant = x.2.perTenant) ∨
    (∃ workspaceId, a = .start w ∧
      (x.1.workers w).waiting = workspaceId :: (y.1.workers w).waiting ∧
      books w y = books w x ++ [(⟨workspaceId, .leasing⟩, .default)] ∧
      y.2.perTenant = x.2.perTenant) ∨
    ∃ slot action cycle report, a = .cycle w slot action ∧
      (books w x)[slot]? = some (cycle, report) ∧
      (y.1.workers w).waiting = (x.1.workers w).waiting ∧
      BooksEffect P w slot action cycle report x y := by
  rcases onceStep_cases h with
    ⟨hother, hworker, hmemory⟩ | ⟨workspaceId, waiting, hstart, hwaiting, _, hworker, hmemory⟩ |
    ⟨slot, action, cycle, report, phase', publisher', progress, ha, hcycle, hreport, heffect, hworker,
      hmemory⟩
  · exact Or.inl ⟨hother, by rw [hworker], by rw [books, hworker, hmemory, books], by rw [hmemory]⟩
  · refine Or.inr (Or.inl ⟨workspaceId, hstart, by rw [hworker, hwaiting], ?_, by rw [hmemory]⟩)
    rw [books, hworker, hmemory]
    exact List.zip_append hpaired
  · refine Or.inr (Or.inr ⟨slot, action, cycle, report, ha,
      List.getElem?_zip_eq_some.mpr ⟨hcycle, hreport⟩, by rw [hworker], ?_⟩)
    rcases heffect.shape with ⟨next, report', rfl, rfl⟩ | ⟨outcome, rfl, rfl⟩
    · refine .running next report' heffect ?_ (by rw [hmemory]; rfl)
      rw [books, hworker, hmemory]
      exact zip_set _ _ _ _ _
    · refine .returned outcome heffect ?_ (by rw [hmemory]; rfl)
      rw [books, hworker, hmemory]
      exact zip_eraseIdx hpaired _

/-- A step of a cycle, whether the cycle will return or fail, changes neither the rows of another
tenant nor its contribution. -/
theorem others_of_cycle (h : P.onceStep w x (.cycle w slot action) = some y) (hpaired : Paired w x)
    (hcycle : (x.1.workers w).cycles[slot]? = some cycle) (hne : workspaceId ≠ cycle.workspaceId) :
    y.1.db.own workspaceId = x.1.db.own workspaceId ∧
      contribution w y workspaceId = contribution w x workspaceId := by
  rcases books_of_onceStep h hpaired with ⟨hother, _⟩ | ⟨_, hstart, _⟩ |
    ⟨slot, action, cycle', report, ha, hbooked, _, heffect⟩
  · exact absurd rfl hother
  · cases hstart
  · cases ha
    obtain rfl : cycle = cycle' :=
      Option.some.inj (hcycle.symm.trans (List.getElem?_zip_eq_some.mp hbooked).1)
    have hmine : decide (cycle.workspaceId = workspaceId) = false := decide_eq_false hne.symm
    cases heffect with
    | running next report' heffect hbooks hreturned =>
        refine ⟨heffect.own hne.symm, ?_⟩
        rw [contribution, hbooks, hreturned, filter_set hbooked hmine hmine]
        rfl
    | returned outcome heffect hbooks hreturned =>
        refine ⟨heffect.own hne.symm, ?_⟩
        rw [contribution, hbooks, hreturned, filter_eraseIdx hbooked hmine, List.filter_append]
        simp [hmine, contribution]

end Books

end Program
end Dandori
