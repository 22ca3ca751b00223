import Dandori.TenantAccounts
import Dandori.TenantBooks

/-!
# The report of a worker run and the database

All along a call of `run_once` every tenant waits, is under way or has returned, with its account in
order. Each step keeps this: for the tenant whose cycle makes the step by the account of the cycle, for
the other tenants because the step moves no rows of theirs. At the end the returned reports add up.
-/

namespace Dandori

open IssueRepository OutboxRepository OutboxWorkerService

/-! ## Adding up the reports -/

section Sums

variable {perTenant : List TenantOutcome} {o : TenantOutcome}

theorem runReport_append (perTenant : List TenantOutcome) (o : TenantOutcome) :
    runReport (perTenant ++ [o]) = (runReport perTenant).addOutcome o.2 := by
  simp only [runReport, List.foldl_append, List.foldl_cons, List.foldl_nil]

theorem not_mem_of_nodup_append (h : ((perTenant ++ [o]).map Prod.fst).Nodup) :
    o.1 ∉ perTenant.map Prod.fst := by
  rw [List.map_append, List.map_cons, List.map_nil] at h
  exact fun hmem => List.disjoint_of_nodup_append h hmem List.mem_cons_self

theorem nodup_of_nodup_append (h : ((perTenant ++ [o]).map Prod.fst).Nodup) :
    (perTenant.map Prod.fst).Nodup := by
  rw [List.map_append] at h
  exact (List.nodup_append.mp h).1

/-- Where each returned report counts the rows of its tenant, the sum counts the rows of them all. -/
theorem encard_returned {rows : Set (Uuid × Uuid)} {count : WorkerRunReport → ℕ}
    (hzero : count .default = 0)
    (hok : ∀ report tenantReport,
      count (report.addOutcome (.ok tenantReport)) = count report + count tenantReport)
    (herror : ∀ report e, count (report.addOutcome (.error e)) = count report)
    (hnodup : (perTenant.map Prod.fst).Nodup)
    (hcount : ∀ workspaceId report, (workspaceId, .ok report) ∈ perTenant →
      {key ∈ rows | key.1 = workspaceId}.encard = count report) :
    {key ∈ rows | ∃ report, (key.1, .ok report) ∈ perTenant}.encard =
      count (runReport perTenant) := by
  induction perTenant using List.reverseRecOn with
  | nil => simp [runReport, hzero]
  | append_singleton perTenant o ih =>
      have hrest := ih (nodup_of_nodup_append hnodup)
        (fun workspaceId report hmem => hcount workspaceId report (List.mem_append_left _ hmem))
      obtain ⟨workspaceId, outcome⟩ := o
      rw [runReport_append]
      cases outcome with
      | error e =>
          rw [herror, ← hrest]
          congr 1
          ext key
          simp
      | ok tenantReport =>
          have htenant := hcount workspaceId tenantReport (List.mem_append_right _ List.mem_cons_self)
          have hsplit : {key ∈ rows | ∃ report, (key.1, .ok report) ∈
              perTenant ++ [(workspaceId, .ok tenantReport)]} =
              {key ∈ rows | ∃ report, (key.1, .ok report) ∈ perTenant} ∪
                {key ∈ rows | key.1 = workspaceId} := by
            ext key
            simp only [List.mem_append, List.mem_singleton, Prod.mk.injEq, Except.ok.injEq,
              Set.mem_ofPred_eq, Set.mem_union, ← and_or_left, exists_or]
            simp
          have hdisjoint : Disjoint {key ∈ rows | ∃ report, (key.1, .ok report) ∈ perTenant}
              {key ∈ rows | key.1 = workspaceId} := by
            rw [Set.disjoint_left]
            rintro key ⟨_, report, hmem⟩ ⟨_, hkey⟩
            exact not_mem_of_nodup_append hnodup (List.mem_map.mpr ⟨_, hmem, hkey⟩)
          rw [hsplit, Set.encard_union_eq hdisjoint, hrest, htenant, hok]
          push_cast
          rfl

theorem runReport_balanced (h : ∀ workspaceId report, (workspaceId, .ok report) ∈ perTenant →
      report.leased = report.delivered + report.failed) :
    (runReport perTenant).leased =
      (runReport perTenant).delivered + (runReport perTenant).failed := by
  induction perTenant using List.reverseRecOn with
  | nil => rfl
  | append_singleton perTenant o ih =>
      have hrest := ih (fun workspaceId report hmem =>
        h workspaceId report (List.mem_append_left _ hmem))
      obtain ⟨workspaceId, outcome⟩ := o
      rw [runReport_append]
      cases outcome with
      | error e => exact hrest
      | ok tenantReport =>
          have htenant := h workspaceId tenantReport (List.mem_append_right _ List.mem_cons_self)
          simp only [WorkerRunReport.addOutcome]
          omega

theorem encard_failures (hnodup : (perTenant.map Prod.fst).Nodup) :
    {workspaceId | ∃ e, (workspaceId, Except.error e) ∈ perTenant}.encard =
      (runReport perTenant).tenantFailures := by
  induction perTenant using List.reverseRecOn with
  | nil => simp [runReport, WorkerRunReport.default]
  | append_singleton perTenant o ih =>
      have hrest := ih (nodup_of_nodup_append hnodup)
      obtain ⟨workspaceId, outcome⟩ := o
      rw [runReport_append]
      cases outcome with
      | ok tenantReport =>
          simp only [WorkerRunReport.addOutcome]
          rw [← hrest]
          congr 1
          ext w
          simp
      | error e =>
          have hinsert : {w | ∃ e', (w, Except.error e') ∈
              perTenant ++ [((workspaceId, .error e) : TenantOutcome)]} =
              insert workspaceId {w | ∃ e', (w, Except.error e') ∈ perTenant} := by
            ext w
            simp only [List.mem_append, List.mem_singleton, Prod.mk.injEq, Except.error.injEq,
              Set.mem_ofPred_eq, Set.mem_insert_iff, exists_or]
            simp [or_comm]
          have hnew : workspaceId ∉ {w | ∃ e', (w, Except.error e') ∈ perTenant} := by
            rintro ⟨e', hmem⟩
            exact not_mem_of_nodup_append hnodup (List.mem_map.mpr ⟨_, hmem, rfl⟩)
          rw [hinsert, Set.encard_insert_of_notMem hnew, hrest]
          simp only [WorkerRunReport.addOutcome]
          push_cast
          rfl

end Sums

namespace Program

variable {ω σ ι γ : Type} [DecidableEq ω] (P : Program ω σ ι γ)

/-! ## Whole runs -/

/-- Every tenant waits, is under way or has returned, and its account is in order. -/
structure Reconciled (assigned : List Uuid) (w : ω) (s₀ : Sys ω σ) (as : List (SysAction ω ι γ))
    (x : Sys ω σ × RunMemory) : Prop where
  exec : P.Exec s₀ as x.1
  paired : Paired w x
  tenants : ((x.1.workers w).waiting ++ ((books w x).map (fun z => z.1.workspaceId) ++
    x.2.perTenant.map Prod.fst)).Perm assigned
  tokens : ∀ r ∈ x.1.db.outbox, ∀ token, r.leaseToken = some token →
    (∃ r₀ ∈ s₀.db.outbox, r₀.leaseToken = some token) ∨
      token ∈ as.filterMap SysAction.leaseToken?
  waiting : ∀ workspaceId ∈ (x.1.workers w).waiting, P.Counted s₀ as w workspaceId .default
  underWay : ∀ z ∈ books w x, P.Account s₀ as w x.1.db z.1 z.2
  returned : ∀ workspaceId report, (workspaceId, .ok report) ∈ x.2.perTenant →
    P.Counted s₀ as w workspaceId report ∧ report.leased = report.delivered + report.failed

section Runs

variable {P} {s₀ : Sys ω σ} {x y : Sys ω σ × RunMemory} {as : List (SysAction ω ι γ)}
  {a : SysAction ω ι γ} {w : ω} {assigned : List Uuid}

def NewToken (s₀ : Sys ω σ) (as : List (SysAction ω ι γ)) (a : SysAction ω ι γ) : Prop :=
  ∀ token, a.leaseToken? = some token → token ∉ as.filterMap SysAction.leaseToken? ∧
    ∀ r ∈ s₀.db.outbox, r.leaseToken ≠ some token

theorem Reconciled.tokens_step (h : P.Reconciled assigned w s₀ as x) (ha : P.step x.1 a = some y.1) :
    ∀ r ∈ y.1.db.outbox, ∀ token, r.leaseToken = some token →
      (∃ r₀ ∈ s₀.db.outbox, r₀.leaseToken = some token) ∨
        token ∈ (as ++ [a]).filterMap SysAction.leaseToken? := by
  intro r hr token htoken
  rw [List.filterMap_append, List.mem_append]
  rcases token_of_step (P.step_effect ha) hr htoken with hold | hgenerated
  · rcases h.tokens r hold token htoken with hfirst | hmem
    · exact Or.inl hfirst
    · exact Or.inr (Or.inl hmem)
  · exact Or.inr (Or.inr (List.mem_filterMap.mpr ⟨a, List.mem_cons_self, hgenerated⟩))

theorem Reconciled.not_stamped (h : P.Reconciled assigned w s₀ as x) (hnew : NewToken s₀ as a)
    {token : Uuid} (htoken : a.leaseToken? = some token) :
    token ∉ as.filterMap SysAction.leaseToken? ∧ ∀ r ∈ x.1.db.outbox, r.leaseToken ≠ some token := by
  obtain ⟨hunused, hfirst⟩ := hnew token htoken
  refine ⟨hunused, fun r hr hstamped => ?_⟩
  rcases h.tokens r hr token hstamped with ⟨r₀, hr₀, hr₀'⟩ | hmem
  · exact hfirst r₀ hr₀ hr₀'
  · exact hunused hmem

theorem moved_of_other (hexec : P.Exec s₀ as x.1) (ha : P.step x.1 a = some y.1)
    (hother : ∀ slot action, a ≠ .cycle w slot action) (statuses : List OutboxStatus)
    (key : Uuid × Uuid) :
    key ∈ P.Moved s₀ (as ++ [a]) w statuses ↔ key ∈ P.Moved s₀ as w statuses := by
  rw [mem_moved_append hexec ha]
  exact or_iff_left (fun hcycle => hcycle.1.elim fun slot hslot => hslot.elim (hother slot))

/-- The accounts of the tenants for whom a step moves no row stay in order. -/
theorem Reconciled.untouched (h : P.Reconciled assigned w s₀ as x) (ha : P.step x.1 a = some y.1)
    (hnew : NewToken s₀ as a) {Q : Uuid → Prop}
    (hsame : ∀ tenant, Q tenant → ∀ statuses key, key.1 = tenant →
      (key ∈ P.Moved s₀ (as ++ [a]) w statuses ↔ key ∈ P.Moved s₀ as w statuses)) :
    (∀ tenant ∈ (x.1.workers w).waiting, Q tenant →
      P.Counted s₀ (as ++ [a]) w tenant .default) ∧
    (∀ z ∈ books w x, Q z.1.workspaceId → P.Account s₀ (as ++ [a]) w y.1.db z.1 z.2) ∧
    ∀ tenant report, (tenant, .ok report) ∈ x.2.perTenant → Q tenant →
      P.Counted s₀ (as ++ [a]) w tenant report ∧
        report.leased = report.delivered + report.failed := by
  refine ⟨fun tenant hmem hQ => ?_, fun z hz hQ => ?_, fun tenant report hmem hQ => ?_⟩
  · exact (h.waiting tenant hmem).congr (hsame tenant hQ)
  · exact (h.underWay z hz).of_untouched ha (fun token htoken => (hnew token htoken).1) (hsame _ hQ)
  · obtain ⟨hcounted, hbalanced⟩ := h.returned tenant report hmem
    exact ⟨hcounted.congr (hsame tenant hQ), hbalanced⟩

theorem reconciled_other (h : P.Reconciled assigned w s₀ as x) (hstep : P.onceStep w x a = some y)
    (hnew : NewToken s₀ as a) (hother : a.worker? ≠ some w)
    (hwaiting : (y.1.workers w).waiting = (x.1.workers w).waiting) (hbooks : books w y = books w x)
    (hreturned : y.2.perTenant = x.2.perTenant) : P.Reconciled assigned w s₀ (as ++ [a]) y := by
  have ha := step_of_onceStep hstep
  have hnotcycle : ∀ slot action, a ≠ .cycle w slot action := by
    rintro slot action rfl
    exact hother rfl
  obtain ⟨hwaiting', hunderWay', hreturned'⟩ := h.untouched ha hnew (Q := fun _ => True)
    (fun _ _ statuses key _ => moved_of_other h.exec ha hnotcycle statuses key)
  refine ⟨h.exec.append (.single ha), paired_of_onceStep hstep h.paired, ?_, h.tokens_step ha, ?_,
    ?_, ?_⟩
  · rw [hwaiting, hbooks, hreturned]
    exact h.tenants
  · rw [hwaiting]
    exact fun tenant hmem => hwaiting' tenant hmem trivial
  · rw [hbooks]
    exact fun z hz => hunderWay' z hz trivial
  · rw [hreturned]
    exact fun tenant report hmem => hreturned' tenant report hmem trivial

theorem reconciled_start (h : P.Reconciled assigned w s₀ as x)
    (hstep : P.onceStep w x (.start w) = some y) {workspaceId : Uuid}
    (hwaiting : (x.1.workers w).waiting = workspaceId :: (y.1.workers w).waiting)
    (hbooks : books w y = books w x ++ [(⟨workspaceId, .leasing⟩, .default)])
    (hreturned : y.2.perTenant = x.2.perTenant) :
    P.Reconciled assigned w s₀ (as ++ [.start w]) y := by
  have ha := step_of_onceStep hstep
  obtain ⟨hwaiting', hunderWay', hreturned'⟩ := h.untouched ha nofun (Q := fun _ => True)
    (fun _ _ statuses key _ => moved_of_other h.exec ha nofun statuses key)
  refine ⟨h.exec.append (.single ha), paired_of_onceStep hstep h.paired, ?_, h.tokens_step ha, ?_,
    ?_, ?_⟩
  · refine List.Perm.trans ?_ h.tenants
    rw [hwaiting, hbooks, hreturned, List.map_append, List.append_assoc]
    exact List.perm_iff_count.mpr (fun u => by
      simp only [List.count_append, List.count_cons, List.map_cons, List.map_nil, List.count_nil]
      omega)
  · intro tenant hmem
    refine hwaiting' tenant ?_ trivial
    rw [hwaiting]
    exact List.mem_cons_of_mem _ hmem
  · intro z hz
    rw [hbooks] at hz
    rcases List.mem_append.mp hz with hz | hz
    · exact hunderWay' z hz trivial
    · rw [List.mem_singleton.mp hz]
      refine Account.start (hwaiting' workspaceId ?_ trivial)
      rw [hwaiting]
      exact List.mem_cons_self
  · rw [hreturned]
    exact fun tenant report hmem => hreturned' tenant report hmem trivial

theorem reconciled_cycle (h : P.Reconciled assigned w s₀ as x) (hassigned : assigned.Nodup) {slot : ℕ}
    {action : CycleAction ι} {cycle : Cycle} {report : WorkerRunReport}
    (hstep : P.onceStep w x (.cycle w slot action) = some y)
    (hnew : NewToken s₀ as (.cycle w slot action))
    (hbooked : (books w x)[slot]? = some (cycle, report))
    (hwaiting : (y.1.workers w).waiting = (x.1.workers w).waiting)
    (heffect : BooksEffect P w slot action cycle report x y) :
    P.Reconciled assigned w s₀ (as ++ [.cycle w slot action]) y := by
  have ha := step_of_onceStep hstep
  obtain ⟨hlt, hget⟩ := List.getElem?_eq_some_iff.mp hbooked
  have hperm : (books w x).Perm ((cycle, report) :: (books w x).eraseIdx slot) := by
    rw [← hget]
    exact (List.getElem_cons_eraseIdx_perm hlt).symm
  have hmine := h.underWay _ (hperm.mem_iff.mpr List.mem_cons_self)
  have htenants : (cycle.workspaceId :: ((x.1.workers w).waiting ++
      (((books w x).eraseIdx slot).map (fun z => z.1.workspaceId) ++
        x.2.perTenant.map Prod.fst))).Perm assigned := by
    refine List.Perm.trans ?_ h.tenants
    have hmap := (hperm.map (fun z => z.1.workspaceId)).symm
    exact List.perm_middle.symm.trans (List.Perm.append_left _ (hmap.append_right _))
  have hothers := (List.nodup_cons.mp (htenants.nodup_iff.mpr hassigned)).1
  simp only [List.mem_append, not_or] at hothers
  obtain ⟨hnotwaiting, hnotbooked, hnotreturned⟩ := hothers
  have hown : ∀ tenant, tenant ≠ cycle.workspaceId → y.1.db.own tenant = x.1.db.own tenant := by
    intro tenant hne
    cases heffect with
    | running _ _ heffect => exact heffect.own hne.symm
    | returned _ heffect => exact heffect.own hne.symm
  have hsame : ∀ tenant, tenant ≠ cycle.workspaceId → ∀ statuses key, key.1 = tenant →
      (key ∈ P.Moved s₀ (as ++ [.cycle w slot action]) w statuses ↔
        key ∈ P.Moved s₀ as w statuses) := by
    rintro tenant hne statuses key rfl
    rw [mem_moved_append h.exec ha]
    exact or_iff_left (fun hmoved => own_ne_of_rowsMoved hmoved.2 (hown _ hne))
  obtain ⟨hwaiting', hunderWay', hreturned'⟩ :=
    h.untouched ha hnew (Q := fun tenant => tenant ≠ cycle.workspaceId) hsame
  have hstill : ∀ tenant ∈ (y.1.workers w).waiting,
      P.Counted s₀ (as ++ [.cycle w slot action]) w tenant .default := by
    rw [hwaiting]
    refine fun tenant hmem => hwaiting' tenant hmem ?_
    rintro rfl
    exact hnotwaiting hmem
  have hrest : ∀ z ∈ (books w x).eraseIdx slot,
      P.Account s₀ (as ++ [.cycle w slot action]) w y.1.db z.1 z.2 :=
    fun z hz => hunderWay' z (List.mem_of_mem_eraseIdx hz) (fun heq =>
      hnotbooked (List.mem_map.mpr ⟨z, hz, heq⟩))
  have hthrough : ∀ tenant report, (tenant, .ok report) ∈ x.2.perTenant →
      P.Counted s₀ (as ++ [.cycle w slot action]) w tenant report ∧
        report.leased = report.delivered + report.failed :=
    fun tenant report hmem => hreturned' tenant report hmem (fun heq =>
      hnotreturned (List.mem_map.mpr ⟨_, hmem, heq⟩))
  have hexec := h.exec.append (.single ha)
  have hpaired := paired_of_onceStep hstep h.paired
  cases heffect with
  | running next report' heffect hbooks hreturned =>
      have hset : (books w y).Perm
          ((⟨cycle.workspaceId, next⟩, report') :: (books w x).eraseIdx slot) := by
        rw [hbooks]
        exact List.set_perm_cons_eraseIdx hlt _
      refine ⟨hexec, hpaired, ?_, h.tokens_step ha, hstill, ?_, ?_⟩
      · rw [hwaiting, hreturned]
        refine List.Perm.trans ?_ htenants
        have hmap := hset.map (fun z => z.1.workspaceId)
        exact (List.Perm.append_left _ (hmap.append_right _)).trans List.perm_middle
      · intro z hz
        rcases List.mem_cons.mp (hset.mem_iff.mp hz) with rfl | hz
        · exact hmine.step h.exec ha heffect (fun token htoken => h.not_stamped hnew htoken)
        · exact hrest z hz
      · rw [hreturned]
        exact hthrough
  | returned outcome heffect hbooks hreturned =>
      refine ⟨hexec, hpaired, ?_, h.tokens_step ha, hstill, ?_, ?_⟩
      · rw [hwaiting, hbooks, hreturned, List.map_append, List.map_cons, List.map_nil]
        refine List.Perm.trans ?_ htenants
        simp only [← List.append_assoc]
        exact List.perm_append_singleton _ _
      · rw [hbooks]
        exact hrest
      · intro tenant report'' hmem
        rw [hreturned] at hmem
        rcases List.mem_append.mp hmem with hmem | hmem
        · exact hthrough tenant report'' hmem
        · cases List.mem_singleton.mp hmem
          exact hmine.returned h.exec ha heffect

/-- Each step of a run keeps the accounts in order. -/
theorem reconciled_step (h : P.Reconciled assigned w s₀ as x) (hassigned : assigned.Nodup)
    (hnew : NewToken s₀ as a) (hstep : P.onceStep w x a = some y) :
    P.Reconciled assigned w s₀ (as ++ [a]) y := by
  rcases books_of_onceStep hstep h.paired with
    ⟨hother, hwaiting, hbooks, hreturned⟩ | ⟨workspaceId, rfl, hwaiting, hbooks, hreturned⟩ |
    ⟨slot, action, cycle, report, rfl, hbooked, hwaiting, heffect⟩
  · exact reconciled_other h hstep hnew hother hwaiting hbooks hreturned
  · exact reconciled_start h hstep hwaiting hbooks hreturned
  · exact reconciled_cycle h hassigned hstep hnew hbooked hwaiting heffect

omit [DecidableEq ω] in
theorem newToken_of_fresh {bs : List (SysAction ω ι γ)} (h : FreshLeases s₀.db (as ++ a :: bs)) :
    NewToken s₀ as a := by
  obtain ⟨hnodup, hrows⟩ := h
  intro token htoken
  rw [List.filterMap_append, List.filterMap_cons_some htoken] at hnodup hrows
  refine ⟨fun hmem => ?_, fun r hr hstamped => ?_⟩
  · exact List.disjoint_of_nodup_append hnodup hmem List.mem_cons_self
  · exact hrows r hr token hstamped (List.mem_append_right _ List.mem_cons_self)

end Runs

/-- A call of `run_once` by `w`: the acquisition in `s` assigns it the workspaces, and from `s₀` to
`t` its cycles take their steps, interleaved with those of others, until all have returned. -/
structure RunsOnce (w : ω) (s s₀ : Sys ω σ) (assigned : List Uuid) (as : List (SysAction ω ι γ))
    (t : Sys ω σ) (memory : RunMemory) : Prop where
  acquired : ∃ now env, P.step s (.acquire w now env) = some s₀ ∧
    acquireWorkspaces (P.config w) now env s.db = (.ok assigned, s₀.db)
  cycles : P.OnceRun w (s₀, .empty) as (t, memory)
  finished : (t.workers w).waiting = [] ∧ (t.workers w).cycles = []

/-- The report counts what the run has done to the rows of the tenants whose cycles returned, and no
cycle touches the rows or the contribution of another tenant. -/
structure ReportAgrees (w : ω) (s₀ : Sys ω σ) (assigned : List Uuid) (as : List (SysAction ω ι γ))
    (perTenant : List TenantOutcome) : Prop where
  tenants : (perTenant.map Prod.fst).Perm assigned
  leased : {key ∈ P.Moved s₀ as w [.leased] |
    ∃ report, (key.1, .ok report) ∈ perTenant}.encard = (runReport perTenant).leased
  delivered : {key ∈ P.Moved s₀ as w [.delivered] |
    ∃ report, (key.1, .ok report) ∈ perTenant}.encard = (runReport perTenant).delivered
  failed : {key ∈ P.Moved s₀ as w [.failed, .deadLetter] |
    ∃ report, (key.1, .ok report) ∈ perTenant}.encard = (runReport perTenant).failed
  deadLettered : {key ∈ P.Moved s₀ as w [.deadLetter] |
    ∃ report, (key.1, .ok report) ∈ perTenant}.encard = (runReport perTenant).deadLettered
  balanced : (runReport perTenant).leased =
    (runReport perTenant).delivered + (runReport perTenant).failed
  tenantFailures : {workspaceId | ∃ e, (workspaceId, .error e) ∈ perTenant}.encard =
    (runReport perTenant).tenantFailures
  contributions : ∀ workspaceId report, (workspaceId, .ok report) ∈ perTenant →
    P.Counted s₀ as w workspaceId report
  isolated : ∀ xs slot action ys x y cycle workspaceId, as = xs ++ .cycle w slot action :: ys →
    P.OnceRun w (s₀, .empty) xs x → P.onceStep w x (.cycle w slot action) = some y →
      (x.1.workers w).cycles[slot]? = some cycle → workspaceId ≠ cycle.workspaceId →
        y.1.db.own workspaceId = x.1.db.own workspaceId ∧
          contribution w y workspaceId = contribution w x workspaceId

section RunOnce

variable {P} {w : ω} {s s₀ t : Sys ω σ} {assigned : List Uuid} {as : List (SysAction ω ι γ)}
  {memory : RunMemory}

theorem RunsOnce.reconciled_start (h : P.RunsOnce w s s₀ assigned as t memory) :
    P.Reconciled assigned w s₀ [] (s₀, .empty) := by
  obtain ⟨now, env, hstep, hassigned⟩ := h.acquired
  have hworker : (s₀.workers w).waiting = assigned ∧ (s₀.workers w).cycles = [] := by
    simp only [step, hassigned] at hstep
    split_ifs at hstep with hidle
    simp only [Bool.and_eq_true, List.isEmpty_iff] at hidle
    rw [← Option.some.inj hstep, setWorker_self]
    exact ⟨rfl, hidle.2⟩
  have hbooks : books w (s₀, .empty) = [] := List.zip_nil_right
  refine ⟨.nil _, ?_, ?_, fun r hr token htoken => Or.inl ⟨r, hr, htoken⟩,
    fun workspaceId _ => counted_nil _ _ _, ?_, ?_⟩
  · exact congrArg List.length hworker.2
  · rw [hbooks, hworker.1]
    exact .of_eq (List.append_nil assigned)
  · intro z hz
    rw [hbooks] at hz
    exact absurd hz List.not_mem_nil
  · intro workspaceId report hmem
    exact absurd hmem List.not_mem_nil

theorem RunsOnce.reconciled (h : P.RunsOnce w s s₀ assigned as t memory) (hassigned : assigned.Nodup)
    (hfresh : FreshLeases s₀.db as) : P.Reconciled assigned w s₀ as (t, memory) := by
  refine Run.history_of (P := fun pre x => P.Reconciled assigned w s₀ pre x)
    (C := fun pre a => NewToken s₀ pre a) ?_ h.cycles ?_ h.reconciled_start
  · exact fun pre x a y hx hnew ha => reconciled_step hx hassigned hnew ha
  · rintro xs a ys rfl
    exact newToken_of_fresh hfresh

end RunOnce

/-- The report of a call of `run_once` agrees with the database, whichever batches it leases, whatever
the publisher answers, whichever tenants fail and whatever other workers and clients do meanwhile. -/
theorem runOnce_reportAgrees {w : ω} {s s₀ t : Sys ω σ} {assigned : List Uuid}
    {as : List (SysAction ω ι γ)} {memory : RunMemory} (h : P.RunsOnce w s s₀ assigned as t memory)
    (hassigned : assigned.Nodup) (hfresh : FreshLeases s₀.db as) :
    P.ReportAgrees w s₀ assigned as memory.perTenant := by
  have hend := h.reconciled hassigned hfresh
  have htenants : (memory.perTenant.map Prod.fst).Perm assigned := by
    have hall := hend.tenants
    have hbooks : books w (t, memory) = [] := by
      rw [books, h.finished.2]
      rfl
    rwa [h.finished.1, hbooks] at hall
  have hnodup := htenants.nodup_iff.mpr hassigned
  have hcounted := fun workspaceId report hmem => (hend.returned workspaceId report hmem).1
  refine ⟨htenants, ?_, ?_, ?_, ?_, ?_, encard_failures hnodup, hcounted, ?_⟩
  · exact encard_returned rfl (fun _ _ => rfl) (fun _ _ => rfl) hnodup
      (fun workspaceId report hmem => (hcounted workspaceId report hmem).leased)
  · exact encard_returned rfl (fun _ _ => rfl) (fun _ _ => rfl) hnodup
      (fun workspaceId report hmem => (hcounted workspaceId report hmem).delivered)
  · exact encard_returned rfl (fun _ _ => rfl) (fun _ _ => rfl) hnodup
      (fun workspaceId report hmem => (hcounted workspaceId report hmem).failed)
  · exact encard_returned rfl (fun _ _ => rfl) (fun _ _ => rfl) hnodup
      (fun workspaceId report hmem => (hcounted workspaceId report hmem).deadLettered)
  · exact runReport_balanced (fun workspaceId report hmem =>
      (hend.returned workspaceId report hmem).2)
  · intro xs slot action ys x y cycle workspaceId _ hxs hstep hcycle hne
    have hpaired : Paired w x := Run.invariant (P := Paired w)
      (fun _ _ _ hpaired ha => paired_of_onceStep ha hpaired) hxs h.reconciled_start.paired
    exact others_of_cycle hstep hpaired hcycle hne

/-! ## One delivery, one dead letter, one failing tenant -/

def twoTenants : Program Unit Unit Unit (CreateIssueCall × Env) :=
  { noopProgram with
    config := fun _ => { OutboxWorkerConfig.default with workspaceIds := some [1, 2] } }

/-- Row 4 holds the event of an issue, and row 5 a payload that no handler can decode. -/
def mixedDb : Db :=
  { projectDb with
    outbox := ⟨[outboxRow Codec.unary (retriedCall 4 0),
      { outboxRow Codec.unary (retriedCall 4 0) with id := 5, eventId := 3, payload := .null }],
      by decide, by decide⟩ }

/-- The lease call for workspace 2 fails at its first statement. -/
def mixedRun : List (SysAction Unit Unit (CreateIssueCall × Env)) :=
  [.start (), .start (), .cycle () 0 (.lease 0 7 .quiet), .cycle () 1 (.lease 0 8 ⟨none, [true]⟩),
    .cycle () 0 (.dispatch 1 ()), .cycle () 0 (.dispatch 0 ()),
    .cycle () 0 (.apply ⟨.quiet, 1, 0⟩), .cycle () 0 (.apply ⟨.quiet, 1, 0⟩),
    .cycle () 0 (.cleanOutbox 1 1 .quiet), .cycle () 0 (.cleanIdempotency 1 .quiet)]

theorem runOnce_reportAgrees_mixedRun : ∃ s₀ t memory,
    (twoTenants.RunsOnce () (twoTenants.initial mixedDb) s₀ [1, 2] mixedRun t memory ∧
      [(1 : Uuid), 2].Nodup ∧ FreshLeases s₀.db mixedRun) ∧
    twoTenants.ReportAgrees () s₀ [1, 2] mixedRun memory.perTenant ∧
    runReport memory.perTenant = ⟨2, 1, 1, 1, 0, 0, 1⟩ := by
  have hrun : ∃ s₀ t memory,
      twoTenants.RunsOnce () (twoTenants.initial mixedDb) s₀ [1, 2] mixedRun t memory ∧
      s₀.db = mixedDb ∧ runReport memory.perTenant = ⟨2, 1, 1, 1, 0, 0, 1⟩ :=
    ⟨_, _, _, ⟨⟨0, .quiet, rfl, rfl⟩, Run.of_foldlM rfl, rfl, rfl⟩, rfl, rfl⟩
  obtain ⟨s₀, t, memory, hrun, hdb, hreport⟩ := hrun
  have hnodup : [(1 : Uuid), 2].Nodup := by simp
  have hfresh : FreshLeases s₀.db mixedRun := by
    have htokens : mixedRun.filterMap SysAction.leaseToken? = [7, 8] := rfl
    have hnone : ∀ r ∈ mixedDb.outbox.rows, r.leaseToken = none := by simp [mixedDb, outboxRow]
    refine ⟨by simp [htokens], fun r hr token htoken => ?_⟩
    rw [hdb] at hr
    rw [hnone r hr] at htoken
    cases htoken
  exact ⟨s₀, t, memory, ⟨hrun, hnodup, hfresh⟩, runOnce_reportAgrees _ hrun hnodup hfresh, hreport⟩

end Program
end Dandori
