import Dandori.OutboxSafety
import Dandori.RowSecurity
import Mathlib.Data.Set.Card

/-!
# The rows that a run moves

A transaction moves a row to a status when it changes the row and leaves it with that status. A
worker has moved the rows that the steps of its cycles have moved: a lease moves the rows of its
batch, a mark the row it holds, and the other steps move none.
-/

namespace Dandori

open IssueRepository OutboxRepository OutboxWorkerService

/-! ## What a transaction moves -/

namespace OutboxRepository

/-- The rows that are left with one of the statuses and were changed. -/
def rowsMoved (statuses : List OutboxStatus) (db db' : Db) : Set (Uuid × Uuid) :=
  {key | ∃ r ∈ db'.outbox, r ∉ db.outbox ∧ r.status ∈ statuses ∧ (r.workspaceId, r.id) = key}

section RowsMoved

variable {codec : Codec} {env : Env} {db db' : Db} {statuses : List OutboxStatus}

theorem rowsMoved_of_subset (h : ∀ r ∈ db'.outbox, r ∈ db.outbox) :
    rowsMoved statuses db db' = ∅ := by
  rw [Set.eq_empty_iff_forall_notMem]
  rintro key ⟨r, hr, hnew, _⟩
  exact hnew (h r hr)

theorem rowsMoved_mono {fewer : List OutboxStatus} (h : fewer ⊆ statuses) :
    rowsMoved fewer db db' ⊆ rowsMoved statuses db db' := by
  rintro key ⟨r, hr, hnew, hstatus, hkey⟩
  exact ⟨r, hr, hnew, h hstatus, hkey⟩

theorem own_ne_of_rowsMoved {key : Uuid × Uuid} (h : key ∈ rowsMoved statuses db db') :
    db'.own key.1 ≠ db.own key.1 := by
  obtain ⟨r, hr, hnew, _, rfl⟩ := h
  intro hown
  have hmem : r ∈ (db'.own r.workspaceId).outbox := Table.mem_filter.mpr ⟨hr, decide_eq_true rfl⟩
  rw [hown] at hmem
  exact hnew (Table.mem_filter.mp hmem).1

theorem mem_rowsMoved_lease {call : LeaseCall} {batch : List OutboxMessage}
    (h : leaseOutboxBatch codec call env db = (.ok batch, db'))
    (hfresh : ∀ r ∈ db.outbox, r.leaseToken ≠ some call.leaseToken) {key : Uuid × Uuid} :
    key ∈ rowsMoved statuses db db' ↔
      .leased ∈ statuses ∧ ∃ m ∈ batch, key = (call.auth.workspaceId, m.id) := by
  have hworkspace : ∀ r : OutboxRow, isCandidate call.auth.workspaceId call.now r = true →
      r.workspaceId = call.auth.workspaceId := by
    intro r hcandidate
    simp only [isCandidate, Bool.and_eq_true, decide_eq_true_eq] at hcandidate
    exact hcandidate.1
  constructor
  · rintro ⟨s, hs, hnew, hstatus, rfl⟩
    rcases leaseOutboxBatch_row h hs with hold | ⟨r, _, hcandidate, rfl, hm⟩
    · exact absurd hold hnew
    · exact ⟨hstatus, _, hm, Prod.ext (hworkspace r hcandidate) rfl⟩
  · rintro ⟨hstatus, m, hm, rfl⟩
    obtain ⟨r, _, hcandidate, hleased, rfl⟩ := leaseOutboxBatch_message h hm
    exact ⟨call.leased r, hleased, fun hold => hfresh _ hold rfl, hstatus,
      Prod.ext (hworkspace r hcandidate) rfl⟩

theorem mem_rowsMoved_mark {mark : LeaseTransition}
    (h : mark.run codec env db = (.ok (), db')) (hcleared : ∀ r, (mark.written r).leaseToken = none) :
    ∃ r ∈ db.outbox, r.id = mark.outboxId ∧ r.leaseToken = some mark.leaseToken ∧
      ∀ (statuses : List OutboxStatus) (key : Uuid × Uuid), key ∈ rowsMoved statuses db db' ↔
        (mark.written r).status ∈ statuses ∧ key = (mark.auth.workspaceId, mark.outboxId) := by
  obtain ⟨_, _, r, hr, hguard, _⟩ := LeaseTransition.run_eq_ok.mp h
  obtain ⟨hworkspace, hid, hheld⟩ := LeaseTransition.guard_iff.mp hguard
  simp only [heldBy, Bool.and_eq_true, decide_eq_true_eq] at hheld
  have htoken : r.leaseToken = some mark.leaseToken := hheld.1.1.2
  have hkey : ((mark.written r).workspaceId, (mark.written r).id) =
      (mark.auth.workspaceId, mark.outboxId) := by
    rw [mark.written_id, hid, ← hworkspace]
    exact Prod.ext ((mark.update (leaseOfRow r)).tenant_apply r) rfl
  refine ⟨r, hr, hid, htoken, fun statuses key => ⟨?_, ?_⟩⟩
  · rintro ⟨x, hx, hnew, hstatus, rfl⟩
    rcases LeaseTransition.row_of_run h hx with hold | ⟨r₀, hr₀, hid₀, rfl⟩
    · exact absurd hold hnew
    · rw [Table.eq_of_key_eq hr₀ hr (hid₀.trans hid.symm)] at hstatus ⊢
      exact ⟨hstatus, hkey⟩
  · rintro ⟨hstatus, rfl⟩
    refine ⟨mark.written r, LeaseTransition.written_mem h hr hid, fun hold => ?_, hstatus, hkey⟩
    have hsame : mark.written r = r := Table.eq_of_key_eq hold hr (mark.written_id r)
    have hnone := hcleared r
    rw [hsame, htoken] at hnone
    cases hnone

end RowsMoved
end OutboxRepository

namespace OutboxWorkerService

theorem written_outcomeMark_leaseToken (config : OutboxWorkerConfig) (auth : AuthContext)
    (message : OutboxMessage) (outcome : Except PublishError Unit) (reading : MarkEnv)
    (r : OutboxRow) :
    ((outcomeMark config auth message outcome reading).written r).leaseToken = none := by
  cases outcome with
  | ok _ => rfl
  | error error => exact (written_failedMark_lease _ _ _ r).2.2.1

def markedStatus (config : OutboxWorkerConfig) (message : OutboxMessage)
    (outcome : Except PublishError Unit) (reading : MarkEnv) (attempts : Int32) : OutboxStatus :=
  match outcome with
  | .ok () => .delivered
  | .error error =>
      if (failureContext config message error reading).deadLetterNow attempts then .deadLetter
      else .failed

section MarkedStatus

variable (config : OutboxWorkerConfig) (message : OutboxMessage) (outcome : Except PublishError Unit)
  (reading : MarkEnv) (report : WorkerRunReport)

theorem written_markedStatus (auth : AuthContext) (r : OutboxRow) :
    ((outcomeMark config auth message outcome reading).written r).status =
      markedStatus config message outcome reading r.attempts :=
  written_outcomeMark_status config auth message outcome reading r

theorem markedStatus_ne_leased (attempts : Int32) :
    markedStatus config message outcome reading attempts ≠ .leased := by
  unfold markedStatus
  split
  · exact nofun
  · split <;> exact nofun

/-- The worker counts an outcome as the store settles it, given the attempts of the row. -/
theorem reportOutcome_counts {status : OutboxStatus}
    (hstatus : markedStatus config message outcome reading message.attempts = status) :
    (reportOutcome config message outcome report).leased = report.leased ∧
    (reportOutcome config message outcome report).delivered =
      report.delivered + (if status ∈ [.delivered] then 1 else 0) ∧
    (reportOutcome config message outcome report).failed =
      report.failed + (if status ∈ [.failed, .deadLetter] then 1 else 0) ∧
    (reportOutcome config message outcome report).deadLettered =
      report.deadLettered + (if status ∈ [.deadLetter] then 1 else 0) := by
  subst hstatus
  cases outcome with
  | ok _ => simp [markedStatus, reportOutcome]
  | error error =>
      have hterminal : decide ((failureContext config message error reading).classification =
          .terminal) = !error.kind.isTransient := by
        unfold failureContext
        cases error.kind.isTransient <;> rfl
      have hdead : (failureContext config message error reading).deadLetterNow message.attempts =
          (!error.kind.isTransient || decide (config.maxAttempts ≤ message.attempts + 1)) := by
        simp only [OutboxFailureContext.deadLetterNow, hterminal]
        rfl
      simp only [markedStatus, reportOutcome, hdead]
      split <;> simp

end MarkedStatus
end OutboxWorkerService

def SysAction.leaseToken? {ω ι γ : Type} : SysAction ω ι γ → Option Uuid
  | .cycle _ _ (.lease _ leaseToken _) => some leaseToken
  | _ => none

namespace Program

variable {ω σ ι γ : Type} [DecidableEq ω] (P : Program ω σ ι γ)

/-! ## What a run moves -/

/-- The lease calls of a run generate different tokens, and none that a row has when it starts. -/
def FreshLeases (db : Db) (as : List (SysAction ω ι γ)) : Prop :=
  (as.filterMap SysAction.leaseToken?).Nodup ∧
    ∀ r ∈ db.outbox, ∀ token, r.leaseToken = some token → token ∉ as.filterMap SysAction.leaseToken?

/-- The rows, by workspace and id, that the cycles of `w` have moved to one of the statuses. -/
def Moved (s₀ : Sys ω σ) (as : List (SysAction ω ι γ)) (w : ω) (statuses : List OutboxStatus) :
    Set (Uuid × Uuid) :=
  {key | Run.Occurs P.step (fun s a t => (∃ slot action, a = .cycle w slot action) ∧
    key ∈ rowsMoved statuses s.db t.db) s₀ as}

structure Counted (s₀ : Sys ω σ) (as : List (SysAction ω ι γ)) (w : ω) (workspaceId : Uuid)
    (report : WorkerRunReport) : Prop where
  leased : {key ∈ P.Moved s₀ as w [.leased] | key.1 = workspaceId}.encard = report.leased
  delivered : {key ∈ P.Moved s₀ as w [.delivered] | key.1 = workspaceId}.encard = report.delivered
  failed : {key ∈ P.Moved s₀ as w [.failed, .deadLetter] | key.1 = workspaceId}.encard = report.failed
  deadLettered : {key ∈ P.Moved s₀ as w [.deadLetter] | key.1 = workspaceId}.encard =
    report.deadLettered

section Moves

variable {P} {s₀ s t : Sys ω σ} {as bs : List (SysAction ω ι γ)} {a : SysAction ω ι γ} {w : ω}
  {statuses : List OutboxStatus} {workspaceId : Uuid} {report : WorkerRunReport}

theorem mem_moved_append (h : P.Exec s₀ as s) (ha : P.step s a = some t) (key : Uuid × Uuid) :
    key ∈ P.Moved s₀ (as ++ [a]) w statuses ↔ key ∈ P.Moved s₀ as w statuses ∨
      (∃ slot action, a = .cycle w slot action) ∧ key ∈ rowsMoved statuses s.db t.db :=
  Run.occurs_append_singleton h ha

theorem moved_mono {fewer : List OutboxStatus} (h : fewer ⊆ statuses) :
    P.Moved s₀ as w fewer ⊆ P.Moved s₀ as w statuses := by
  rintro key ⟨xs, a, ys, u, v, has, hxs, ha, hcycle, hkey⟩
  exact ⟨xs, a, ys, u, v, has, hxs, ha, hcycle, rowsMoved_mono h hkey⟩

theorem counted_nil (s : Sys ω σ) (w : ω) (workspaceId : Uuid) :
    P.Counted s [] w workspaceId .default := by
  have hnone : ∀ statuses, {key ∈ P.Moved s [] w statuses | key.1 = workspaceId} = ∅ := by
    intro statuses
    rw [Set.eq_empty_iff_forall_notMem]
    exact fun key hkey => Run.not_occurs_nil hkey.1
  constructor <;> rw [hnone] <;> simp [WorkerRunReport.default]

theorem Counted.congr (h : P.Counted s₀ as w workspaceId report)
    (hsame : ∀ statuses key, key.1 = workspaceId →
      (key ∈ P.Moved s₀ bs w statuses ↔ key ∈ P.Moved s₀ as w statuses)) :
    P.Counted s₀ bs w workspaceId report := by
  have hset : ∀ statuses, {key ∈ P.Moved s₀ bs w statuses | key.1 = workspaceId} =
      {key ∈ P.Moved s₀ as w statuses | key.1 = workspaceId} := by
    intro statuses
    ext key
    exact and_congr_left (fun hkey => hsame statuses key hkey)
  constructor <;> rw [hset]
  · exact h.leased
  · exact h.delivered
  · exact h.failed
  · exact h.deadLettered

theorem encard_moved_append (statuses : List OutboxStatus) {slot : ℕ} {action : CycleAction ι}
    {ids : List Uuid} {status : OutboxStatus} (h : P.Exec s₀ as s)
    (ha : P.step s (.cycle w slot action) = some t) (hids : ids.Nodup)
    (hmoved : ∀ key, key ∈ rowsMoved statuses s.db t.db ↔
      status ∈ statuses ∧ ∃ id ∈ ids, key = (workspaceId, id))
    (hnew : status ∈ statuses → ∀ id ∈ ids, (workspaceId, id) ∉ P.Moved s₀ as w statuses) :
    {key ∈ P.Moved s₀ (as ++ [.cycle w slot action]) w statuses | key.1 = workspaceId}.encard =
      {key ∈ P.Moved s₀ as w statuses | key.1 = workspaceId}.encard +
        if status ∈ statuses then ids.length else 0 := by
  have hcycle : ∃ slot' action', (SysAction.cycle w slot action : SysAction ω ι γ) =
      .cycle w slot' action' := ⟨_, _, rfl⟩
  by_cases hstatus : status ∈ statuses
  · set added : Set (Uuid × Uuid) := ((ids.map (Prod.mk workspaceId)).toFinset : Set (Uuid × Uuid))
      with hadded
    have hcard : added.encard = ids.length := by
      have hnodup : (ids.map (Prod.mk workspaceId)).Nodup :=
        hids.map (fun _ _ heq => (Prod.mk.inj heq).2)
      rw [hadded, Set.encard_coe_eq_coe_finsetCard, List.toFinset_card_of_nodup hnodup,
        List.length_map]
    have hsplit : {key ∈ P.Moved s₀ (as ++ [.cycle w slot action]) w statuses | key.1 = workspaceId} =
        {key ∈ P.Moved s₀ as w statuses | key.1 = workspaceId} ∪ added := by
      ext key
      simp only [hadded, Set.mem_union, List.coe_toFinset, Set.mem_ofPred_eq, List.mem_map,
        mem_moved_append h ha, hmoved, hcycle, hstatus, true_and]
      constructor
      · rintro ⟨hold | ⟨id, hid, rfl⟩, hkey⟩
        · exact Or.inl ⟨hold, hkey⟩
        · exact Or.inr ⟨id, hid, rfl⟩
      · rintro (⟨hold, hkey⟩ | ⟨id, hid, rfl⟩)
        · exact ⟨Or.inl hold, hkey⟩
        · exact ⟨Or.inr ⟨id, hid, rfl⟩, rfl⟩
    have hdisjoint : Disjoint {key ∈ P.Moved s₀ as w statuses | key.1 = workspaceId} added := by
      rw [Set.disjoint_left]
      rintro key ⟨hold, _⟩ hkey
      simp only [hadded, List.coe_toFinset, Set.mem_ofPred_eq, List.mem_map] at hkey
      obtain ⟨id, hid, rfl⟩ := hkey
      exact hnew hstatus id hid hold
    rw [hsplit, Set.encard_union_eq hdisjoint, hcard, if_pos hstatus]
  · have hsame : {key ∈ P.Moved s₀ (as ++ [.cycle w slot action]) w statuses | key.1 = workspaceId} =
        {key ∈ P.Moved s₀ as w statuses | key.1 = workspaceId} := by
      ext key
      simp [mem_moved_append h ha, hmoved, hstatus]
    rw [hsame, if_neg hstatus, Nat.cast_zero, add_zero]

theorem Counted.append {slot : ℕ} {action : CycleAction ι} {ids : List Uuid} {status : OutboxStatus}
    {report' : WorkerRunReport} (h : P.Counted s₀ as w workspaceId report) (hexec : P.Exec s₀ as s)
    (ha : P.step s (.cycle w slot action) = some t) (hids : ids.Nodup)
    (hmoved : ∀ statuses key, key ∈ rowsMoved statuses s.db t.db ↔
      status ∈ statuses ∧ ∃ id ∈ ids, key = (workspaceId, id))
    (hnew : ∀ id ∈ ids, ∀ statuses, status ∈ statuses →
      statuses ∈ [[.leased], [.delivered], [.failed, .deadLetter]] →
        (workspaceId, id) ∉ P.Moved s₀ as w statuses)
    (hleased : report'.leased = report.leased + if status ∈ [.leased] then ids.length else 0)
    (hdelivered : report'.delivered =
      report.delivered + if status ∈ [.delivered] then ids.length else 0)
    (hfailed : report'.failed =
      report.failed + if status ∈ [.failed, .deadLetter] then ids.length else 0)
    (hdeadLettered : report'.deadLettered =
      report.deadLettered + if status ∈ [.deadLetter] then ids.length else 0) :
    P.Counted s₀ (as ++ [.cycle w slot action]) w workspaceId report' := by
  have hcount := fun statuses hnew =>
    encard_moved_append statuses hexec ha hids (hmoved statuses) hnew
  constructor
  · rw [hcount _ (fun hin id hid => hnew id hid _ hin (by simp)), h.leased, hleased, Nat.cast_add]
  · rw [hcount _ (fun hin id hid => hnew id hid _ hin (by simp)), h.delivered, hdelivered,
      Nat.cast_add]
  · rw [hcount _ (fun hin id hid => hnew id hid _ hin (by simp)), h.failed, hfailed, Nat.cast_add]
  · rw [hcount _ (fun hin id hid hmem => ?_), h.deadLettered, hdeadLettered, Nat.cast_add]
    have hsub : [OutboxStatus.deadLetter] ⊆ [.failed, .deadLetter] := by simp
    exact hnew id hid _ (hsub hin) (by simp) (moved_mono hsub hmem)

/-- A row has a token after a step that it had before, with all its columns, or that the step
generated. -/
theorem token_of_step (h : P.StepEffect s a t) {r : OutboxRow} {token : Uuid}
    (hr : r ∈ t.db.outbox) (htoken : r.leaseToken = some token) :
    r ∈ s.db.outbox ∨ a.leaseToken? = some token := by
  have heffect := db_of_step h
  cases a with
  | request request =>
      generalize t.db = db' at heffect hr
      cases heffect with
      | leases => exact Or.inl hr
      | created _ hfresh =>
          rcases ((Table.insert?_eq_some hfresh.outbox).2.2 r).mp hr with rfl | hr
          · cases htoken
          · exact Or.inl hr
  | acquire | start | shutdown | crash =>
      generalize t.db = db' at heffect hr
      cases heffect
      exact Or.inl hr
  | cycle w slot action =>
      cases h with
      | unchanged => exact Or.inl hr
      | @cycled _ _ _ cycle phase' publisher' db' hcycle hcycled =>
          rw [setWorker_db] at hr
          obtain ⟨workspaceId, phase⟩ := cycle
          cases hcycled with
          | failed => exact Or.inl hr
          | leased hlease =>
              rcases leaseOutboxBatch_row hlease hr with hold | ⟨_, _, _, rfl, _⟩
              · exact Or.inl hold
              · exact Or.inr htoken
          | dispatched => exact Or.inl hr
          | applied hrun =>
              rcases LeaseTransition.row_of_run hrun hr with hr | ⟨r₀, _, _, rfl⟩
              · exact Or.inl hr
              · rw [written_outcomeMark_leaseToken] at htoken
                cases htoken
          | cleanedOutbox => exact Or.inl (Table.mem_filter.mp hr).1
          | cleanedIdempotency => exact Or.inl hr

end Moves

end Program
end Dandori
