import Dandori.WorkerSystem

/-!
# Peer workers and one workspace

A worker leases its workspaces once, when it acquires them, and nothing renews the leases while the
cycles run. As long as no peer acquires at or after the end of the lease of an unfinished workspace,
the lease row of a workspace names the one worker that has it waiting or in a cycle, so no two workers
are inside a cycle of one workspace. A cycle that outlives the lease is joined by a second one.
-/

namespace Dandori

open IssueRepository OutboxRepository PartitionRepository OutboxWorkerService

def CycleAction.readings {ι : Type} : CycleAction ι → List Timestamp
  | .lease now _ _ => [now]
  | .dispatch _ _ => []
  | .apply reading => [reading.now]
  | .cleanOutbox deliveredNow deadLetterNow _ => [deliveredNow, deadLetterNow]
  | .cleanIdempotency now _ => [now]

def SysAction.readings {ω ι γ : Type} : SysAction ω ι γ → List Timestamp
  | .acquire _ now _ => [now]
  | .cycle _ _ action => action.readings
  | _ => []

namespace Sys

variable {ω σ : Type}

/-- The worker is inside `run_tenant_cycle` for the workspace. -/
def Inside (s : Sys ω σ) (w : ω) (workspaceId : Uuid) : Prop :=
  ∃ c ∈ (s.workers w).cycles, c.workspaceId = workspaceId

def Unfinished (s : Sys ω σ) (w : ω) (workspaceId : Uuid) : Prop :=
  workspaceId ∈ (s.workers w).waiting ∨ s.Inside w workspaceId

def DoubleProcesses (s : Sys ω σ) : Prop :=
  ∃ v w workspaceId, v ≠ w ∧ s.Inside v workspaceId ∧ s.Inside w workspaceId

end Sys

namespace Program

variable {ω σ ι γ : Type} [DecidableEq ω]

structure Peers (P : Program ω σ ι γ) : Prop where
  dynamic : ∀ w, (P.config w).workspaceIds = none
  distinct : Function.Injective (fun w => (P.config w).workerInstanceId)

/-- In no run on a clock that never goes back are two peers inside one workspace. -/
def PeersExclusive (P : Program ω σ ι γ) (db : Db) : Prop :=
  ∀ as s, P.Exec (P.initial db) as s → (as.flatMap SysAction.readings).Pairwise (· ≤ ·) →
    ¬s.DoubleProcesses

/-- An acquisition whose statement is executed reads the clock before the end of the lease of each
workspace it lists that a peer has not finished. -/
def Timely (P : Program ω σ ι γ) (s : Sys ω σ) : SysAction ω ι γ → Prop
  | .acquire w now env =>
      let call := acquireCall (P.config w) now
      env.faults.head?.getD false = true ∨
        ∀ v, v ≠ w → ∀ row ∈ listWorkspaceIdsForPartitionLease s.db call.buckets
            (scanLimit call.limit).toNat,
          s.Unfinished v row.id → ∀ l ∈ s.db.partitionLeases, l.workspaceId = row.id →
            now < l.leasedUntil
  | _ => True

section Leases

variable {P : Program ω σ ι γ} {s t : Sys ω σ} {action : SysAction ω ι γ}

theorem partitionLeases_of_step (h : P.StepEffect s action t) :
    t.db.partitionLeases = s.db.partitionLeases ∨
    (∃ w now env assigned, action = .acquire w now env ∧
      (s.workers w).waiting = [] ∧ (s.workers w).cycles = [] ∧
      acquireWorkspaces (P.config w) now env s.db = (.ok assigned, t.db)) ∨
    ∃ w env, action = .shutdown w env ∧ t.workers w = P.idleWorker ∧
      t.db.partitionLeases = s.db.partitionLeases.filter (fun r =>
        !(r.workspaceId ∈ (s.workers w).leased &&
          r.leaseOwner = (P.config w).workerInstanceId)) := by
  cases h with
  | unchanged => exact Or.inl rfl
  | @requested _ call db' _ hfresh =>
      have hrest := congrArg Db.partitionLeases hfresh.rest
      exact Or.inl hrest
  | @acquired w now env assigned db' hidle hacquire =>
      exact Or.inr (Or.inl ⟨w, now, env, assigned, rfl, hidle.1, hidle.2, hacquire⟩)
  | started => exact Or.inl rfl
  | @cycled w slot act cycle phase' publisher' db' _ heffect =>
      rw [setWorker_db]
      obtain ⟨workspaceId, phase⟩ := cycle
      cases heffect with
      | failed => exact Or.inl rfl
      | leased hlease =>
          obtain ⟨ids, v, rfl, _⟩ := leaseOutboxBatch_ok hlease
          exact Or.inl rfl
      | dispatched => exact Or.inl rfl
      | applied hrun =>
          obtain ⟨_, _, r, _, _, v, _, rfl⟩ := LeaseTransition.run_eq_ok.mp hrun
          exact Or.inl rfl
      | cleanedOutbox => exact Or.inl rfl
      | cleanedIdempotency => exact Or.inl rfl
  | shutDown w env =>
      rw [setWorker_db]
      rcases OutboxWorkerService.releasePartitions_cases (P.config w) (s.workers w).leased env s.db
        with hdb | hdb
      · exact Or.inl (by rw [hdb])
      · rcases PartitionRepository.releasePartitions_cases (P.config w).workerInstanceId
          (s.workers w).leased env s.db with
          ⟨_, hrelease, _⟩ | ⟨_, hrelease⟩
        · exact Or.inl (by rw [hdb, hrelease])
        · exact Or.inr (Or.inr ⟨w, env, rfl, setWorker_self _ _ _ _, by rw [hdb, hrelease]⟩)
  | crashed => exact Or.inl rfl

theorem unfinished_of_step (h : P.StepEffect s action t) {w : ω} {workspaceId : Uuid}
    (hx : t.Unfinished w workspaceId) :
    s.Unfinished w workspaceId ∨ ∃ now env assigned, action = .acquire w now env ∧
      workspaceId ∈ assigned ∧
      acquireWorkspaces (P.config w) now env s.db = (.ok assigned, t.db) := by
  rcases hx with hwaiting | ⟨c, hc, rfl⟩
  · rcases mem_waiting_of_step h hwaiting with hwaiting | hacquired
    · exact Or.inl (Or.inl hwaiting)
    · exact Or.inr hacquired
  · rcases mem_cycles_of_step h hc with hc | ⟨_, hwaiting⟩ | ⟨_, _, c₀, _, _, hc₀, hid, _⟩
    · exact Or.inl (Or.inr ⟨c, hc, rfl⟩)
    · exact Or.inl (Or.inl hwaiting)
    · exact Or.inl (Or.inr ⟨c₀, List.mem_of_getElem? hc₀, hid⟩)

def LeasesHeld (P : Program ω σ ι γ) (s : Sys ω σ) : Prop :=
  ∀ w workspaceId, s.Unfinished w workspaceId →
    ∃ l, s.db.partitionLeases.find? workspaceId = some l ∧
      l.leaseOwner = (P.config w).workerInstanceId

theorem LeasesHeld.step (hpeers : P.Peers) (hinv : LeasesHeld P s) (htimely : P.Timely s action)
    (h : P.step s action = some t) : LeasesHeld P t := by
  have heffect := P.step_effect h
  intro v x hnow
  rcases unfinished_of_step heffect hnow with hx | ⟨now, env, assigned, _, hassigned, hacquire⟩
  · obtain ⟨l, hl, howner⟩ := hinv v x hx
    rcases partitionLeases_of_step heffect with
      hsame | ⟨w, now, env, assigned, rfl, hwaiting, hcycles, hacquire⟩ | ⟨w, env, rfl, hidle, hleases⟩
    · exact ⟨l, by rw [hsame]; exact hl, howner⟩
    · -- a peer keeps what it has not finished, since the acquisition finds its lease still running
      obtain ⟨hexecuted, hassigned, hother⟩ := acquireWorkspaces_leases (hpeers.dynamic w) hacquire
      have hv : v ≠ w := by
        rintro rfl
        rcases hx with hx | ⟨c, hc, _⟩
        · rw [hwaiting] at hx
          cases hx
        · rw [hcycles] at hc
          cases hc
      have hx' : x ∉ assigned := by
        intro hmem
        obtain ⟨_, hfree, row, hrow, rfl⟩ := hassigned x hmem
        have hlease := Table.find?_eq_some.mp hl
        have hrunning : now < l.leasedUntil := by
          rcases htimely with hfails | hrunning
          · rw [hexecuted] at hfails
            cases hfails
          · exact hrunning v hv row hrow hx l hlease.1 hlease.2
        have hne : l.leaseOwner ≠ (P.config w).workerInstanceId := fun he =>
          hv (hpeers.distinct (howner.symm.trans he))
        simp [heldByOther, hl, hrunning, hne] at hfree
      exact ⟨l, by rw [hother x hx']; exact hl, howner⟩
    · have hv : v ≠ w := by
        rintro rfl
        rcases hnow with hnow | ⟨c, hc, _⟩
        · rw [hidle] at hnow
          cases hnow
        · rw [hidle] at hc
          cases hc
      have hne : l.leaseOwner ≠ (P.config w).workerInstanceId := fun he =>
        hv (hpeers.distinct (howner.symm.trans he))
      refine ⟨l, ?_, howner⟩
      rw [hleases, Table.find?_filter, hl]
      simp [Option.filter, hne]
  · have hheld := (acquireWorkspaces_leases (hpeers.dynamic v) hacquire).2.1 x hassigned
    exact hheld.1

omit [DecidableEq ω] in
theorem LeasesHeld.not_doubleProcesses (hpeers : P.Peers) (hinv : LeasesHeld P s) :
    ¬s.DoubleProcesses := by
  rintro ⟨v, w, x, hne, hv, hw⟩
  obtain ⟨l, hl, howner⟩ := hinv v x (Or.inr hv)
  obtain ⟨l', hl', howner'⟩ := hinv w x (Or.inr hw)
  rw [hl] at hl'
  cases hl'
  exact hne (hpeers.distinct (howner.symm.trans howner'))

end Leases

/-- As long as acquisitions come before the leases of unfinished workspaces end, no two peers are inside
one workspace, in any state of any run. -/
theorem peers_exclusive_of_timely (P : Program ω σ ι γ) (hpeers : P.Peers) (db : Db)
    (as : List (SysAction ω ι γ)) (s : Sys ω σ) (h : P.Exec (P.initial db) as s)
    (htimely : Run.Along P.step P.Timely (P.initial db) as) : ¬s.DoubleProcesses := by
  have hinit : LeasesHeld P (P.initial db) := by
    rintro w x (hwaiting | ⟨c, hc, _⟩)
    · cases hwaiting
    · cases hc
  have hheld : LeasesHeld P s :=
    h.invariant_along (fun _ _ _ hinv ha hstep => hinv.step hpeers ha hstep) htimely hinit
  exact hheld.not_doubleProcesses hpeers

/-! ## A cycle that outlives its lease -/

def twoWorkers : Program Bool Unit Unit (CreateIssueCall × Env) where
  codec := Codec.unary
  client := storeClient Codec.unary
  config w := { OutboxWorkerConfig.default with workerInstanceId := if w then 10 else 9 }
  registry := defaultRegistry Codec.unary
  publisher _ := noopOutboxPublisher
  idlePublisher := ()

theorem twoWorkers_peers : twoWorkers.Peers where
  dynamic _ := rfl
  distinct := by
    intro v w h
    cases v <;> cases w <;> first | rfl | exact absurd h (by decide)

def oneWorkspaceDb : Db :=
  { Db.empty with workspaces := Db.oneWorkspace }

/-- The second worker comes 61 s after the first, whose cycle has not ended. -/
def overlapRun : List (SysAction Bool Unit (CreateIssueCall × Env)) :=
  [.acquire false 0 .quiet, .start false, .acquire true (seconds 61) .quiet, .start true]

theorem twoWorkers_not_exclusive :
    twoWorkers.Peers ∧ ¬twoWorkers.PeersExclusive oneWorkspaceDb := by
  refine ⟨twoWorkers_peers, fun hexclusive => ?_⟩
  have hcycles : (overlapRun.foldlM twoWorkers.step (twoWorkers.initial oneWorkspaceDb)).map
      (fun s => ((s.workers false).cycles, (s.workers true).cycles)) =
        some ([⟨1, .leasing⟩], [⟨1, .leasing⟩]) := by
    rfl
  obtain ⟨s, hs, hcycles⟩ := Option.map_eq_some_iff.mp hcycles
  have hclock : (overlapRun.flatMap SysAction.readings).Pairwise (· ≤ ·) := by decide
  refine hexclusive overlapRun s (Run.of_foldlM hs) hclock ⟨false, true, 1, by decide, ?_, ?_⟩
  · have hfirst : (s.workers false).cycles = [⟨1, .leasing⟩] := congrArg Prod.fst hcycles
    exact ⟨⟨1, .leasing⟩, by rw [hfirst]; exact List.mem_cons_self, rfl⟩
  · have hsecond : (s.workers true).cycles = [⟨1, .leasing⟩] := congrArg Prod.snd hcycles
    exact ⟨⟨1, .leasing⟩, by rw [hsecond]; exact List.mem_cons_self, rfl⟩

def punctualRun : List (SysAction Bool Unit (CreateIssueCall × Env)) :=
  [.acquire false 0 .quiet, .start false, .acquire true (seconds 30) .quiet]

theorem punctualRun_timely : Run.Along twoWorkers.step twoWorkers.Timely
    (twoWorkers.initial oneWorkspaceDb) punctualRun := by
  refine ⟨Or.inr ?_, fun s hs => ⟨trivial, fun t ht => ⟨Or.inr ?_, fun _ _ => trivial⟩⟩⟩
  · rintro v _ row _ (hwaiting | ⟨c, hc, _⟩)
    · cases hwaiting
    · cases hc
  · have hleases : ((punctualRun.take 2).foldlM twoWorkers.step
        (twoWorkers.initial oneWorkspaceDb)).map (fun s => s.db.partitionLeases.rows) =
          some [⟨1, 0, 9, 0, seconds 60, 0⟩] := by
      rfl
    have hfold : (punctualRun.take 2).foldlM twoWorkers.step
        (twoWorkers.initial oneWorkspaceDb) = some t := by
      simp [punctualRun, hs, ht]
    rw [hfold, Option.map_some, Option.some.injEq] at hleases
    intro v _ row _ _ l hl _
    rw [Table.mem_def, hleases, List.mem_singleton] at hl
    rw [hl]
    decide

theorem peers_exclusive_punctualRun :
    Run.Along twoWorkers.step twoWorkers.Timely (twoWorkers.initial oneWorkspaceDb) punctualRun ∧
      ∃ s, twoWorkers.Exec (twoWorkers.initial oneWorkspaceDb) punctualRun s ∧
        s.Inside false 1 ∧ ¬s.DoubleProcesses := by
  refine ⟨punctualRun_timely, ?_⟩
  have hcycles : (punctualRun.foldlM twoWorkers.step (twoWorkers.initial oneWorkspaceDb)).map
      (fun s => (s.workers false).cycles) = some [⟨1, .leasing⟩] := by
    rfl
  obtain ⟨s, hs, hcycles⟩ := Option.map_eq_some_iff.mp hcycles
  refine ⟨s, Run.of_foldlM hs, ⟨_, by rw [hcycles]; exact List.mem_cons_self, rfl⟩, ?_⟩
  exact peers_exclusive_of_timely twoWorkers twoWorkers_peers oneWorkspaceDb punctualRun s
    (Run.of_foldlM hs) punctualRun_timely

end Program
end Dandori
