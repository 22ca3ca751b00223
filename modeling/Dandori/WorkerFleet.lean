import Dandori.OutboxQueue
import Dandori.PartitionSharding
import Dandori.WorkerEnvironment

/-!
# Fleets as they are started

Every worker of a fleet runs with what it has read from its own environment. Two windows that are
written down apart are apart, whatever the other variables say, and a budget that is written the same
everywhere is shared; so what holds in every run of a sharded fleet holds of the fleets started so.
-/

namespace Dandori.Program

open IssueRepository OutboxRepository PartitionRepository WorkerEnvironment

variable {ω σ ι γ : Type}

/-- Every worker runs with the configuration that `main` reads in its process. -/
def StartedFrom (P : Program ω σ ι γ) (process : ω → Process) : Prop :=
  ∀ w, ∃ r, resolve (process w) = .ok r ∧ P.config w = r.config

/-- The windows of two workers are written down without a common bucket. -/
def WindowsApart (process : ω → Process) : Prop :=
  ∀ v w, v ≠ w → ∀ b c, ReadsBuckets (process v) "DANDORI_WORKER_BUCKET_RANGE" b →
    ReadsBuckets (process w) "DANDORI_WORKER_BUCKET_RANGE" c → b.max < c.min ∨ c.max < b.min

section Started

variable {P : Program ω σ ι γ} {process : ω → Process}

theorem StartedFrom.sharded (h : P.StartedFrom process) (hapart : WindowsApart process) :
    P.Sharded where
  dynamic w := by
    obtain ⟨r, hr, hconfig⟩ := h w
    rw [hconfig]
    exact (describes_iff.mp hr).workspaceIds
  apart v w bucket hv hw := by
    by_contra hne
    obtain ⟨r, hr, hconfig⟩ := h v
    obtain ⟨r', hr', hconfig'⟩ := h w
    rw [hconfig] at hv
    rw [hconfig'] at hw
    have hwindows := hapart v w hne _ _ (describes_iff.mp hr).partitionShardBuckets
      (describes_iff.mp hr').partitionShardBuckets
    simp only [ShardBucketRange.contains, Bool.and_eq_true, decide_eq_true_eq] at hv hw
    omega

theorem StartedFrom.sharesBudget (h : P.StartedFrom process) {maxAttempts : Int32}
    (hbudget : ∀ w, Reads (process w) .maxAttempts maxAttempts.toInt) : P.SharesBudget maxAttempts := by
  intro w
  obtain ⟨r, hr, hconfig⟩ := h w
  rw [hconfig]
  exact Int32.toInt.inj ((describes_iff.mp hr).maxAttempts.unique (hbudget w))

end Started

/-- Workers started from environments with windows apart and one budget: in every state of every run at
most one of them has a workspace in hand, and every row of the outbox is well formed for the budget. -/
theorem started_fleet [DecidableEq ω] [Nonempty ω] (P : Program ω σ ι γ) (process : ω → Process)
    (maxAttempts : Int32) (hstarted : P.StartedFrom process) (hapart : WindowsApart process)
    (hbudget : ∀ w, Reads (process w) .maxAttempts maxAttempts.toInt) (db : Db)
    (hempty : db.outbox = Table.empty) (as : List (SysAction ω ι γ)) (s : Sys ω σ)
    (h : P.Exec (P.initial db) as s) :
    (∀ workspaceId, {w | s.Unfinished w workspaceId}.Subsingleton) ∧
      ∀ r ∈ s.db.outbox, WellFormed maxAttempts r := by
  have hsharded := hstarted.sharded hapart
  have hmax : 1 ≤ maxAttempts := by
    obtain ⟨w⟩ := ‹Nonempty ω›
    exact Int32.le_iff_toInt_le.mpr (hbudget w).bounds.1
  have hrows : ∀ r ∈ (P.initial db).db.outbox, WellFormed maxAttempts r := by
    intro r hr
    have hnone : (P.initial db).db.outbox = Table.empty := hempty
    rw [hnone] at hr
    exact absurd hr (Table.not_mem_empty r)
  refine ⟨fun workspaceId v hv w hw => ?_, ?_⟩
  · have hwindow := unfinishedInWindow_of_exec hsharded h
    exact InWindow.unique hsharded (hwindow v workspaceId hv) (hwindow w workspaceId hw)
  · exact (queueRun_of_exec hmax (hstarted.sharesBudget hbudget) hrows h).1

/-! ## The two workers with half of the buckets each -/

/-- The two workers as their environments write them down. -/
def halfWorker (w : Bool) : Resolved where
  databaseUrl := "postgres://localhost/dandori"
  runMigrations := false
  intervalMs := 1000
  config := shardedWorkers.config w
  httpConnectTimeoutMs := 2000
  httpRequestTimeoutMs := 10000
  httpPoolMaxIdlePerHost := 16
  circuitFailureThreshold := 10
  circuitCooldownSeconds := 30

def halfProcess (w : Bool) : Process := (halfWorker w).process Codec.unary

theorem describes_halfProcess (w : Bool) : Describes (halfProcess w) (halfWorker w) := by
  refine describes_process Codec.unary ?_
  constructor <;> first | rfl | (cases w <;> decide)

theorem startedFrom_halves : shardedWorkers.StartedFrom halfProcess :=
  fun w => ⟨halfWorker w, describes_iff.mpr (describes_halfProcess w), rfl⟩

theorem windowsApart_halves : WindowsApart halfProcess := by
  intro v w hne b c hb hc
  rw [hb.unique (describes_halfProcess v).partitionShardBuckets,
    hc.unique (describes_halfProcess w).partitionShardBuckets]
  cases v <;> cases w
  · exact absurd rfl hne
  · exact Or.inl (by decide)
  · exact Or.inr (by decide)
  · exact absurd rfl hne

theorem started_fleet_halves : shardedWorkers.StartedFrom halfProcess ∧ WindowsApart halfProcess ∧
    (∀ w, Reads (halfProcess w) .maxAttempts (5 : Int32).toInt) ∧
    ∃ s, shardedWorkers.Exec (shardedWorkers.initial shardedDb) shardedRun s ∧
      (∀ workspaceId, {w | s.Unfinished w workspaceId}.Subsingleton) ∧
      ∀ r ∈ s.db.outbox, WellFormed 5 r := by
  have hbudget : ∀ w, Reads (halfProcess w) .maxAttempts (5 : Int32).toInt := fun w =>
    (describes_halfProcess w).maxAttempts
  have hsome : (shardedRun.foldlM shardedWorkers.step (shardedWorkers.initial shardedDb)).isSome =
      true := by
    rfl
  obtain ⟨s, hs⟩ := Option.isSome_iff_exists.mp hsome
  exact ⟨startedFrom_halves, windowsApart_halves, hbudget, s, Run.of_foldlM hs,
    started_fleet shardedWorkers halfProcess 5 startedFrom_halves windowsApart_halves hbudget shardedDb
      rfl shardedRun s (Run.of_foldlM hs)⟩

end Dandori.Program
