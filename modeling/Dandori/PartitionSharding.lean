import Dandori.PartitionOverlap
import Dandori.PartitionStarvation

/-!
# Fleets with bucket windows of their own

A fleet is sharded when no bucket lies in the windows of two workers. A workspace keeps its bucket, and
a worker gets its workspaces only from its window, so two workers of a sharded fleet never have one
workspace in hand, however long their cycles run and whatever their clocks show. Their leases do not
meet either: a lease of a workspace names the worker of its window, and an acquisition whose limit
covers the window is never kept from a part of it.
-/

namespace Dandori.Program

open IssueRepository OutboxRepository PartitionRepository OutboxWorkerService

variable {ω σ ι γ : Type} [DecidableEq ω]

/-- The workers lease their workspaces dynamically, and no bucket lies in two windows. -/
structure Sharded (P : Program ω σ ι γ) : Prop where
  dynamic : ∀ w, (P.config w).workspaceIds = none
  apart : ∀ v w bucket, (P.config v).partitionShardBuckets.contains bucket = true →
    (P.config w).partitionShardBuckets.contains bucket = true → v = w

/-- The bucket of the workspace lies in the window of the worker. -/
def InWindow (P : Program ω σ ι γ) (db : Db) (w : ω) (workspaceId : Uuid) : Prop :=
  ∃ row ∈ db.workspaces, row.id = workspaceId ∧
    (P.config w).partitionShardBuckets.contains row.shardBucket = true

section Windows

variable {P : Program ω σ ι γ} {s t : Sys ω σ} {action : SysAction ω ι γ}

theorem workspaces_of_step (h : P.StepEffect s action t) : t.db.workspaces = s.db.workspaces := by
  have heffect := db_of_step h
  generalize t.db = db' at heffect ⊢
  cases heffect with
  | leases => rfl
  | created _ hfresh =>
      have hrest := congrArg Db.workspaces hfresh.rest
      exact hrest
  | leased hlease =>
      obtain ⟨_, _, rfl, _⟩ := leaseOutboxBatch_ok hlease
      rfl
  | applied _ _ hrun =>
      obtain ⟨_, _, _, _, _, _, _, rfl⟩ := LeaseTransition.run_eq_ok.mp hrun
      rfl
  | cleanedOutbox => rfl
  | cleanedIdempotency => rfl

theorem workspaces_of_exec {as : List (SysAction ω ι γ)} (h : P.Exec s as t) :
    t.db.workspaces = s.db.workspaces := by
  refine h.invariant (P := fun u => u.db.workspaces = s.db.workspaces) ?_ rfl
  intro u a v hu hstep
  exact (workspaces_of_step (P.step_effect hstep)).trans hu

omit [DecidableEq ω] in
theorem InWindow.congr {db db' : Db} (h : db'.workspaces = db.workspaces) {w : ω}
    {workspaceId : Uuid} : P.InWindow db' w workspaceId ↔ P.InWindow db w workspaceId := by
  unfold InWindow
  rw [h]

omit [DecidableEq ω] in
/-- A workspace lies in one window at most. -/
theorem InWindow.unique (hsharded : P.Sharded) {db : Db} {v w : ω} {workspaceId : Uuid}
    (hv : P.InWindow db v workspaceId) (hw : P.InWindow db w workspaceId) : v = w := by
  obtain ⟨row, hrow, hid, hbucket⟩ := hv
  obtain ⟨row', hrow', hid', hbucket'⟩ := hw
  have hsame : row' = row := Table.eq_of_key_eq hrow' hrow (hid'.trans hid.symm)
  rw [hsame] at hbucket'
  exact hsharded.apart v w row.shardBucket hbucket hbucket'

omit [DecidableEq ω] in
theorem inWindow_of_listed {db : Db} {w : ω} {now : Timestamp} {row : WorkspaceRow} {n : ℕ}
    (h : row ∈ listWorkspaceIdsForPartitionLease db (acquireCall (P.config w) now).buckets n) :
    P.InWindow db w row.id := by
  obtain ⟨hrow, hbucket⟩ := mem_windowWorkspaces.mp (List.mem_of_mem_take h)
  exact ⟨row, hrow, rfl, hbucket⟩

omit [DecidableEq ω] in
/-- An acquisition assigns workspaces of the window only. -/
theorem inWindow_of_acquired (hsharded : P.Sharded) {w : ω} {now : Timestamp} {env : Env} {db db' : Db}
    {assigned : List Uuid} (h : acquireWorkspaces (P.config w) now env db = (.ok assigned, db'))
    {workspaceId : Uuid} (hx : workspaceId ∈ assigned) : P.InWindow db w workspaceId := by
  obtain ⟨_, _, row, hrow, rfl⟩ :=
    (acquireWorkspaces_leases (hsharded.dynamic w) h).2.1 workspaceId hx
  exact inWindow_of_listed hrow

/-- What a worker has not finished lies in its window. -/
def UnfinishedInWindow (P : Program ω σ ι γ) (s : Sys ω σ) : Prop :=
  ∀ w workspaceId, s.Unfinished w workspaceId → P.InWindow s.db w workspaceId

theorem UnfinishedInWindow.step (hsharded : P.Sharded) (hinv : UnfinishedInWindow P s)
    (h : P.step s action = some t) : UnfinishedInWindow P t := by
  have heffect := P.step_effect h
  intro w x hx
  rw [InWindow.congr (workspaces_of_step heffect)]
  rcases unfinished_of_step heffect hx with hbefore | ⟨now, env, assigned, _, hassigned, hacquire⟩
  · exact hinv w x hbefore
  · exact inWindow_of_acquired hsharded hacquire hassigned

theorem unfinishedInWindow_of_exec (hsharded : P.Sharded) {db : Db} {as : List (SysAction ω ι γ)}
    (h : P.Exec (P.initial db) as s) : UnfinishedInWindow P s := by
  refine h.invariant (P := UnfinishedInWindow P) ?_ ?_
  · exact fun u a v hu hstep => hu.step hsharded hstep
  · rintro w x (hwaiting | ⟨c, hc, _⟩)
    · cases hwaiting
    · cases hc

/-- Each lease names a worker in whose window the workspace lies. -/
def LeasesInWindow (P : Program ω σ ι γ) (s : Sys ω σ) : Prop :=
  ∀ workspaceId l, s.db.partitionLeases.find? workspaceId = some l →
    ∃ w, l.leaseOwner = (P.config w).workerInstanceId ∧ P.InWindow s.db w workspaceId

theorem LeasesInWindow.step (hsharded : P.Sharded) (hinv : LeasesInWindow P s)
    (h : P.step s action = some t) : LeasesInWindow P t := by
  have heffect := P.step_effect h
  intro x l hl
  have hsame := workspaces_of_step heffect
  rcases partitionLeases_of_step heffect with
    hleases | ⟨w, now, env, assigned, rfl, _, _, hacquire⟩ | ⟨w, env, rfl, _, hleases⟩
  · rw [hleases] at hl
    obtain ⟨w, howner, hwindow⟩ := hinv x l hl
    exact ⟨w, howner, (InWindow.congr hsame).mpr hwindow⟩
  · obtain ⟨_, hassigned, hother⟩ := acquireWorkspaces_leases (hsharded.dynamic w) hacquire
    by_cases hx : x ∈ assigned
    · obtain ⟨⟨l', hl', howner⟩, _⟩ := hassigned x hx
      rw [hl] at hl'
      cases hl'
      exact ⟨w, howner, (InWindow.congr hsame).mpr (inWindow_of_acquired hsharded hacquire hx)⟩
    · rw [hother x hx] at hl
      obtain ⟨v, howner, hwindow⟩ := hinv x l hl
      exact ⟨v, howner, (InWindow.congr hsame).mpr hwindow⟩
  · rw [hleases, Table.find?_filter, Option.filter_eq_some_iff] at hl
    obtain ⟨v, howner, hwindow⟩ := hinv x l hl.1
    exact ⟨v, howner, (InWindow.congr hsame).mpr hwindow⟩

theorem leasesInWindow_of_exec (hsharded : P.Sharded) {db : Db} {as : List (SysAction ω ι γ)}
    (hleases : db.partitionLeases = Table.empty) (h : P.Exec (P.initial db) as s) :
    LeasesInWindow P s := by
  refine h.invariant (P := LeasesInWindow P) ?_ ?_
  · exact fun u a v hu hstep => hu.step hsharded hstep
  · intro x l hl
    have hnone : (P.initial db).db.partitionLeases = Table.empty := hleases
    rw [hnone] at hl
    exact absurd (Table.find?_eq_some.mp hl).1 (Table.not_mem_empty l)

omit [DecidableEq ω] in
/-- No other owner holds a workspace of the window. -/
theorem LeasesInWindow.not_held (hsharded : P.Sharded) (hinv : LeasesInWindow P s) {w : ω}
    (now : Timestamp) {workspaceId : Uuid} (hwindow : P.InWindow s.db w workspaceId) :
    heldByOther s.db.partitionLeases (P.config w).workerInstanceId now workspaceId = false := by
  cases hl : s.db.partitionLeases.find? workspaceId with
  | none => simp [heldByOther, hl]
  | some l =>
      obtain ⟨v, howner, hv⟩ := hinv workspaceId l hl
      have hsame := InWindow.unique hsharded hv hwindow
      simp [heldByOther, hl, howner, hsame]

/-- An acquisition whose limit covers the window has the whole window as candidates when no other owner
holds a part of it. -/
theorem candidates_of_free (config : OutboxWorkerConfig) (now : Timestamp) {db : Db}
    (hlimit : (windowWorkspaces db config.partitionShardBuckets).length ≤
      min config.partitionBatch i32Max.toNat)
    (hfree : ∀ row ∈ windowWorkspaces db config.partitionShardBuckets,
      heldByOther db.partitionLeases config.workerInstanceId now row.id = false) :
    (acquireCall config now).candidates db = windowWorkspaces db config.partitionShardBuckets := by
  have hscan : (windowWorkspaces db config.partitionShardBuckets).length ≤
      (acquireCall config now).scanned := by
    have hnonneg : 0 ≤ (acquireCall config now).limit := by
      simp only [acquireCall]
      omega
    rw [AcquireCall.scanned_eq hnonneg]
    have hi32 : i32Max = 2147483647 := rfl
    simp only [acquireCall]
    omega
  rw [AcquireCall.candidates_eq, show (acquireCall config now).buckets =
    config.partitionShardBuckets from rfl, List.take_of_length_le hscan]
  refine List.filter_eq_self.mpr (fun row hrow => ?_)
  have hrowFree := hfree row hrow
  simp only [AcquireCall.availableTo, Bool.not_eq_true']
  exact hrowFree

omit [DecidableEq ω] in
theorem LeasesInWindow.candidates (hsharded : P.Sharded) (hinv : LeasesInWindow P s) {w : ω}
    (now : Timestamp)
    (hlimit : (windowWorkspaces s.db (P.config w).partitionShardBuckets).length ≤
      min (P.config w).partitionBatch i32Max.toNat) :
    (acquireCall (P.config w) now).candidates s.db =
      windowWorkspaces s.db (P.config w).partitionShardBuckets := by
  refine candidates_of_free (P.config w) now hlimit (fun row hrow => ?_)
  obtain ⟨hmem, hbucket⟩ := mem_windowWorkspaces.mp hrow
  exact hinv.not_held hsharded now ⟨row, hmem, rfl, hbucket⟩

end Windows

/-- In every state of every run at most one worker of a sharded fleet has a workspace in hand. -/
theorem sharded_exclusive (P : Program ω σ ι γ) (hsharded : P.Sharded) (db : Db)
    (as : List (SysAction ω ι γ)) (s : Sys ω σ) (h : P.Exec (P.initial db) as s)
    (workspaceId : Uuid) : {w | s.Unfinished w workspaceId}.Subsingleton := by
  have hwindow := unfinishedInWindow_of_exec hsharded h
  intro v hv w hw
  exact InWindow.unique hsharded (hwindow v workspaceId hv) (hwindow w workspaceId hw)

/-- Whatever the other workers of a sharded fleet have done, a worker whose limit covers its window is
assigned the whole window, in the order of the listing, each time its acquisition is executed. -/
theorem sharded_assigns_window (P : Program ω σ ι γ) (hsharded : P.Sharded) (db : Db)
    (hleases : db.partitionLeases = Table.empty) (as : List (SysAction ω ι γ)) (s t : Sys ω σ)
    (h : P.Exec (P.initial db) as s) (w : ω)
    (hlimit : (windowWorkspaces db (P.config w).partitionShardBuckets).length ≤
      min (P.config w).partitionBatch i32Max.toNat)
    (now : Timestamp) (env : Env) (henv : env.faults.head?.getD false = false)
    (hstep : P.step s (.acquire w now env) = some t) :
    (t.workers w).waiting =
      (windowWorkspaces db (P.config w).partitionShardBuckets).map WorkspaceRow.id := by
  have hsame : windowWorkspaces s.db (P.config w).partitionShardBuckets =
      windowWorkspaces db (P.config w).partitionShardBuckets := by
    unfold windowWorkspaces
    rw [workspaces_of_exec h]
    rfl
  rw [← hsame] at hlimit ⊢
  have hcandidates := (leasesInWindow_of_exec hsharded hleases h).candidates hsharded now hlimit
  have hnonneg : 0 ≤ scanLimit (acquireCall (P.config w) now).limit := by
    apply AcquireCall.scanLimit_nonneg
    simp only [acquireCall]
    omega
  obtain ⟨leases, hacquire, _⟩ := acquirePartitions_of_allowed (acquireCall (P.config w) now) env s.db
    henv hnonneg
  rw [hcandidates] at hacquire
  simp only [step] at hstep
  split_ifs at hstep
  simp only [acquireWorkspaces, hsharded.dynamic w, hacquire] at hstep
  cases hstep
  rw [setWorker_self]

/-! ## Two workers with half of the buckets each -/

def shardedWorkers : Program Bool Unit Unit (CreateIssueCall × Env) where
  codec := Codec.unary
  client := storeClient Codec.unary
  config w := { OutboxWorkerConfig.default with
    workerInstanceId := if w then 10 else 9
    partitionShardBuckets := if w then ⟨512, 1023, by decide⟩ else ⟨0, 511, by decide⟩ }
  registry := defaultRegistry Codec.unary
  publisher _ := noopOutboxPublisher
  idlePublisher := ()

theorem shardedWorkers_sharded : shardedWorkers.Sharded where
  dynamic _ := rfl
  apart v w bucket hv hw := by
    cases v <;> cases w <;>
      simp [shardedWorkers, ShardBucketRange.contains] at hv hw ⊢ <;> omega

/-- One workspace for each of the two workers. -/
def shardedDb : Db :=
  { Db.empty with
    workspaces := ⟨[⟨1, "one", 1, 0, 0, 0⟩, ⟨600, "two", 600, 0, 0, 0⟩], by decide, by decide⟩ }

/-- The clock of the second worker is behind that of the first. -/
def shardedRun : List (SysAction Bool Unit (CreateIssueCall × Env)) :=
  [.acquire false (seconds 61) .quiet, .start false, .acquire true 0 .quiet]

theorem sharded_exclusive_shardedRun : shardedWorkers.Sharded ∧
    ∃ s, shardedWorkers.Exec (shardedWorkers.initial shardedDb) shardedRun s ∧
      s.Unfinished false 1 ∧ s.Unfinished true 600 ∧
      {w | s.Unfinished w 1}.Subsingleton := by
  have hhand : (shardedRun.foldlM shardedWorkers.step (shardedWorkers.initial shardedDb)).map
      (fun s => ((s.workers false).cycles, (s.workers true).waiting)) =
        some ([⟨1, .leasing⟩], [600]) := by
    rfl
  obtain ⟨s, hs, hhand⟩ := Option.map_eq_some_iff.mp hhand
  have hfirst : (s.workers false).cycles = [⟨1, .leasing⟩] := congrArg Prod.fst hhand
  have hsecond : (s.workers true).waiting = [600] := congrArg Prod.snd hhand
  refine ⟨shardedWorkers_sharded, s, Run.of_foldlM hs, Or.inr ?_, Or.inl ?_, ?_⟩
  · exact ⟨⟨1, .leasing⟩, by rw [hfirst]; exact List.mem_cons_self, rfl⟩
  · rw [hsecond]
    exact List.mem_cons_self
  · exact sharded_exclusive shardedWorkers shardedWorkers_sharded shardedDb shardedRun s
      (Run.of_foldlM hs) 1

theorem sharded_assigns_window_shardedRun :
    (shardedWorkers.Sharded ∧ shardedDb.partitionLeases = Table.empty ∧
      (windowWorkspaces shardedDb (shardedWorkers.config true).partitionShardBuckets).length ≤
        min (shardedWorkers.config true).partitionBatch i32Max.toNat) ∧
    ∃ s t, shardedWorkers.Exec (shardedWorkers.initial shardedDb) (shardedRun.take 2) s ∧
      shardedWorkers.step s (.acquire true 0 .quiet) = some t ∧
      (t.workers true).waiting =
        (windowWorkspaces shardedDb (shardedWorkers.config true).partitionShardBuckets).map
          WorkspaceRow.id := by
  have hlimit : (windowWorkspaces shardedDb
      (shardedWorkers.config true).partitionShardBuckets).length ≤
        min (shardedWorkers.config true).partitionBatch i32Max.toNat := by
    decide
  refine ⟨⟨shardedWorkers_sharded, rfl, hlimit⟩, ?_⟩
  have hidle : ((shardedRun.take 2).foldlM shardedWorkers.step
      (shardedWorkers.initial shardedDb)).map (fun s =>
        (shardedWorkers.step s (.acquire true 0 .quiet)).isSome) = some true := by
    rfl
  obtain ⟨s, hs, hsome⟩ := Option.map_eq_some_iff.mp hidle
  obtain ⟨t, ht⟩ := Option.isSome_iff_exists.mp hsome
  exact ⟨s, t, Run.of_foldlM hs, ht, sharded_assigns_window shardedWorkers shardedWorkers_sharded
    shardedDb rfl _ s t (Run.of_foldlM hs) true hlimit 0 .quiet rfl ht⟩

end Dandori.Program
