import Dandori.PartitionExclusion
import Dandori.WorkerService

/-!
# What a release gives back

A worker remembers the result of its last non-empty acquisition, and a release deletes the leases of
the remembered workspaces. A later acquisition replaces what is remembered even when it passes over a
workspace that the worker still holds, an acquisition whose reply is lost is not remembered at all, and
a failed release forgets everything. The rows of the worker stay among the remembered workspaces just
as long as none of this happens.
-/

namespace Dandori.OutboxWorkerService

open PartitionRepository

structure PartitionState where
  db : Db
  leased : List Uuid

section Holder

variable (config : OutboxWorkerConfig)

/-- What happens to the lease table and to the memory of the worker. The reply of a committed
acquisition may be lost, and `elsewhere` stands for everything that leaves the lease table alone, tenant
cycles and new workspaces among it. -/
inductive HolderCall
  | acquire (now : Timestamp) (env : Env) (answered : Bool)
  | release (env : Env)
  | other (call : PartitionCall) (h : call.ownerId ≠ config.workerInstanceId)
  | elsewhere (db : Db)

namespace HolderCall

variable {config}

def run : HolderCall config → PartitionState → PartitionState
  | acquire now env answered, s =>
      match answered, acquireWorkspaces config now env s.db with
      | true, (.ok assigned, db') => ⟨db', rememberPartitions config assigned s.leased⟩
      | _, (_, db') => ⟨db', s.leased⟩
  | release env, s =>
      ⟨(releasePartitions config s.leased env s.db).2,
        if config.workspaceIds.isSome then s.leased else []⟩
  | other call _, s => ⟨call.run s.db, s.leased⟩
  | elsewhere db, s => ⟨{ db with partitionLeases := s.db.partitionLeases }, s.leased⟩

/-- An acquisition that assigns something lists every workspace that the worker still holds, one
whose reply is lost assigns remembered workspaces only, and a release while the worker holds something
does not fail. -/
def Remembers (s : PartitionState) : HolderCall config → Prop
  | acquire now env true =>
      env.faults.head?.getD false = true ∨ (acquireCall config now).candidates s.db = [] ∨
        ∀ l ∈ s.db.partitionLeases, l.leaseOwner = config.workerInstanceId →
          ∃ w ∈ listWorkspaceIdsForPartitionLease s.db (acquireCall config now).buckets
            (scanLimit (acquireCall config now).limit).toNat, w.id = l.workspaceId
  | acquire now env false =>
      env.faults.head?.getD false = true ∨
        ∀ w ∈ (acquireCall config now).candidates s.db, w.id ∈ s.leased
  | release env =>
      env.faults.head?.getD false = false ∨ s.leased = [] ∨
        ∀ l ∈ s.db.partitionLeases, l.leaseOwner ≠ config.workerInstanceId
  | other _ _ => True
  | elsewhere _ => True

end HolderCall

abbrev HolderRun : PartitionState → List (HolderCall config) → PartitionState → Prop :=
  Run (fun s call => some (call.run s))

def HoldsNothing (db : Db) : Prop :=
  ∀ l ∈ db.partitionLeases, l.leaseOwner ≠ config.workerInstanceId

/-- A release that returns `Ok` in this state leaves no lease row of the worker. -/
def GivesBack (s : PartitionState) (env : Env) : Prop :=
  (releasePartitions config s.leased env s.db).1 = .ok () →
    HoldsNothing config (releasePartitions config s.leased env s.db).2

def HoldsRemembered (s : PartitionState) : Prop :=
  ∀ l ∈ s.db.partitionLeases, l.leaseOwner = config.workerInstanceId → l.workspaceId ∈ s.leased

end Holder

section Release

variable {config : OutboxWorkerConfig} {s : PartitionState} {env : Env} {db : Db}
  {leased : List Uuid}

/-- A dynamic release that returns `Ok` deletes exactly the worker's leases of remembered
workspaces; a failed one deletes nothing. -/
theorem mem_releasePartitions (hdynamic : config.workspaceIds = none) (l : PartitionLeaseRow) :
    l ∈ (releasePartitions config leased env db).2.partitionLeases ↔
      l ∈ db.partitionLeases ∧ ((releasePartitions config leased env db).1 = .ok () →
        l.workspaceId ∈ leased → l.leaseOwner ≠ config.workerInstanceId) := by
  have hstatic : config.workspaceIds.isSome = false := by rw [hdynamic]; rfl
  unfold releasePartitions
  rw [hstatic]
  simp only [Bool.false_eq_true, if_false]
  by_cases hempty : leased = []
  · subst hempty
    simp
  · have hnot : leased.isEmpty = false := by simpa using hempty
    rw [hnot]
    simp only [Bool.false_eq_true, if_false]
    rcases PartitionRepository.releasePartitions_cases config.workerInstanceId leased env db with
      ⟨result, he, hresult⟩ | ⟨n, he⟩
    · rw [he]
      cases result with
      | ok n => exact absurd (hresult n rfl) hempty
      | error e => simp
    · rw [he]
      simp only [Table.mem_filter, Bool.not_and, Bool.or_eq_true, Bool.not_eq_true',
        decide_eq_false_iff_not, forall_const]
      tauto

theorem releasePartitions_quiet (config : OutboxWorkerConfig) (leased : List Uuid) (db : Db) :
    (releasePartitions config leased .quiet db).1 = .ok () := by
  unfold releasePartitions PartitionRepository.releasePartitions
  split_ifs with hstatic hempty hfault
  · rfl
  · rfl
  · cases hfault
  · rfl

theorem givesBack_of_holdsRemembered (hdynamic : config.workspaceIds = none)
    (h : HoldsRemembered config s) (env : Env) : GivesBack config s env := by
  intro hok l hl howner
  obtain ⟨hmem, hkept⟩ := (mem_releasePartitions hdynamic l).mp hl
  exact hkept hok (h l hmem howner) howner

theorem not_givesBack_quiet (hdynamic : config.workspaceIds = none) {l : PartitionLeaseRow}
    (hl : l ∈ s.db.partitionLeases) (howner : l.leaseOwner = config.workerInstanceId)
    (hforgotten : l.workspaceId ∉ s.leased) : ¬GivesBack config s .quiet := by
  intro hback
  have hmem : l ∈ (releasePartitions config s.leased .quiet s.db).2.partitionLeases :=
    (mem_releasePartitions hdynamic l).mpr ⟨hl, fun _ hleased => absurd hleased hforgotten⟩
  exact hback (releasePartitions_quiet config s.leased s.db) l hmem howner

theorem holdsRemembered_iff (hdynamic : config.workspaceIds = none) :
    HoldsRemembered config s ↔ ∀ env, GivesBack config s env := by
  constructor
  · exact givesBack_of_holdsRemembered hdynamic
  · intro hback l hl howner
    by_contra hforgotten
    exact not_givesBack_quiet hdynamic hl howner hforgotten (hback .quiet)

theorem scanLimit_acquireCall (config : OutboxWorkerConfig) (now : Timestamp) :
    0 ≤ scanLimit (acquireCall config now).limit := by
  simp only [scanLimit, acquireCall, i32Max, i32Min]
  split_ifs <;> omega

/-- A dynamic acquisition that runs leases the candidates and leaves the leases of every other
workspace alone. -/
theorem acquireWorkspaces_of_quiet (hdynamic : config.workspaceIds = none) (now : Timestamp) (db : Db)
    (henv : env.faults.head?.getD false = false) :
    ∃ leases, acquireWorkspaces config now env db =
        (.ok (((acquireCall config now).candidates db).map WorkspaceRow.id),
          { db with partitionLeases := leases }) ∧
      ∀ l, l ∈ leases ↔ (∃ w ∈ (acquireCall config now).candidates db,
          l = (acquireCall config now).leaseRow w) ∨
        (l ∈ db.partitionLeases ∧
          l.workspaceId ∉ ((acquireCall config now).candidates db).map WorkspaceRow.id) := by
  obtain ⟨leases, he, hleased, hother⟩ := acquirePartitions_of_allowed (acquireCall config now) env
    db henv (scanLimit_acquireCall config now)
  refine ⟨leases, ?_, fun l => ?_⟩
  · unfold acquireWorkspaces
    rw [hdynamic, he]
  · rw [Table.mem_iff_find? (t := leases), Table.mem_iff_find? (t := db.partitionLeases)]
    by_cases hcand : l.workspaceId ∈ ((acquireCall config now).candidates db).map WorkspaceRow.id
    · obtain ⟨w, hw, hid⟩ := List.mem_map.mp hcand
      rw [← hid, hleased w hw]
      constructor
      · intro h
        exact Or.inl ⟨w, hw, (Option.some.inj h).symm⟩
      · rintro (⟨v, hv, rfl⟩ | ⟨_, hnot⟩)
        · have hvw := hleased v hv
          rw [show v.id = w.id from hid.symm, hleased w hw] at hvw
          exact hvw
        · exact absurd hcand (hid ▸ hnot)
    · rw [hother _ hcand]
      constructor
      · exact fun h => Or.inr ⟨h, hcand⟩
      · rintro (⟨v, hv, rfl⟩ | ⟨h, _⟩)
        · exact absurd (List.mem_map_of_mem hv) hcand
        · exact h

theorem acquireWorkspaces_of_fault (hdynamic : config.workspaceIds = none) (now : Timestamp) (db : Db)
    (henv : env.faults.head?.getD false = true) :
    ∃ e, acquireWorkspaces config now env db = (.error e, db) := by
  unfold acquireWorkspaces acquirePartitions
  rw [hdynamic, henv]
  exact ⟨_, rfl⟩

end Release

section Step

variable {config : OutboxWorkerConfig} {s : PartitionState}

theorem holdsRemembered_acquire_of_fault (hdynamic : config.workspaceIds = none)
    (hs : HoldsRemembered config s) (now : Timestamp) {env : Env} (answered : Bool)
    (henv : env.faults.head?.getD false = true) :
    HoldsRemembered config ((.acquire now env answered : HolderCall config).run s) ↔
      (.acquire now env answered : HolderCall config).Remembers s := by
  obtain ⟨e, he⟩ := acquireWorkspaces_of_fault hdynamic now s.db henv
  simp only [HolderCall.run, he]
  cases answered <;> exact ⟨fun _ => Or.inl henv, fun _ => hs⟩

theorem holdsRemembered_acquire (hdynamic : config.workspaceIds = none)
    (hs : HoldsRemembered config s) (now : Timestamp) (env : Env) :
    HoldsRemembered config ((.acquire now env true : HolderCall config).run s) ↔
      (.acquire now env true : HolderCall config).Remembers s := by
  cases henv : env.faults.head?.getD false with
  | true => exact holdsRemembered_acquire_of_fault hdynamic hs now true henv
  | false =>
      simp only [HolderCall.run, HolderCall.Remembers, henv]
      obtain ⟨leases, he, hmem⟩ := acquireWorkspaces_of_quiet hdynamic now s.db henv
      have hremember : ∀ ids, rememberPartitions config ids s.leased =
          if ids = [] then s.leased else ids := by
        intro ids
        unfold rememberPartitions
        rw [hdynamic]
        cases ids <;> rfl
      rw [he]
      simp only [HoldsRemembered, hremember, List.map_eq_nil_iff, Bool.false_eq_true, false_or]
      by_cases hnone : (acquireCall config now).candidates s.db = []
      · rw [if_pos hnone]
        refine ⟨fun _ => Or.inl hnone, fun _ l hl howner => ?_⟩
        rw [hmem, hnone] at hl
        simp only [List.not_mem_nil, false_and, exists_false, List.map_nil, not_false_eq_true,
          and_true, false_or] at hl
        exact hs l hl howner
      · rw [if_neg hnone]
        constructor
        · refine fun hheld => Or.inr fun l hl howner => ?_
          by_contra hlisted
          have hcand : l.workspaceId ∉
              ((acquireCall config now).candidates s.db).map WorkspaceRow.id := by
            intro hcand
            obtain ⟨w, hw, hid⟩ := List.mem_map.mp hcand
            exact hlisted ⟨w, List.mem_of_mem_filter hw, hid⟩
          exact hcand (hheld l ((hmem l).mpr (Or.inr ⟨hl, hcand⟩)) howner)
        · rintro (hnil | hlisted) l hl howner
          · exact absurd hnil hnone
          · rcases (hmem l).mp hl with ⟨w, hw, rfl⟩ | ⟨hold, hcand⟩
            · exact List.mem_map_of_mem hw
            · obtain ⟨w, hw, hid⟩ := hlisted l hold howner
              refine absurd (List.mem_map.mpr ⟨w, List.mem_filter.mpr ⟨hw, ?_⟩, hid⟩) hcand
              have hfind : s.db.partitionLeases.find? w.id = some l :=
                Table.find?_eq_some.mpr ⟨hold, hid.symm⟩
              simp only [heldByOther, hfind, Option.any_some, howner, acquireCall, ne_eq,
                not_true_eq_false, decide_false, Bool.and_false, Bool.not_false]

theorem holdsRemembered_acquireUnanswered (hdynamic : config.workspaceIds = none)
    (hs : HoldsRemembered config s) (now : Timestamp) (env : Env) :
    HoldsRemembered config ((.acquire now env false : HolderCall config).run s) ↔
      (.acquire now env false : HolderCall config).Remembers s := by
  cases henv : env.faults.head?.getD false with
  | true => exact holdsRemembered_acquire_of_fault hdynamic hs now false henv
  | false =>
      simp only [HolderCall.run, HolderCall.Remembers, henv]
      obtain ⟨leases, he, hmem⟩ := acquireWorkspaces_of_quiet hdynamic now s.db henv
      rw [he]
      simp only [HoldsRemembered, Bool.false_eq_true, false_or]
      constructor
      · intro hheld w hw
        exact hheld _ ((hmem _).mpr (Or.inl ⟨w, hw, rfl⟩)) rfl
      · intro hcand l hl howner
        rcases (hmem l).mp hl with ⟨w, hw, rfl⟩ | ⟨hold, _⟩
        · exact hcand w hw
        · exact hs l hold howner

theorem holdsRemembered_release (hdynamic : config.workspaceIds = none)
    (hs : HoldsRemembered config s) (env : Env) :
    HoldsRemembered config ((.release env : HolderCall config).run s) ↔
      (.release env : HolderCall config).Remembers s := by
  have hforget : config.workspaceIds.isSome = false := by rw [hdynamic]; rfl
  simp only [HolderCall.run, HolderCall.Remembers, HoldsRemembered, hforget, Bool.false_eq_true,
    if_false, List.not_mem_nil]
  have hresult : (releasePartitions config s.leased env s.db).1 = .ok () ↔
      env.faults.head?.getD false = false ∨ s.leased = [] := by
    unfold releasePartitions PartitionRepository.releasePartitions
    rw [hforget]
    cases hempty : s.leased.isEmpty <;> cases hfault : env.faults.head?.getD false <;> simp_all
  constructor
  · intro hnone
    by_cases hok : (releasePartitions config s.leased env s.db).1 = .ok ()
    · rcases hresult.mp hok with hfault | hempty
      · exact Or.inl hfault
      · exact Or.inr (Or.inl hempty)
    · refine Or.inr (Or.inr fun l hl howner => ?_)
      exact hnone l ((mem_releasePartitions hdynamic l).mpr ⟨hl, fun h => absurd h hok⟩) howner
  · intro hremembers l hl howner
    obtain ⟨hmem, hkept⟩ := (mem_releasePartitions hdynamic l).mp hl
    rcases hremembers with hfault | hempty | hnothing
    · exact hkept (hresult.mpr (Or.inl hfault)) (hs l hmem howner) howner
    · exact hkept (hresult.mpr (Or.inr hempty)) (hs l hmem howner) howner
    · exact hnothing l hmem howner

theorem mem_of_other_run {call : PartitionCall} {db : Db} {l : PartitionLeaseRow}
    (howner : l.leaseOwner ≠ call.ownerId) (hl : l ∈ (call.run db).partitionLeases) :
    l ∈ db.partitionLeases := by
  by_cases hacquire : call.IsAcquire
  · cases call with
    | acquire call env =>
        rw [PartitionCall.run] at hl
        rcases acquirePartitions_cases call env db with ⟨e, he⟩ | ⟨leases, he, hleased, hother⟩
        · rwa [he] at hl
        · rw [he] at hl
          have hfind : leases.find? l.workspaceId = some l := Table.find?_eq_some.mpr ⟨hl, rfl⟩
          by_cases hcand : l.workspaceId ∈ (call.candidates db).map WorkspaceRow.id
          · obtain ⟨w, hw, hid⟩ := List.mem_map.mp hcand
            rw [← hid, hleased w hw] at hfind
            cases hfind
            exact absurd rfl howner
          · rw [hother _ hcand] at hfind
            exact (Table.find?_eq_some.mp hfind).1
    | renew ownerId workspaceIds now newLeaseUntil env => cases hacquire
    | release ownerId workspaceIds env => cases hacquire
  · exact (mem_run_of_other hacquire howner).mp hl

/-- A step keeps the worker's rows among the remembered workspaces just when it remembers them. -/
theorem holdsRemembered_run_iff (hdynamic : config.workspaceIds = none)
    (hs : HoldsRemembered config s) (call : HolderCall config) :
    HoldsRemembered config (call.run s) ↔ call.Remembers s := by
  cases call with
  | acquire now env answered =>
      cases answered with
      | true => exact holdsRemembered_acquire hdynamic hs now env
      | false => exact holdsRemembered_acquireUnanswered hdynamic hs now env
  | release env => exact holdsRemembered_release hdynamic hs env
  | other call h =>
      refine ⟨fun _ => trivial, fun _ l hl howner => hs l ?_ howner⟩
      exact mem_of_other_run (fun he => h (he.symm.trans howner)) hl
  | elsewhere db => exact ⟨fun _ => trivial, fun _ => hs⟩

/-- From a start without rows of the worker, every release that returns `Ok` along a history gives
everything back just when each of its steps remembers what the worker holds. -/
theorem givesBack_iff_remembers (hdynamic : config.workspaceIds = none) (db : Db)
    (calls : List (HolderCall config)) :
    (HoldsNothing config db ∧
        Run.Along (fun s call => some (call.run s))
          (fun s (call : HolderCall config) => call.Remembers s) ⟨db, []⟩ calls) ↔
      ∀ pre s, pre <+: calls → HolderRun config ⟨db, []⟩ pre s → ∀ env, GivesBack config s env := by
  have hstart : HoldsRemembered config ⟨db, []⟩ ↔ HoldsNothing config db :=
    ⟨fun h l hl howner => absurd (h l hl howner) List.not_mem_nil,
      fun h l hl howner => absurd howner (h l hl)⟩
  have hstep (s : PartitionState) (call : HolderCall config) (hs : HoldsRemembered config s) :=
    holdsRemembered_run_iff hdynamic hs call
  simp only [← holdsRemembered_iff hdynamic]
  constructor
  · rintro ⟨hnothing, hremembers⟩
    exact (Run.along_iff hstep (hstart.mpr hnothing)).mp hremembers
  · intro hheld
    have hs : HoldsRemembered config ⟨db, []⟩ := hheld [] _ List.nil_prefix (.nil _)
    exact ⟨hstart.mp hs, (Run.along_iff hstep hs).mpr hheld⟩

end Step

/-! ## Histories that forget a row -/

def narrowConfig : OutboxWorkerConfig :=
  { OutboxWorkerConfig.default with workerInstanceId := 9, partitionBatch := 1 }

def laterWorkspaceDb : Db :=
  { Db.empty with workspaces := ⟨[⟨2, "two", 0, 0, 0, 0⟩], by decide, by decide⟩ }

/-- The worker leases workspace 2; then workspace 1 appears ahead of it and the next acquisition leases
that one. -/
def shiftedCalls : List (HolderCall narrowConfig) :=
  [.acquire 0 .quiet true, .elsewhere contestedDb, .acquire (seconds 1) .quiet true]

/-- The worker leases workspace 2 and its first release fails. -/
def retriedCalls : List (HolderCall narrowConfig) :=
  [.acquire 0 .quiet true, .release ⟨none, [true]⟩]

theorem shiftedCalls_retriedCalls_not_givesBack :
    HoldsNothing narrowConfig laterWorkspaceDb ∧
      (∃ s, HolderRun narrowConfig ⟨laterWorkspaceDb, []⟩ shiftedCalls s ∧
        ¬GivesBack narrowConfig s .quiet) ∧
      ∃ s, HolderRun narrowConfig ⟨laterWorkspaceDb, []⟩ retriedCalls s ∧
        ¬GivesBack narrowConfig s .quiet := by
  refine ⟨?_, ⟨_, Run.of_foldlM rfl, ?_⟩, ⟨_, Run.of_foldlM rfl, ?_⟩⟩
  · intro l hl
    exact absurd hl (Table.not_mem_empty l)
  · refine not_givesBack_quiet rfl (l := ⟨2, 0, 9, 0, seconds 60, 0⟩) ?_ rfl ?_
    · exact Table.mem_def.mpr (by decide +kernel)
    · decide +kernel
  · refine not_givesBack_quiet rfl (l := ⟨2, 0, 9, 0, seconds 60, 0⟩) ?_ rfl ?_
    · exact Table.mem_def.mpr (by decide +kernel)
    · decide +kernel

/-- The worker leases workspace 2, another worker finds nothing to lease, and the release succeeds. -/
def steadyCalls : List (HolderCall narrowConfig) :=
  [.acquire 0 .quiet true,
    .other (.acquire ⟨10, 0, seconds 60, 2, .full⟩ .quiet) (by decide), .release .quiet]

theorem givesBack_steadyCalls : narrowConfig.workspaceIds = none ∧ ∀ pre s, pre <+: steadyCalls →
    HolderRun narrowConfig ⟨laterWorkspaceDb, []⟩ pre s → ∀ env, GivesBack narrowConfig s env := by
  refine ⟨rfl, (givesBack_iff_remembers rfl laterWorkspaceDb steadyCalls).mp
    ⟨fun l hl => absurd hl (Table.not_mem_empty l), ?_, fun s hs => ⟨trivial, fun s' hs' => ⟨?_, ?_⟩⟩⟩⟩
  · exact Or.inr (Or.inr fun l hl => absurd hl (Table.not_mem_empty l))
  · exact Or.inl rfl
  · exact fun _ _ => trivial

end Dandori.OutboxWorkerService
