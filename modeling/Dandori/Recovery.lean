import Dandori.LeaseProgress
import Dandori.OutboxSafety
import Dandori.PartitionSharding
import Mathlib.Data.Finset.Dedup
import Mathlib.Data.Finset.Order

/-!
# No reachable state is a dead end

Whatever the workers and clients have done, and wherever they crashed, one worker that reaches a
workspace can still deliver each unfinished event of it. It starts over with an empty memory at a time
when the row is due and no foreign lease is left, gives up the workspaces that come before, and leases
batch after batch until the row is handed out; then it publishes the batch and marks it.
-/

namespace Dandori

open IssueRepository OutboxRepository PartitionRepository OutboxWorkerService

def SysAction.IsOf {ω ι γ : Type} (w : ω) : SysAction ω ι γ → Prop
  | .request _ => False
  | .acquire v _ _ => v = w
  | .start v => v = w
  | .cycle v _ _ => v = w
  | .shutdown v _ => v = w
  | .crash v => v = w

namespace OutboxRepository

def LeasesEnd (db : Db) : Prop := ∀ r ∈ db.outbox, r.status = .leased → r.leasedUntil.isSome

/-- A row that is not settled becomes eligible. -/
theorem exists_eligible {db : Db} (hends : LeasesEnd db) {r : OutboxRow} (hr : r ∈ db.outbox)
    (hopen : ¬r.terminal) : ∃ since, ∀ now, since ≤ now → Eligible r.workspaceId now r := by
  cases hstatus : r.status with
  | pending => exact ⟨r.availableAt, fun now hle => ⟨rfl, Or.inl ⟨Or.inl hstatus, hle⟩⟩⟩
  | leased =>
      obtain ⟨leasedUntil, huntil⟩ := Option.isSome_iff_exists.mp (hends r hr hstatus)
      exact ⟨leasedUntil, fun now hle => ⟨rfl, Or.inr ⟨hstatus, leasedUntil, huntil, hle⟩⟩⟩
  | delivered => exact absurd (Or.inl hstatus) hopen
  | failed => exact ⟨r.availableAt, fun now hle => ⟨rfl, Or.inl ⟨Or.inr hstatus, hle⟩⟩⟩
  | deadLetter => exact absurd (Or.inr hstatus) hopen

end OutboxRepository

namespace Program

variable {ω σ ι γ : Type} [DecidableEq ω]

/-- The worker is assigned the workspace once no foreign lease is in the way: it is on the list of the
worker, or in a window that the limit of an acquisition covers. -/
def Reaches (P : Program ω σ ι γ) (db : Db) (w : ω) (workspaceId : Uuid) : Prop :=
  match (P.config w).workspaceIds with
  | some staticList => workspaceId ∈ staticList
  | none => P.InWindow db w workspaceId ∧
      (windowWorkspaces db (P.config w).partitionShardBuckets).length ≤
        min (P.config w).partitionBatch i32Max.toNat

/-- Whatever the publisher has been through, the remote side can accept a message of the row. -/
def Publishable (P : Program ω σ ι γ) (r : OutboxRow) : Prop :=
  ∀ (call : LeaseCall) (publisher : σ), ∃ remote,
    (P.registry.dispatch (P.publisher remote) (call.message r) publisher).1 = .ok ()

abbrev Alone (P : Program ω σ ι γ) (w : ω) : Sys ω σ → Sys ω σ → Prop :=
  Run.Leads P.step (SysAction.IsOf w)

section Steps

variable {P : Program ω σ ι γ} {s t : Sys ω σ} {w : ω} {workspaceId : Uuid}

theorem leasesEnd_of_step {action : SysAction ω ι γ} (hs : LeasesEnd s.db)
    (h : P.step s action = some t) : LeasesEnd t.db := by
  have heffect := db_of_step (P.step_effect h)
  generalize t.db = db' at heffect ⊢
  intro r hr hstatus
  cases heffect with
  | leases => exact hs r hr hstatus
  | created _ hfresh =>
      rcases ((Table.insert?_eq_some hfresh.outbox).2.2 r).mp hr with rfl | hr
      · cases hstatus
      · exact hs r hr hstatus
  | leased hlease =>
      rcases leaseOutboxBatch_row hlease hr with hold | ⟨x, _, _, rfl, _⟩
      · exact hs r hold hstatus
      · rfl
  | applied _ _ hrun =>
      obtain ⟨x, hx, rfl⟩ := (LeaseTransition.mem_run_iff r hrun).mp hr
      split_ifs at hstatus ⊢ with hid
      · rw [written_outcomeMark_status] at hstatus
        split at hstatus
        · cases hstatus
        · split_ifs at hstatus
      · exact hs x hx hstatus
  | cleanedOutbox => exact hs r (Table.mem_filter.mp hr).1 hstatus
  | cleanedIdempotency => exact hs r hr hstatus

theorem leasesEnd_of_exec {as : List (SysAction ω ι γ)} (hs : LeasesEnd s.db) (h : P.Exec s as t) :
    LeasesEnd t.db :=
  h.invariant (P := fun u => LeasesEnd u.db) (fun _ _ _ hu hstep => leasesEnd_of_step hu hstep) hs

/-! ## The steps of one worker -/

theorem alone_of_step {action : SysAction ω ι γ} (h : P.step s action = some t)
    (hw : action.IsOf w) : P.Alone w s t := .of_step hw h

theorem alone_crash (P : Program ω σ ι γ) (s : Sys ω σ) (w : ω) :
    P.Alone w s (setWorker s w P.idleWorker s.db) := by
  have hcrash : P.step s (.crash w) = some (setWorker s w P.idleWorker s.db) := rfl
  exact alone_of_step hcrash rfl

variable {x : Uuid} {xs ys leased : List Uuid} {publisher publisher' : σ}

theorem alone_start (hw : s.workers w = ⟨x :: xs, [], leased, publisher⟩) :
    ∃ t, P.Alone w s t ∧ t.db = s.db ∧ t.workers w = ⟨xs, [⟨x, .leasing⟩], leased, publisher⟩ := by
  have hslot : 0 < tenantSlots (P.config w) := by
    rw [tenantSlots]
    omega
  have hstep : P.step s (.start w) =
      some (setWorker s w ⟨xs, [⟨x, .leasing⟩], leased, publisher⟩ s.db) := by
    simp only [step, hw, List.length_nil, if_pos hslot, List.nil_append]
  exact ⟨_, alone_of_step hstep rfl, rfl, setWorker_self _ _ _ _⟩

theorem alone_cycle {phase : Phase} {phase' : Option Phase} {action : CycleAction ι} {db' : Db}
    (hw : s.workers w = ⟨xs, [⟨x, phase⟩], leased, publisher⟩)
    (h : P.cycleStep (P.config w) x action phase publisher s.db = some (phase', publisher', db')) :
    ∃ t, P.Alone w s t ∧ t.db = db' ∧
      t.workers w = ⟨xs, replaceCycle [⟨x, phase⟩] 0 x phase', leased, publisher'⟩ := by
  have hstep : P.step s (.cycle w 0 action) =
      some (setWorker s w ⟨xs, replaceCycle [⟨x, phase⟩] 0 x phase', leased, publisher'⟩ db') := by
    simp only [step, hw, List.getElem?_cons_zero, h]
  exact ⟨_, alone_of_step hstep rfl, rfl, setWorker_self _ _ _ _⟩

def failingEnv : Env := ⟨none, [true]⟩

omit [DecidableEq ω] in
theorem cycleStep_giveUp (db : Db) : P.cycleStep (P.config w) x (.lease 0 0 failingEnv) .leasing
    publisher db = some (none, publisher, db) := by
  simp only [cycleStep]
  rcases leaseOutboxBatch_cases P.codec (leaseCall (P.config w) x 0 0) failingEnv db with
    ⟨e, he⟩ | ⟨_, _, he, _⟩
  · rw [he]
  · have hallowed := (leaseOutboxBatch_eq_ok.mp he).1
    cases hallowed

/-- A worker gives up the workspaces before one that it was assigned, by lease calls that fail. -/
theorem alone_skip (hw : s.workers w = ⟨xs ++ workspaceId :: ys, [], leased, publisher⟩) :
    ∃ t, P.Alone w s t ∧ t.db = s.db ∧ t.workers w = ⟨workspaceId :: ys, [], leased, publisher⟩ := by
  induction xs generalizing s with
  | nil => exact ⟨s, .refl s, rfl, hw⟩
  | cons x xs ih =>
      obtain ⟨t₁, h₁, hdb₁, hw₁⟩ := alone_start (P := P) hw
      obtain ⟨t₂, h₂, hdb₂, hw₂⟩ := alone_cycle hw₁ (cycleStep_giveUp t₁.db)
      obtain ⟨t, ht, hdb, hworker⟩ := ih hw₂
      exact ⟨t, (h₁.trans h₂).trans ht, hdb.trans (hdb₂.trans hdb₁), hworker⟩

def Unheld (P : Program ω σ ι γ) (w : ω) (now : Timestamp) (db : Db) : Prop :=
  ∀ x, heldByOther db.partitionLeases (P.config w).workerInstanceId now x = false

theorem alone_acquire {now : Timestamp} (hw : s.workers w = P.idleWorker)
    (hreach : P.Reaches s.db w workspaceId) (hunheld : P.Unheld w now s.db) :
    ∃ t xs ys leased, P.Alone w s t ∧
      t.workers w = ⟨xs ++ workspaceId :: ys, [], leased, P.idlePublisher⟩ ∧
      (∃ leases, t.db = { s.db with partitionLeases := leases }) ∧ P.Unheld w now t.db := by
  have hacquired : ∃ xs ys leases,
      acquireWorkspaces (P.config w) now .quiet s.db =
        (.ok (xs ++ workspaceId :: ys), { s.db with partitionLeases := leases }) ∧
      P.Unheld w now { s.db with partitionLeases := leases } := by
    unfold Reaches at hreach
    unfold acquireWorkspaces
    cases hids : (P.config w).workspaceIds with
    | some staticList =>
        rw [hids] at hreach
        obtain ⟨xs, ys, hsplit⟩ := List.append_of_mem hreach
        exact ⟨xs, ys, s.db.partitionLeases, by rw [hsplit], hunheld⟩
    | none =>
        rw [hids] at hreach
        obtain ⟨⟨row, hrow, rfl, hbucket⟩, hlimit⟩ := hreach
        have hnonneg : 0 ≤ scanLimit (acquireCall (P.config w) now).limit := by
          apply AcquireCall.scanLimit_nonneg
          simp only [acquireCall]
          omega
        obtain ⟨leases, hacquire, hmine, hothers⟩ :=
          acquirePartitions_of_allowed (acquireCall (P.config w) now) .quiet s.db rfl hnonneg
        have hcandidates := candidates_of_free (P.config w) now hlimit (fun row _ => hunheld row.id)
        have hmem : row.id ∈ ((acquireCall (P.config w) now).candidates s.db).map WorkspaceRow.id := by
          rw [hcandidates]
          exact List.mem_map_of_mem (mem_windowWorkspaces.mpr ⟨hrow, hbucket⟩)
        obtain ⟨xs, ys, hsplit⟩ := List.append_of_mem hmem
        refine ⟨xs, ys, leases, by rw [hacquire, hsplit], fun x => ?_⟩
        by_cases hx : x ∈ ((acquireCall (P.config w) now).candidates s.db).map WorkspaceRow.id
        · obtain ⟨row', hrow', rfl⟩ := List.mem_map.mp hx
          simp [heldByOther, hmine row' hrow', AcquireCall.leaseRow, acquireCall]
        · have hbefore := hunheld x
          simp only [heldByOther] at hbefore ⊢
          rw [hothers x hx]
          exact hbefore
  obtain ⟨xs, ys, leases, hacquire, hstill⟩ := hacquired
  have hstep : P.step s (.acquire w now .quiet) = some (setWorker s w { P.idleWorker with
      waiting := xs ++ workspaceId :: ys
      leased := rememberPartitions (P.config w) (xs ++ workspaceId :: ys) [] }
      { s.db with partitionLeases := leases }) := by
    simp only [step, hw, hacquire]
    rfl
  exact ⟨_, xs, ys, _, alone_of_step hstep rfl, setWorker_self _ _ _ _, ⟨leases, rfl⟩, hstill⟩

theorem alone_lease {now : Timestamp} (leaseToken : Uuid) (hreach : P.Reaches s.db w workspaceId)
    (hunheld : P.Unheld w now s.db) (hitems : 0 ≤ (P.config w).batchSize) :
    ∃ t ys leased batch leases, P.Alone w s t ∧
      t.workers w = ⟨ys, [⟨workspaceId, .processing batch []⟩], leased, P.idlePublisher⟩ ∧
      leaseOutboxBatch P.codec (leaseCall (P.config w) workspaceId now leaseToken) .quiet
        { s.db with partitionLeases := leases } = (.ok batch, t.db) ∧ P.Unheld w now t.db := by
  obtain ⟨t₁, xs, ys, leased, h₁, hw₁, ⟨leases, hdb₁⟩, hunheld₁⟩ :=
    alone_acquire (P := P) (s := setWorker s w P.idleWorker s.db) (setWorker_self _ _ _ _) hreach
      hunheld
  obtain ⟨t₂, h₂, hdb₂, hw₂⟩ := alone_skip (P := P) hw₁
  obtain ⟨t₃, h₃, hdb₃, hw₃⟩ := alone_start (P := P) hw₂
  obtain ⟨batch, db', hlease⟩ := leaseOutboxBatch_commits P.codec
    (leaseCall (P.config w) workspaceId now leaseToken) .quiet t₃.db hitems rfl
  have hcycle : P.cycleStep (P.config w) workspaceId (.lease now leaseToken .quiet) .leasing
      P.idlePublisher t₃.db = some (some (.processing batch []), P.idlePublisher, db') := by
    simp only [cycleStep, hlease]
  obtain ⟨t₄, h₄, hdb₄, hw₄⟩ := alone_cycle hw₃ hcycle
  have hdb : t₃.db = { s.db with partitionLeases := leases } := hdb₃.trans (hdb₂.trans hdb₁)
  refine ⟨t₄, ys, leased, batch, leases,
    ((((alone_crash P s w).trans h₁).trans h₂).trans h₃).trans h₄, hw₄, ?_, ?_⟩
  · rw [hdb₄, ← hdb, hlease]
  · obtain ⟨_, _, hwritten, _⟩ := leaseOutboxBatch_ok hlease
    rw [hdb₄, hwritten, hdb₃, hdb₂]
    exact hunheld₁

theorem alone_publish {pending : List OutboxMessage}
    {completed : List (OutboxMessage × Except PublishError Unit)}
    (hw : s.workers w = ⟨xs, [⟨workspaceId, .processing pending completed⟩], leased, publisher⟩)
    (haccepts : ∀ m ∈ pending, ∀ publisher, ∃ remote,
      (P.registry.dispatch (P.publisher remote) m publisher).1 = .ok ()) :
    ∃ t publisher', P.Alone w s t ∧ t.db = s.db ∧
      t.workers w = ⟨xs, [⟨workspaceId,
        .processing [] (completed ++ pending.map (fun m => (m, .ok ())))⟩], leased, publisher'⟩ := by
  induction pending generalizing s completed publisher with
  | nil => exact ⟨s, publisher, .refl s, rfl, by rwa [List.map_nil, List.append_nil]⟩
  | cons m pending ih =>
      obtain ⟨remote, haccepted⟩ := haccepts m List.mem_cons_self publisher
      have hcycle : P.cycleStep (P.config w) workspaceId (.dispatch 0 remote)
          (.processing (m :: pending) completed) publisher s.db =
            some (some (.processing pending (completed ++ [(m, .ok ())])),
              (P.registry.dispatch (P.publisher remote) m publisher).2, s.db) := by
        have hslot : 0 < max (P.config w).publishConcurrency 1 := by omega
        rw [← haccepted]
        simp only [cycleStep, if_pos hslot, List.getElem?_cons_zero, List.eraseIdx_cons_zero]
        rfl
      obtain ⟨t₁, h₁, hdb₁, hw₁⟩ := alone_cycle hw hcycle
      obtain ⟨t, publisher', ht, hdb, hworker⟩ :=
        ih hw₁ (fun m' hm' => haccepts m' (List.mem_cons_of_mem m hm'))
      refine ⟨t, publisher', h₁.trans ht, hdb.trans hdb₁, ?_⟩
      rw [hworker, List.map_cons, List.append_assoc]
      rfl

structure HeldRow (P : Program ω σ ι γ) (w : ω) (now : Timestamp) (m : OutboxMessage)
    (r : OutboxRow) : Prop where
  id : r.id = m.id
  workspace : r.workspaceId = m.workspaceId
  owner : m.leaseOwner = (P.config w).workerInstanceId
  held : heldBy m.leaseToken m.leaseOwner now r = true

omit [DecidableEq ω] in
theorem HeldRow.delivers {now : Timestamp} {m : OutboxMessage} {r : OutboxRow} {db : Db}
    (h : P.HeldRow w now m r) (hr : r ∈ db.outbox) :
    ∃ db', (deliveredMark (tenantAuth (P.config w) m.workspaceId) m.id m.leaseToken m.leaseOwner
      now).run P.codec .quiet db = (.ok (), db') := by
  refine (LeaseTransition.run_commits_iff hr ?_).mpr ⟨rfl, h.owner, ?_⟩
  · exact LeaseTransition.guard_iff.mpr ⟨h.workspace, h.id, h.held⟩
  · have hcheck := db.outbox.checked r hr
    simp only [OutboxRow.check, Bool.and_eq_true] at hcheck
    simp [OutboxRow.check, LeaseTransition.written, deliveredMark, deliveredUpdate, hcheck.1.1,
      hcheck.1.2]

theorem alone_mark {now : Timestamp} {ms : List OutboxMessage} {m : OutboxMessage} {r : OutboxRow}
    (hw : s.workers w = ⟨xs, [⟨workspaceId, .processing [] (ms.map (fun m => (m, .ok ())))⟩], leased,
      publisher⟩)
    (hnodup : (ms.map OutboxMessage.id).Nodup)
    (hheld : ∀ m ∈ ms, m.workspaceId = workspaceId ∧ ∃ r ∈ s.db.outbox, P.HeldRow w now m r)
    (hm : m ∈ ms) (hr : r ∈ s.db.outbox) (hrow : P.HeldRow w now m r) :
    ∃ t, P.Alone w s t ∧ (deliveredUpdate now).apply r ∈ t.db.outbox := by
  induction ms generalizing s with
  | nil => cases hm
  | cons m' ms ih =>
      obtain ⟨hworkspace, r', hr', hrow'⟩ := hheld m' List.mem_cons_self
      obtain ⟨db', hrun⟩ := hrow'.delivers hr'
      rw [hworkspace] at hrun
      have hcycle : P.cycleStep (P.config w) workspaceId (.apply ⟨.quiet, now, 0⟩)
          (.processing [] ((m', .ok ()) :: ms.map (fun m => (m, .ok ())))) publisher s.db =
            some (some (.processing [] (ms.map (fun m => (m, .ok ())))), publisher, db') := by
        simp only [cycleStep, markOutcome_eq, outcomeMark, hrun]
      obtain ⟨t₁, h₁, hdb₁, hw₁⟩ := alone_cycle hw hcycle
      rw [List.map_cons, List.nodup_cons] at hnodup
      by_cases hid : r.id = m'.id
      · refine ⟨t₁, h₁, ?_⟩
        rw [hdb₁]
        exact LeaseTransition.written_mem hrun hr hid
      · have hne : m ≠ m' := fun heq => hid (heq ▸ hrow.id)
        have hrest : m ∈ ms := (List.mem_cons.mp hm).resolve_left hne
        have hother : ∀ x : OutboxRow, x.id ≠ m'.id → (x ∈ t₁.db.outbox ↔ x ∈ s.db.outbox) :=
          fun x hx => hdb₁ ▸ LeaseTransition.mem_run_of_ne hrun hx
        have hstill : ∀ m ∈ ms, m.workspaceId = workspaceId ∧
            ∃ r ∈ t₁.db.outbox, P.HeldRow w now m r := by
          intro m'' hm''
          obtain ⟨hworkspace'', r'', hr'', hrow''⟩ := hheld m'' (List.mem_cons_of_mem m' hm'')
          refine ⟨hworkspace'', r'', (hother r'' (fun hsame => ?_)).mpr hr'', hrow''⟩
          exact hnodup.1 (List.mem_map.mpr ⟨m'', hm'', hrow''.id.symm.trans hsame⟩)
        obtain ⟨t, ht, hmem⟩ := ih hw₁ hnodup.2 hstill hrest ((hother r hid).mpr hr)
        exact ⟨t, h₁.trans ht, hmem⟩

/-- Where a worker has the message of a row in its batch, it delivers the row. -/
theorem alone_deliver {now : Timestamp} {leaseToken : Uuid} {batch : List OutboxMessage}
    {r : OutboxRow} {db : Db}
    (hw : s.workers w = ⟨xs, [⟨workspaceId, .processing batch []⟩], leased, publisher⟩)
    (hlease : leaseOutboxBatch P.codec (leaseCall (P.config w) workspaceId now leaseToken) .quiet db =
      (.ok batch, s.db))
    (hseconds : 1 ≤ (P.config w).leaseSeconds)
    (hr : r ∈ (leaseCall (P.config w) workspaceId now leaseToken).selected db)
    (haccepts : ∀ x ∈ db.outbox, x.workspaceId = workspaceId → P.Publishable x) :
    ∃ t, P.Alone w s t ∧ (deliveredUpdate now).apply
      ((leaseCall (P.config w) workspaceId now leaseToken).leased r) ∈ t.db.outbox := by
  generalize hcall : leaseCall (P.config w) workspaceId now leaseToken = call at hlease hr ⊢
  have hworkspace : call.auth.workspaceId = workspaceId := by rw [← hcall]; rfl
  have howner : call.auth.actorId = (P.config w).workerInstanceId := by rw [← hcall]; rfl
  have hlive : now < call.leaseUntil := by
    rw [← hcall]
    have hpos : 0 < (P.config w).leaseSeconds * 1000000 := by omega
    exact Int.lt_add_of_pos_right now hpos
  have hbatch : ∀ m ∈ batch, ∃ x ∈ db.outbox, x.workspaceId = workspaceId ∧
      call.leased x ∈ s.db.outbox ∧ m = call.message x := by
    intro m hm
    obtain ⟨x, hx, hcandidate, hleased, rfl⟩ := leaseOutboxBatch_message hlease hm
    exact ⟨x, hx, (isCandidate_iff.mp hcandidate).1.trans hworkspace, hleased, rfl⟩
  have hheld : ∀ x ∈ db.outbox, x.workspaceId = workspaceId →
      P.HeldRow w now (call.message x) (call.leased x) := by
    intro x hx hxworkspace
    refine ⟨rfl, rfl, howner, ?_⟩
    simp [heldBy, LeaseCall.leased, LeaseCall.message, hlive]
  obtain ⟨t₁, publisher', h₁, hdb₁, hw₁⟩ := alone_publish (P := P) hw (fun m hm => by
    obtain ⟨x, hx, hxworkspace, _, rfl⟩ := hbatch m hm
    exact haccepts x hx hxworkspace call)
  rw [List.nil_append] at hw₁
  have hrdb := LeaseCall.mem_of_selected hr
  have hrworkspace : r.workspaceId = workspaceId := by
    obtain ⟨_, hel⟩ := List.mem_filter.mp ((call.selected_least db).subset hr)
    exact (of_decide_eq_true hel).1.trans hworkspace
  have hmem : call.message r ∈ batch := (leaseOutboxBatch_perm hlease).mem_iff.mpr
    (List.mem_map_of_mem (f := call.message ∘ call.leased) hr)
  have hleased : call.leased r ∈ t₁.db.outbox := by
    rw [hdb₁]
    exact (mem_of_leaseOutboxBatch hlease _).mpr (Or.inl ⟨r, hr, rfl⟩)
  obtain ⟨t, ht, hdelivered⟩ := alone_mark (P := P) hw₁ (leaseOutboxBatch_nodup hlease) (fun m hm => by
    obtain ⟨x, hx, hxworkspace, hxleased, rfl⟩ := hbatch m hm
    exact ⟨hxworkspace, call.leased x, hdb₁ ▸ hxleased, hheld x hx hxworkspace⟩) hmem hleased
    (hheld r hrdb hrworkspace)
  exact ⟨t, h₁.trans ht, hdelivered⟩

omit [DecidableEq ω] in
theorem Reaches.congr {db db' : Db} (hsame : db'.workspaces = db.workspaces)
    (h : P.Reaches db w workspaceId) : P.Reaches db' w workspaceId := by
  unfold Reaches at h ⊢
  cases hids : (P.config w).workspaceIds with
  | some staticList => rwa [hids] at h
  | none =>
      rw [hids] at h
      refine ⟨(InWindow.congr hsame).mpr h.1, ?_⟩
      unfold windowWorkspaces
      rw [hsame]
      exact h.2

/-- What is left to do for a row at a time when it is due and no foreign partition lease is left. -/
structure Awaiting (P : Program ω σ ι γ) (w : ω) (now : Timestamp) (r : OutboxRow) (db : Db) :
    Prop where
  row : r ∈ db.outbox
  reach : P.Reaches db w r.workspaceId
  unheld : P.Unheld w now db
  accepts : ∀ x ∈ db.outbox, x.workspaceId = r.workspaceId → P.Publishable x

/-- One more batch delivers the row or takes rows that come before it. -/
theorem Awaiting.round {now : Timestamp} {r : OutboxRow} (h : P.Awaiting w now r s.db)
    (heligible : Eligible r.workspaceId now r) (hbatch : 1 ≤ (P.config w).batchSize)
    (hseconds : 1 ≤ (P.config w).leaseSeconds) :
    ∃ t, P.Alone w s t ∧ ((∃ x ∈ t.db.outbox, x.event = r.event ∧ x.status = .delivered) ∨
      (P.Awaiting w now r t.db ∧
        (rowsAhead r (now + 1) t.db).length < (rowsAhead r (now + 1) s.db).length)) := by
  obtain ⟨t, ys, leased, batch, leases, ht, hw, hlease, hunheld⟩ :=
    alone_lease 0 h.reach h.unheld (by omega)
  by_cases hselected : r ∈ (leaseCall (P.config w) r.workspaceId now 0).selected
      { s.db with partitionLeases := leases }
  · obtain ⟨u, hu, hdelivered⟩ := alone_deliver hw hlease hseconds hselected h.accepts
    exact ⟨u, ht.trans hu, Or.inl ⟨_, hdelivered, rfl, rfl⟩⟩
  · obtain ⟨_, _, hwritten, _⟩ := leaseOutboxBatch_ok hlease
    have hworkspaces : t.db.workspaces = s.db.workspaces := by rw [hwritten]
    refine ⟨t, ht, Or.inr ⟨⟨?_, h.reach.congr hworkspaces, hunheld, fun x hx hxworkspace => ?_⟩, ?_⟩⟩
    · exact (mem_of_leaseOutboxBatch hlease r).mpr (Or.inr ⟨h.row, hselected⟩)
    · rcases leaseOutboxBatch_row hlease hx with hold | ⟨y, hy, _, rfl, _⟩
      · exact h.accepts x hold hxworkspace
      · exact h.accepts y hy hxworkspace
    · have huntil : now + 1 ≤ (leaseCall (P.config w) r.workspaceId now 0).leaseUntil := by
        have hlong : 1 ≤ (P.config w).leaseSeconds * 1000000 := by omega
        exact Int.add_le_add_left hlong now
      have hlower := rowsAhead_of_passedOver hlease h.row rfl heligible (Int.lt_succ now) huntil
        hselected
      have hitems : 1 ≤ (leaseCall (P.config w) r.workspaceId now 0).maxItems.toNat := by
        change 1 ≤ (P.config w).batchSize.toNat
        omega
      exact Nat.lt_of_lt_of_le (Nat.lt_add_of_pos_right hitems) hlower

end Steps

variable (P : Program ω σ ι γ)

/-- From every state that a run reaches, a worker that reaches the workspace of an unfinished row can by
itself deliver the row, whatever the other workers and the clients have done and wherever they crashed.
The other rows of the workspace have to be publishable too: one that is refused before the row in its
batch, and whose failure cannot be recorded, ends the cycle each time. -/
theorem recoverable {db : Db} (hends : LeasesEnd db) {as : List (SysAction ω ι γ)} {s : Sys ω σ}
    (h : P.Exec (P.initial db) as s) {r : OutboxRow} (hr : r ∈ s.db.outbox) (hopen : ¬r.terminal)
    {w : ω} (hreach : P.Reaches db w r.workspaceId) (hbatch : 1 ≤ (P.config w).batchSize)
    (hseconds : 1 ≤ (P.config w).leaseSeconds)
    (haccepts : ∀ x ∈ s.db.outbox, x.workspaceId = r.workspaceId → P.Publishable x) :
    ∃ t, P.Alone w s t ∧ ∃ x ∈ t.db.outbox, x.event = r.event ∧ x.status = .delivered := by
  obtain ⟨since, hsince⟩ := exists_eligible (leasesEnd_of_exec hends h) hr hopen
  obtain ⟨now, hnow⟩ := (since :: s.db.partitionLeases.rows.map
    PartitionLeaseRow.leasedUntil).toFinset.exists_le
  have heligible := hsince now (hnow since (by simp))
  have hawaiting : P.Awaiting w now r s.db := by
    refine ⟨hr, hreach.congr (workspaces_of_exec h), fun x => ?_, haccepts⟩
    cases hl : s.db.partitionLeases.find? x with
    | none => simp [heldByOther, hl]
    | some l =>
        have hmem := (Table.find?_eq_some.mp hl).1
        have hended := hnow l.leasedUntil (List.mem_toFinset.mpr
          (List.mem_cons_of_mem since (List.mem_map_of_mem hmem)))
        simp [heldByOther, hl, not_lt.mpr hended]
  exact Run.Leads.of_measure (fun u => (rowsAhead r (now + 1) u.db).length)
    (fun u hu => Awaiting.round hu heligible hbatch hseconds) hawaiting

def crashedRun : List (SysAction Unit Unit (CreateIssueCall × Env)) :=
  [.request (retriedCall 4 0, .quiet), .acquire () 0 .quiet, .start (),
    .cycle () 0 (.lease 0 7 .quiet), .crash ()]

theorem recoverable_crashedRun : LeasesEnd projectDb ∧
    ∃ s, noopProgram.Exec (noopProgram.initial projectDb) crashedRun s ∧
      ∃ r ∈ s.db.outbox, r.status = .leased ∧ noopProgram.Reaches projectDb () r.workspaceId ∧
        ∃ t, noopProgram.Alone () s t ∧ ∃ x ∈ t.db.outbox, x.event = r.event ∧ x.status = .delivered := by
  have hends : LeasesEnd projectDb := by
    intro r hr
    cases hr
  have hrows : (crashedRun.foldlM noopProgram.step (noopProgram.initial projectDb)).map
      (fun s => s.db.outbox.rows) = some [((leaseCall (noopProgram.config ()) 1 0 7).leased
        (outboxRow Codec.unary (retriedCall 4 0)))] := by
    rfl
  obtain ⟨s, hs, hrows⟩ := Option.map_eq_some_iff.mp hrows
  have hmem : ∀ x, x ∈ s.db.outbox ↔ x = (leaseCall (noopProgram.config ()) 1 0 7).leased
      (outboxRow Codec.unary (retriedCall 4 0)) := by
    intro x
    rw [Table.mem_def, hrows, List.mem_singleton]
  have hreach : noopProgram.Reaches projectDb () 1 := by
    simp [Reaches, noopProgram]
  refine ⟨hends, s, Run.of_foldlM hs, _, (hmem _).mpr rfl, rfl, hreach, ?_⟩
  refine noopProgram.recoverable hends (Run.of_foldlM hs) ((hmem _).mpr rfl) ?_ hreach (by decide)
    (by decide) (fun x hx _ => ?_)
  · rintro (hstatus | hstatus) <;> cases hstatus
  · rw [(hmem x).mp hx]
    exact fun call publisher => ⟨(), rfl⟩

end Program
end Dandori
