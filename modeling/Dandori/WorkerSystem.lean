import Dandori.LabelledRun
import Dandori.WorkerService

/-!
# Clients and workers on one database

Any number of workers and clients share a database. A worker acquires workspaces, starts a cycle for
each with bounded concurrency, and takes each cycle through its calls one at a time: lease a batch,
dispatch the messages, apply the outcomes, clean up. Each transaction is one step, each publish is one
step, and a crash empties the memory of a worker between any two steps; an idle worker may shut down,
which releases its partitions. Clock readings, generated ids, failing statements and the answers of
the remote side come with the action.

`CycleEffect` and `StepEffect` list once what a step can do; the invariants of the system are proved
from them.
-/

namespace Dandori

open IssueRepository OutboxRepository PartitionRepository OutboxWorkerService

/-- Requests of clients, each of which changes the database as one committed create or not at all. -/
structure Client (codec : Codec) (γ : Type) where
  run : γ → Db → Db
  call : γ → Option CreateIssueCall
  run_cases : ∀ request db, run request db = db ∨
    ∃ c, call request = some c ∧ FreshCreate codec c db (run request db)

theorem createIssueTransactional_db (codec : Codec) (call : CreateIssueCall) (env : Env) (db : Db) :
    (createIssueTransactional codec call env db).2 = db ∨
      FreshCreate codec call db (createIssueTransactional codec call env db).2 := by
  rcases createIssueTransactional_cases codec call env db with
    ⟨e, he, _⟩ | ⟨row, _, _, he⟩ | ⟨db', hfresh, he⟩
  · exact Or.inl (by rw [he])
  · exact Or.inl (by rw [he])
  · exact Or.inr (by rwa [he])

def storeClient (codec : Codec) : Client codec (CreateIssueCall × Env) where
  run request db := (createIssueTransactional codec request.1 request.2 db).2
  call request := some request.1
  run_cases request db :=
    (createIssueTransactional_db codec request.1 request.2 db).imp id (fun h => ⟨_, rfl, h⟩)

structure ServiceRequest where
  auth : AuthContext
  request : CreateIssueRequest
  generated : IssueAppService.Generated
  env : Env

def serviceClient (codec : Codec) (policy : PolicyEngine) : Client codec ServiceRequest where
  run r db := (IssueAppService.createIssue codec policy r.auth r.request r.generated r.env db).2
  call r := (IssueAppService.prepare codec policy r.auth r.request r.generated).toOption
  run_cases r db := by
    rcases IssueAppService.createIssue_db codec policy r.auth r.request r.generated r.env db with
      hsame | ⟨call, hprepare, hdb⟩
    · exact Or.inl hsame
    · rw [hdb]
      rcases createIssueTransactional_db codec call r.env db with hsame | hfresh
      · exact Or.inl hsame
      · exact Or.inr ⟨call, by rw [hprepare]; rfl, hfresh⟩

/-- What the processes run: `ω` names the workers, `σ` is the state of a publisher, `ι` what the remote
side does during one dispatch, `γ` the requests of clients. -/
structure Program (ω σ ι γ : Type) where
  codec : Codec
  client : Client codec γ
  config : ω → OutboxWorkerConfig
  registry : OutboxRegistry (StateM σ)
  publisher : ι → OutboxPublisher (StateM σ)
  idlePublisher : σ

/-- How far a tenant cycle has come. While messages are pending their outcomes are collected; then
the outcomes are applied from the front. -/
inductive Phase
  | leasing
  | processing (pending : List OutboxMessage)
      (completed : List (OutboxMessage × Except PublishError Unit))
  | cleaning

structure Cycle where
  workspaceId : Uuid
  phase : Phase

/-- The memory of a worker process; `leased` is what `partition_state` remembers for the shutdown. -/
structure Worker (σ : Type) where
  waiting : List Uuid
  cycles : List Cycle
  leased : List Uuid
  publisher : σ

structure Sys (ω σ : Type) where
  db : Db
  workers : ω → Worker σ

inductive CycleAction (ι : Type)
  | lease (now : Timestamp) (leaseToken : Uuid) (env : Env)
  | dispatch (index : ℕ) (remote : ι)
  | apply (reading : MarkEnv)
  | cleanOutbox (deliveredNow deadLetterNow : Timestamp) (env : Env)
  | cleanIdempotency (now : Timestamp) (env : Env)

inductive SysAction (ω ι γ : Type)
  | request (request : γ)
  | acquire (worker : ω) (now : Timestamp) (env : Env)
  | start (worker : ω)
  | cycle (worker : ω) (slot : ℕ) (action : CycleAction ι)
  | shutdown (worker : ω) (env : Env)
  | crash (worker : ω)

namespace Program

variable {ω σ ι γ : Type} (P : Program ω σ ι γ)

def idleWorker : Worker σ := ⟨[], [], [], P.idlePublisher⟩

def initial (db : Db) : Sys ω σ := ⟨db, fun _ => P.idleWorker⟩

/-- One step of `run_tenant_cycle`; the cycle ends when no phase is left. -/
def cycleStep (config : OutboxWorkerConfig) (workspaceId : Uuid) :
    CycleAction ι → Phase → σ → Db → Option (Option Phase × σ × Db)
  | .lease now leaseToken env, .leasing, publisher, db =>
      match leaseOutboxBatch P.codec (leaseCall config workspaceId now leaseToken) env db with
      | (.ok batch, db') => some (some (.processing batch []), publisher, db')
      | (.error _, db') => some (none, publisher, db')
  | .dispatch index remote, .processing pending completed, publisher, db =>
      if index < max config.publishConcurrency 1 then
        match pending[index]? with
        | none => none
        | some message =>
            let (outcome, publisher') := P.registry.dispatch (P.publisher remote) message publisher
            some (some (.processing (pending.eraseIdx index) (completed ++ [(message, outcome)])),
              publisher', db)
      else none
  | .apply reading, .processing [] ((message, outcome) :: rest), publisher, db =>
      match markOutcome P.codec config (tenantAuth config workspaceId) message outcome reading db with
      | (.ok (), db') => some (some (.processing [] rest), publisher, db')
      | (.error _, db') => some (none, publisher, db')
  | .cleanOutbox deliveredNow deadLetterNow env, .processing [] [], publisher, db =>
      match cleanTenantOutbox P.codec config workspaceId deliveredNow deadLetterNow env db with
      | (.ok _, db') => some (some .cleaning, publisher, db')
      | (.error _, db') => some (none, publisher, db')
  | .cleanIdempotency now env, .cleaning, publisher, db =>
      some (none, publisher, (cleanTenantIdempotency P.codec config workspaceId now env db).2)
  | _, _, _, _ => none

/-- What one step of a cycle can do to its phase and to the database. -/
inductive CycleEffect (config : OutboxWorkerConfig) (workspaceId : Uuid) :
    CycleAction ι → Phase → σ → Db → Option Phase → σ → Db → Prop
  | failed (action : CycleAction ι) (phase : Phase) (publisher : σ) (db : Db) :
      CycleEffect config workspaceId action phase publisher db none publisher db
  | leased {now leaseToken env publisher db batch db'}
      (h : leaseOutboxBatch P.codec (leaseCall config workspaceId now leaseToken) env db =
        (.ok batch, db')) :
      CycleEffect config workspaceId (.lease now leaseToken env) .leasing publisher db
        (some (.processing batch [])) publisher db'
  | dispatched {index remote pending completed publisher db message outcome publisher'}
      (hmessage : pending[index]? = some message)
      (h : P.registry.dispatch (P.publisher remote) message publisher = (outcome, publisher')) :
      CycleEffect config workspaceId (.dispatch index remote) (.processing pending completed)
        publisher db
        (some (.processing (pending.eraseIdx index) (completed ++ [(message, outcome)])))
        publisher' db
  | applied {reading message outcome rest publisher db db'}
      (h : (outcomeMark config (tenantAuth config workspaceId) message outcome reading).run P.codec
        reading.env db = (.ok (), db')) :
      CycleEffect config workspaceId (.apply reading) (.processing [] ((message, outcome) :: rest))
        publisher db (some (.processing [] rest)) publisher db'
  | cleanedOutbox (deliveredNow deadLetterNow : Timestamp) (env : Env) (publisher : σ) (db : Db) :
      CycleEffect config workspaceId (.cleanOutbox deliveredNow deadLetterNow env)
        (.processing [] []) publisher db (some .cleaning) publisher
        { db with outbox := db.outbox.filter (fun r => !isExpiredOutbox workspaceId
            (deliveredNow - hours config.deliveredRetentionHours)
            (deadLetterNow - hours config.deadLetterRetentionHours) r) }
  | cleanedIdempotency (now : Timestamp) (env : Env) (publisher : σ) (db : Db) :
      CycleEffect config workspaceId (.cleanIdempotency now env) .cleaning publisher db none publisher
        { db with idempotencyRecords := db.idempotencyRecords.filter (fun r =>
            !isExpiredRecord workspaceId (now - hours config.idempotencyRetentionHours) r) }

theorem cycleStep_effect {config : OutboxWorkerConfig} {workspaceId : Uuid}
    {action : CycleAction ι} {phase : Phase} {publisher publisher' : σ} {db db' : Db}
    {phase' : Option Phase}
    (h : P.cycleStep config workspaceId action phase publisher db = some (phase', publisher', db')) :
    P.CycleEffect config workspaceId action phase publisher db phase' publisher' db' := by
  cases action with
  | lease now leaseToken env =>
      cases phase with
      | leasing =>
          simp only [cycleStep] at h
          rcases leaseOutboxBatch_cases P.codec (leaseCall config workspaceId now leaseToken) env db
            with ⟨e, he⟩ | ⟨ids, v, he, _, _⟩
          · rw [he] at h
            cases h
            exact .failed _ _ _ _
          · rw [he] at h
            cases h
            exact .leased he
      | processing pending completed => cases h
      | cleaning => cases h
  | dispatch index remote =>
      cases phase with
      | leasing => cases h
      | processing pending completed =>
          simp only [cycleStep] at h
          split_ifs at h
          cases hmessage : pending[index]? with
          | none =>
              rw [hmessage] at h
              cases h
          | some message =>
              rw [hmessage] at h
              cases h
              exact .dispatched hmessage rfl
      | cleaning => cases h
  | apply reading =>
      match phase with
      | .leasing => cases h
      | .processing (_ :: _) _ => cases h
      | .processing [] [] => cases h
      | .processing [] ((message, outcome) :: rest) =>
          simp only [cycleStep, markOutcome_eq] at h
          rcases LeaseTransition.run_cases P.codec
            (outcomeMark config (tenantAuth config workspaceId) message outcome reading) reading.env db
            with ⟨e, he⟩ | ⟨r, _, _, _, v, he, _⟩
          · rw [he] at h
            cases h
            exact .failed _ _ _ _
          · rw [he] at h
            cases h
            exact .applied he
      | .cleaning => cases h
  | cleanOutbox deliveredNow deadLetterNow env =>
      match phase with
      | .leasing => cases h
      | .processing (_ :: _) _ => cases h
      | .processing [] (_ :: _) => cases h
      | .processing [] [] =>
          simp only [cycleStep, cleanTenantOutbox] at h
          rcases cleanupOutbox_cases P.codec (tenantAuth config workspaceId)
            (deliveredNow - hours config.deliveredRetentionHours)
            (deadLetterNow - hours config.deadLetterRetentionHours) env db with ⟨e, he⟩ | ⟨n, he⟩
          · rw [he] at h
            cases h
            exact .failed _ _ _ _
          · rw [he] at h
            cases h
            exact .cleanedOutbox _ _ _ _ _
      | .cleaning => cases h
  | cleanIdempotency now env =>
      cases phase with
      | leasing => cases h
      | processing pending completed => cases h
      | cleaning =>
          simp only [cycleStep, cleanTenantIdempotency] at h
          rcases cleanupIdempotency_cases P.codec (tenantAuth config workspaceId)
            (now - hours config.idempotencyRetentionHours) env db with ⟨e, he⟩ | ⟨n, he⟩
          · rw [he] at h
            cases h
            exact .failed _ _ _ _
          · rw [he] at h
            cases h
            exact .cleanedIdempotency _ _ _ _

def tenantSlots (config : OutboxWorkerConfig) : ℕ := max 1 (min config.tenantMaxConcurrency 256)

def replaceCycle (cycles : List Cycle) (slot : ℕ) (workspaceId : Uuid) : Option Phase → List Cycle
  | none => cycles.eraseIdx slot
  | some phase => cycles.set slot ⟨workspaceId, phase⟩

variable [DecidableEq ω]

def setWorker (s : Sys ω σ) (w : ω) (worker : Worker σ) (db : Db) : Sys ω σ :=
  ⟨db, Function.update s.workers w worker⟩

section SetWorker

variable (s : Sys ω σ) (w : ω) (worker : Worker σ) (db : Db)

@[simp] theorem setWorker_db : (setWorker s w worker db).db = db := rfl

@[simp] theorem setWorker_self : (setWorker s w worker db).workers w = worker :=
  Function.update_self _ _ _

theorem setWorker_of_ne {v : ω} (h : v ≠ w) : (setWorker s w worker db).workers v = s.workers v :=
  Function.update_of_ne h _ _

end SetWorker

def step (s : Sys ω σ) : SysAction ω ι γ → Option (Sys ω σ)
  | .request request => some { s with db := P.client.run request s.db }
  | .acquire w now env =>
      let worker := s.workers w
      if worker.waiting.isEmpty && worker.cycles.isEmpty then
        match acquireWorkspaces (P.config w) now env s.db with
        | (.ok assigned, db') => some (setWorker s w { worker with
            waiting := assigned
            leased := rememberPartitions (P.config w) assigned worker.leased } db')
        | (.error _, db') => some { s with db := db' }
      else none
  | .start w =>
      let worker := s.workers w
      match worker.waiting with
      | [] => none
      | workspaceId :: waiting =>
          if worker.cycles.length < tenantSlots (P.config w) then
            some (setWorker s w { worker with
              waiting := waiting
              cycles := worker.cycles ++ [⟨workspaceId, .leasing⟩] } s.db)
          else none
  | .cycle w slot action =>
      let worker := s.workers w
      match worker.cycles[slot]? with
      | none => none
      | some cycle =>
          match P.cycleStep (P.config w) cycle.workspaceId action cycle.phase worker.publisher s.db with
          | none => none
          | some (phase, publisher, db') =>
              some (setWorker s w { worker with
                cycles := replaceCycle worker.cycles slot cycle.workspaceId phase
                publisher := publisher } db')
  | .shutdown w env =>
      let worker := s.workers w
      if worker.waiting.isEmpty && worker.cycles.isEmpty then
        some (setWorker s w P.idleWorker
          (OutboxWorkerService.releasePartitions (P.config w) worker.leased env s.db).2)
      else none
  | .crash w => some (setWorker s w P.idleWorker s.db)

/-- What a step can do to the database and to the memory of the one worker that takes it. -/
inductive StepEffect (s : Sys ω σ) : SysAction ω ι γ → Sys ω σ → Prop
  | unchanged (action : SysAction ω ι γ) : StepEffect s action s
  | requested {request call db'} (hcall : P.client.call request = some call)
      (h : FreshCreate P.codec call s.db db') :
      StepEffect s (.request request) { s with db := db' }
  | acquired {w now env assigned db'}
      (hidle : (s.workers w).waiting = [] ∧ (s.workers w).cycles = [])
      (h : acquireWorkspaces (P.config w) now env s.db = (.ok assigned, db')) :
      StepEffect s (.acquire w now env) (setWorker s w { s.workers w with
        waiting := assigned
        leased := rememberPartitions (P.config w) assigned (s.workers w).leased } db')
  | started {w workspaceId waiting} (h : (s.workers w).waiting = workspaceId :: waiting) :
      StepEffect s (.start w) (setWorker s w { s.workers w with
        waiting := waiting
        cycles := (s.workers w).cycles ++ [⟨workspaceId, .leasing⟩] } s.db)
  | cycled {w slot action cycle phase' publisher' db'}
      (hcycle : (s.workers w).cycles[slot]? = some cycle)
      (h : P.CycleEffect (P.config w) cycle.workspaceId action cycle.phase (s.workers w).publisher s.db
        phase' publisher' db') :
      StepEffect s (.cycle w slot action) (setWorker s w { s.workers w with
        cycles := replaceCycle (s.workers w).cycles slot cycle.workspaceId phase'
        publisher := publisher' } db')
  | shutDown (w : ω) (env : Env) :
      StepEffect s (.shutdown w env) (setWorker s w P.idleWorker
        (OutboxWorkerService.releasePartitions (P.config w) (s.workers w).leased env s.db).2)
  | crashed (w : ω) : StepEffect s (.crash w) (setWorker s w P.idleWorker s.db)

theorem step_effect {s t : Sys ω σ} {action : SysAction ω ι γ} (h : P.step s action = some t) :
    P.StepEffect s action t := by
  cases action with
  | request request =>
      cases h
      rcases P.client.run_cases request s.db with hsame | ⟨call, hcall, hfresh⟩
      · rw [hsame]
        exact .unchanged _
      · exact .requested hcall hfresh
  | acquire w now env =>
      simp only [step] at h
      split at h
      · next hidle =>
          simp only [Bool.and_eq_true, List.isEmpty_iff] at hidle
          cases hacquire : acquireWorkspaces (P.config w) now env s.db with
          | mk result db' =>
              rw [hacquire] at h
              cases result with
              | ok assigned =>
                  cases h
                  exact .acquired hidle hacquire
              | error e =>
                  cases h
                  rw [acquireWorkspaces_error hacquire]
                  exact .unchanged _
      · cases h
  | start w =>
      simp only [step] at h
      split at h
      · cases h
      · next workspaceId waiting hwaiting =>
          split_ifs at h
          cases h
          exact .started hwaiting
  | cycle w slot action =>
      simp only [step] at h
      split at h
      · cases h
      · next cycle hcycle =>
          split at h
          · cases h
          · next phase publisher db' hstep =>
              cases h
              exact .cycled hcycle (P.cycleStep_effect hstep)
  | shutdown w env =>
      simp only [step] at h
      split_ifs at h
      cases h
      exact .shutDown w env
  | crash w =>
      cases h
      exact .crashed w

section Memory

variable {P} {s t : Sys ω σ} {action : SysAction ω ι γ} {w : ω}

theorem mem_replaceCycle {cycles : List Cycle} {slot : ℕ} {workspaceId : Uuid}
    {phase : Option Phase} {c : Cycle} (h : c ∈ replaceCycle cycles slot workspaceId phase) :
    c ∈ cycles ∨ (c.workspaceId = workspaceId ∧ phase = some c.phase) := by
  cases phase with
  | none => exact Or.inl (List.mem_of_mem_eraseIdx h)
  | some phase =>
      rcases List.mem_or_eq_of_mem_set h with h | rfl
      · exact Or.inl h
      · exact Or.inr ⟨rfl, rfl⟩

/-- A worker is as before, has lost its memory, or has taken the step. -/
theorem workers_of_step (h : P.StepEffect s action t) (w : ω) :
    t.workers w = s.workers w ∨ t.workers w = P.idleWorker ∨
    (∃ now env assigned, action = .acquire w now env ∧
      acquireWorkspaces (P.config w) now env s.db = (.ok assigned, t.db) ∧
      t.workers w = { s.workers w with
        waiting := assigned
        leased := rememberPartitions (P.config w) assigned (s.workers w).leased }) ∨
    (∃ workspaceId waiting, (s.workers w).waiting = workspaceId :: waiting ∧
      t.workers w = { s.workers w with
        waiting := waiting
        cycles := (s.workers w).cycles ++ [⟨workspaceId, .leasing⟩] }) ∨
    ∃ slot act c₀ phase' publisher', action = .cycle w slot act ∧
      (s.workers w).cycles[slot]? = some c₀ ∧
      P.CycleEffect (P.config w) c₀.workspaceId act c₀.phase (s.workers w).publisher s.db phase'
        publisher' t.db ∧
      t.workers w = { s.workers w with
        cycles := replaceCycle (s.workers w).cycles slot c₀.workspaceId phase'
        publisher := publisher' } := by
  have hother {v : ω} {worker : Worker σ} {db : Db} (hw : w ≠ v) :
      (setWorker s v worker db).workers w = s.workers w := setWorker_of_ne _ _ _ _ hw
  cases h with
  | unchanged => exact Or.inl rfl
  | requested => exact Or.inl rfl
  | @acquired v now env assigned db' hidle hacquire =>
      by_cases hw : w = v
      · subst hw
        exact Or.inr (Or.inr (Or.inl ⟨now, env, assigned, rfl, hacquire, setWorker_self _ _ _ _⟩))
      · exact Or.inl (hother hw)
  | @started v workspaceId waiting hwaiting =>
      by_cases hw : w = v
      · subst hw
        exact Or.inr (Or.inr (Or.inr (Or.inl
          ⟨workspaceId, waiting, hwaiting, setWorker_self _ _ _ _⟩)))
      · exact Or.inl (hother hw)
  | @cycled v slot act c₀ phase' publisher' db' hcycle heffect =>
      by_cases hw : w = v
      · subst hw
        exact Or.inr (Or.inr (Or.inr (Or.inr
          ⟨slot, act, c₀, phase', publisher', rfl, hcycle, heffect, setWorker_self _ _ _ _⟩)))
      · exact Or.inl (hother hw)
  | shutDown v env =>
      by_cases hw : w = v
      · subst hw
        exact Or.inr (Or.inl (setWorker_self _ _ _ _))
      · exact Or.inl (hother hw)
  | crashed v =>
      by_cases hw : w = v
      · subst hw
        exact Or.inr (Or.inl (setWorker_self _ _ _ _))
      · exact Or.inl (hother hw)

/-- A cycle was there before, has just started, or has just made a step. -/
theorem mem_cycles_of_step (h : P.StepEffect s action t) {c : Cycle}
    (hc : c ∈ (t.workers w).cycles) :
    c ∈ (s.workers w).cycles ∨
    (c.phase = .leasing ∧ c.workspaceId ∈ (s.workers w).waiting) ∨
    ∃ slot act c₀ publisher', action = .cycle w slot act ∧
      (s.workers w).cycles[slot]? = some c₀ ∧ c₀.workspaceId = c.workspaceId ∧
      P.CycleEffect (P.config w) c.workspaceId act c₀.phase (s.workers w).publisher s.db
        (some c.phase) publisher' t.db := by
  rcases workers_of_step h w with hw | hw | ⟨_, _, _, _, _, hw⟩ | ⟨workspaceId, waiting, hwaiting, hw⟩ |
    ⟨slot, act, c₀, phase', publisher', hact, hcycle, heffect, hw⟩
  · exact Or.inl (hw ▸ hc)
  · rw [hw] at hc
    cases hc
  · rw [hw] at hc
    exact Or.inl hc
  · rw [hw] at hc
    rcases List.mem_append.mp hc with hc | hc
    · exact Or.inl hc
    · rw [List.mem_singleton.mp hc]
      exact Or.inr (Or.inl ⟨rfl, by rw [hwaiting]; exact List.mem_cons_self⟩)
  · rw [hw] at hc
    rcases mem_replaceCycle hc with hc | ⟨hid, hphase⟩
    · exact Or.inl hc
    · rw [← hid, hphase] at heffect
      exact Or.inr (Or.inr ⟨slot, act, c₀, publisher', hact, hcycle, hid.symm, heffect⟩)

/-- A waiting workspace was there before, or has just been acquired. -/
theorem mem_waiting_of_step (h : P.StepEffect s action t) {workspaceId : Uuid}
    (hx : workspaceId ∈ (t.workers w).waiting) :
    workspaceId ∈ (s.workers w).waiting ∨
    ∃ now env assigned, action = .acquire w now env ∧ workspaceId ∈ assigned ∧
      acquireWorkspaces (P.config w) now env s.db = (.ok assigned, t.db) := by
  rcases workers_of_step h w with hw | hw | ⟨now, env, assigned, hact, hacquire, hw⟩ |
    ⟨x, waiting, hwaiting, hw⟩ | ⟨_, _, _, _, _, _, _, _, hw⟩
  · exact Or.inl (hw ▸ hx)
  · rw [hw] at hx
    cases hx
  · rw [hw] at hx
    exact Or.inr ⟨now, env, assigned, hact, hx, hacquire⟩
  · rw [hw] at hx
    rw [hwaiting]
    exact Or.inl (List.mem_cons_of_mem _ hx)
  · rw [hw] at hx
    exact Or.inl hx

end Memory

/-- What a step can do to the database. -/
inductive DbEffect (s : Sys ω σ) : SysAction ω ι γ → Db → Prop
  | leases (action : SysAction ω ι γ) (leases : Table PartitionLeaseRow.workspaceId unchecked) :
      DbEffect s action { s.db with partitionLeases := leases }
  | created {request call db'} (hcall : P.client.call request = some call)
      (h : FreshCreate P.codec call s.db db') : DbEffect s (.request request) db'
  | leased {w slot now leaseToken env call batch db'}
      (h : leaseOutboxBatch P.codec call env s.db = (.ok batch, db')) :
      DbEffect s (.cycle w slot (.lease now leaseToken env)) db'
  | applied {w slot reading cycle message outcome rest db'}
      (hcycle : (s.workers w).cycles[slot]? = some cycle)
      (hphase : cycle.phase = .processing [] ((message, outcome) :: rest))
      (h : (outcomeMark (P.config w) (tenantAuth (P.config w) cycle.workspaceId) message outcome
        reading).run P.codec reading.env s.db = (.ok (), db')) :
      DbEffect s (.cycle w slot (.apply reading)) db'
  | cleanedOutbox {w slot deliveredNow deadLetterNow env}
      (workspaceId : Uuid) (deliveredBefore deadLetterBefore : Timestamp) :
      DbEffect s (.cycle w slot (.cleanOutbox deliveredNow deadLetterNow env))
        { s.db with outbox := s.db.outbox.filter (fun r =>
            !isExpiredOutbox workspaceId deliveredBefore deadLetterBefore r) }
  | cleanedIdempotency {w slot now env} (workspaceId : Uuid) (expiresBefore : Timestamp) :
      DbEffect s (.cycle w slot (.cleanIdempotency now env))
        { s.db with idempotencyRecords := s.db.idempotencyRecords.filter (fun r =>
            !isExpiredRecord workspaceId expiresBefore r) }

variable {P} in
theorem db_of_step {s t : Sys ω σ} {action : SysAction ω ι γ} (h : P.StepEffect s action t) :
    P.DbEffect s action t.db := by
  cases h with
  | unchanged => exact .leases _ s.db.partitionLeases
  | requested hcall hfresh => exact .created hcall hfresh
  | acquired hidle hacquire =>
      obtain ⟨leases, rfl⟩ := acquireWorkspaces_db hacquire
      exact .leases _ leases
  | started => exact .leases _ s.db.partitionLeases
  | @cycled w slot action cycle phase' publisher' db' hcycle heffect =>
      rw [setWorker_db]
      obtain ⟨workspaceId, phase⟩ := cycle
      cases heffect with
      | failed => exact .leases _ s.db.partitionLeases
      | leased hlease => exact .leased hlease
      | dispatched => exact .leases _ s.db.partitionLeases
      | applied happly => exact .applied hcycle rfl happly
      | cleanedOutbox => exact .cleanedOutbox _ _ _
      | cleanedIdempotency => exact .cleanedIdempotency _ _
  | shutDown w env =>
      rw [setWorker_db]
      rcases OutboxWorkerService.releasePartitions_cases (P.config w) (s.workers w).leased env s.db
        with hdb | hdb
      · rw [hdb]
        exact .leases _ s.db.partitionLeases
      · rcases PartitionRepository.releasePartitions_cases (P.config w).workerInstanceId
          (s.workers w).leased env s.db with
          ⟨_, hrelease, _⟩ | ⟨_, hrelease⟩
        · rw [hdb, hrelease]
          exact .leases _ s.db.partitionLeases
        · rw [hdb, hrelease]
          exact .leases _ _
  | crashed => exact .leases _ s.db.partitionLeases

abbrev Exec : Sys ω σ → List (SysAction ω ι γ) → Sys ω σ → Prop := Run P.step

end Program
end Dandori
