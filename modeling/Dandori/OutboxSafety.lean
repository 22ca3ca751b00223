import Dandori.IdempotentCreate
import Dandori.WorkerSystem

/-!
# The life of an outbox row

A row keeps the columns its create wrote from the transaction that committed it until a cleanup
removes it, and a cleanup removes only rows that are delivered or dead. A row becomes delivered after
a dispatch of its message succeeded, and dead by the mark of a failure that is terminal or exhausts the
attempts. A delivered or dead row does not change any more.

`OutboxEffect` lists what a step of the system can do to the outbox table; the rest is read off it.
-/

namespace Dandori

open IssueRepository OutboxRepository OutboxWorkerService

namespace OutboxRow

def terminal (r : OutboxRow) : Prop := r.status = .delivered ∨ r.status = .deadLetter

/-- The row with the columns blanked that record its delivery. -/
def event (r : OutboxRow) : OutboxRow :=
  { r with
    attempts := 0
    availableAt := 0
    status := .pending
    leasedAt := none
    leasedUntil := none
    leaseToken := none
    leaseOwner := none
    publishedAt := none
    lastError := none
    updatedAt := 0 }

@[simp] theorem event_id (r : OutboxRow) : r.event.id = r.id := rfl

end OutboxRow

namespace OutboxRepository

theorem isCandidate_not_terminal {workspaceId : Uuid} {now : Timestamp} {r : OutboxRow}
    (h : isCandidate workspaceId now r = true) : ¬r.terminal := by
  simp only [isCandidate, Bool.and_eq_true, Bool.or_eq_true, decide_eq_true_eq] at h
  rintro (hstatus | hstatus) <;> simp [hstatus] at h

theorem heldBy_not_terminal {token owner : Uuid} {now : Timestamp} {r : OutboxRow}
    (h : heldBy token owner now r = true) : ¬r.terminal := by
  simp only [heldBy, Bool.and_eq_true, decide_eq_true_eq] at h
  rintro (hstatus | hstatus) <;> simp [hstatus] at h

theorem isExpiredOutbox_terminal {workspaceId : Uuid} {deliveredBefore deadLetterBefore : Timestamp}
    {r : OutboxRow} (h : isExpiredOutbox workspaceId deliveredBefore deadLetterBefore r = true) :
    r.terminal := by
  simp only [isExpiredOutbox, Bool.and_eq_true, Bool.or_eq_true, decide_eq_true_eq] at h
  exact h.2.imp And.left And.left

theorem written_failedMark_event (auth : AuthContext) (outboxId : Uuid)
    (failure : OutboxFailureContext) (r : OutboxRow) :
    ((failedMark auth outboxId failure).written r).event = r.event := by
  rw [written_failedMark]
  split <;> rfl

/-- What a committed mark makes of the rows. -/
theorem LeaseTransition.row_of_run {codec : Codec} {mark : LeaseTransition} {env : Env} {db db' : Db}
    {x : Unit} (h : mark.run codec env db = (.ok x, db')) {r : OutboxRow} (hr : r ∈ db'.outbox) :
    r ∈ db.outbox ∨ ∃ r₀ ∈ db.outbox, r₀.id = mark.outboxId ∧ r = mark.written r₀ := by
  obtain ⟨y, hy, rfl⟩ := (mem_run_iff r h).mp hr
  by_cases hid : y.id = mark.outboxId
  · rw [if_pos hid]
    exact Or.inr ⟨y, hy, hid, rfl⟩
  · rw [if_neg hid]
    exact Or.inl hy

end OutboxRepository

namespace OutboxWorkerService

theorem written_outcomeMark_event (config : OutboxWorkerConfig) (auth : AuthContext)
    (message : OutboxMessage) (outcome : Except PublishError Unit) (reading : MarkEnv)
    (r : OutboxRow) :
    ((outcomeMark config auth message outcome reading).written r).event = r.event := by
  cases outcome with
  | ok _ => rfl
  | error error => exact written_failedMark_event _ _ _ r

theorem written_outcomeMark_status (config : OutboxWorkerConfig) (auth : AuthContext)
    (message : OutboxMessage) (outcome : Except PublishError Unit) (reading : MarkEnv)
    (r : OutboxRow) : ((outcomeMark config auth message outcome reading).written r).status =
      match outcome with
      | .ok () => .delivered
      | .error error =>
          if (failureContext config message error reading).deadLetterNow r.attempts then .deadLetter
          else .failed := by
  cases outcome with
  | ok _ => rfl
  | error error => exact written_failedMark_status _ _ _ r

end OutboxWorkerService

namespace Program

variable {ω σ ι γ : Type} [DecidableEq ω]

def IsCleanup (action : SysAction ω ι γ) : Prop :=
  ∃ w slot deliveredNow deadLetterNow env,
    action = .cycle w slot (.cleanOutbox deliveredNow deadLetterNow env)

section Step

variable {P : Program ω σ ι γ} {s t : Sys ω σ} {action : SysAction ω ι γ} {r : OutboxRow}

/-- A step keeps the event of a row, and the whole row once it is terminal, or it is a cleanup of a
terminal row. -/
theorem row_kept_or_cleaned (h : P.step s action = some t) (hr : r ∈ s.db.outbox) :
    (∃ r' ∈ t.db.outbox, r'.event = r.event ∧ (r.terminal → r' = r)) ∨
      (IsCleanup action ∧ r.terminal ∧ ∀ x ∈ t.db.outbox, x.id ≠ r.id) := by
  have heffect := db_of_step (P.step_effect h)
  generalize t.db = db' at heffect
  cases heffect with
  | leases => exact Or.inl ⟨r, hr, rfl, fun _ => rfl⟩
  | created _ hfresh =>
      have hmem : r ∈ db'.outbox := ((Table.insert?_eq_some hfresh.outbox).2.2 r).mpr (Or.inr hr)
      exact Or.inl ⟨r, hmem, rfl, fun _ => rfl⟩
  | leased hlease =>
      obtain ⟨ids, v, rfl, hids, hv⟩ := leaseOutboxBatch_ok hlease
      left
      by_cases hid : r.id ∈ ids
      · refine ⟨_, (hv _).mpr ⟨r, hr, rfl⟩, ?_, fun hterminal => ?_⟩
        · rw [if_pos hid]
          rfl
        · exact absurd hterminal (isCandidate_not_terminal (hids r hr hid))
      · exact ⟨r, (hv r).mpr ⟨r, hr, if_neg hid⟩, rfl, fun _ => rfl⟩
  | @applied w slot reading cycle message outcome rest db' _ _ hrun =>
      left
      obtain ⟨_, _, r₀, hr₀, hguard, _⟩ := LeaseTransition.run_eq_ok.mp hrun
      obtain ⟨_, hid₀, hheld⟩ := LeaseTransition.guard_iff.mp hguard
      by_cases hid : r.id = message.id
      · refine ⟨_, LeaseTransition.written_mem hrun hr (by simpa using hid), ?_, fun hterminal => ?_⟩
        · exact written_outcomeMark_event _ _ _ _ _ r
        · have hrr₀ : r = r₀ := Table.eq_of_key_eq hr hr₀ (hid.trans (by simpa using hid₀.symm))
          rw [hrr₀] at hterminal
          exact absurd hterminal (heldBy_not_terminal hheld)
      · have hmem : r ∈ db'.outbox := (LeaseTransition.mem_run_of_ne hrun (by simpa using hid)).mpr hr
        exact ⟨r, hmem, rfl, fun _ => rfl⟩
  | @cleanedOutbox w slot deliveredNow deadLetterNow env workspaceId deliveredBefore
      deadLetterBefore =>
      cases hexpired : isExpiredOutbox workspaceId deliveredBefore deadLetterBefore r with
      | false =>
          exact Or.inl ⟨r, Table.mem_filter.mpr ⟨hr, by rw [hexpired]; rfl⟩, rfl, fun _ => rfl⟩
      | true =>
          refine Or.inr ⟨⟨_, _, _, _, _, rfl⟩, isExpiredOutbox_terminal hexpired, ?_⟩
          intro x hx hid
          obtain ⟨hx, hkept⟩ := Table.mem_filter.mp hx
          rw [Table.eq_of_key_eq hx hr hid, hexpired] at hkept
          cases hkept
  | cleanedIdempotency => exact Or.inl ⟨r, hr, rfl, fun _ => rfl⟩

/-- A terminal row was there before, or the step is the mark that wrote it. -/
theorem terminal_of_step (h : P.step s action = some t) (hr : r ∈ t.db.outbox)
    (hterminal : r.terminal) :
    r ∈ s.db.outbox ∨
    ∃ w slot reading cycle message outcome rest, action = .cycle w slot (.apply reading) ∧
      (s.workers w).cycles[slot]? = some cycle ∧
      cycle.phase = .processing [] ((message, outcome) :: rest) ∧
      (outcomeMark (P.config w) (tenantAuth (P.config w) cycle.workspaceId) message outcome
        reading).run P.codec reading.env s.db = (.ok (), t.db) ∧
      ∃ r₀ ∈ s.db.outbox, r₀.id = message.id ∧
        r = (outcomeMark (P.config w) (tenantAuth (P.config w) cycle.workspaceId) message outcome
          reading).written r₀ := by
  have heffect := db_of_step (P.step_effect h)
  generalize t.db = db' at heffect hr
  cases heffect with
  | leases => exact Or.inl hr
  | created _ hfresh =>
      rcases ((Table.insert?_eq_some hfresh.outbox).2.2 r).mp hr with rfl | hr
      · rcases hterminal with hstatus | hstatus <;> cases hstatus
      · exact Or.inl hr
  | leased hlease =>
      rcases leaseOutboxBatch_row hlease hr with hold | ⟨_, _, _, rfl, _⟩
      · exact Or.inl hold
      · rcases hterminal with hstatus | hstatus <;> cases hstatus
  | applied hcycle hphase hrun =>
      rcases LeaseTransition.row_of_run hrun hr with hr | ⟨r₀, hr₀, hid, hwritten⟩
      · exact Or.inl hr
      · rw [outcomeMark_outboxId] at hid
        exact Or.inr ⟨_, _, _, _, _, _, _, rfl, hcycle, hphase, hrun, r₀, hr₀, hid, hwritten⟩
  | cleanedOutbox => exact Or.inl (Table.mem_filter.mp hr).1
  | cleanedIdempotency => exact Or.inl hr

end Step

/-! ## Whole runs -/

variable (P : Program ω σ ι γ)

/-- The publish that an action makes, with its outcome. -/
def dispatchOf (s : Sys ω σ) : SysAction ω ι γ → Option (OutboxMessage × Except PublishError Unit)
  | .cycle w slot (.dispatch index remote) => do
      let cycle ← (s.workers w).cycles[slot]?
      match cycle.phase with
      | .processing pending _ =>
          let message ← pending[index]?
          let outcome := P.registry.dispatch (P.publisher remote) message (s.workers w).publisher
          return (message, outcome.1)
      | _ => none
  | _ => none

/-- A step of the run `as` from `s` published the row `outboxId` successfully. -/
def Published (s : Sys ω σ) (as : List (SysAction ω ι γ)) (outboxId : Uuid) : Prop :=
  ∃ xs a ys t message, as = xs ++ a :: ys ∧ P.Exec s xs t ∧
    P.dispatchOf t a = some (message, .ok ()) ∧ message.id = outboxId

/-- A cleanup step of the run `as` from `s` deleted the row `r`. -/
def CleansUp (s : Sys ω σ) (as : List (SysAction ω ι γ)) (r : OutboxRow) : Prop :=
  ∃ xs a ys t u, as = xs ++ a :: ys ∧ P.Exec s xs t ∧ P.step t a = some u ∧ IsCleanup a ∧
    r ∈ t.db.outbox ∧ ∀ x ∈ u.db.outbox, x.id ≠ r.id

/-- The step from `s` to `t` is a `mark_outbox_failed` of the row `r`, with cause to give it up. -/
def GivesUp (s : Sys ω σ) (action : SysAction ω ι γ) (t : Sys ω σ) (r : OutboxRow) : Prop :=
  ∃ w slot reading cycle message error rest r₀, action = .cycle w slot (.apply reading) ∧
    (s.workers w).cycles[slot]? = some cycle ∧
    cycle.phase = .processing [] ((message, .error error) :: rest) ∧
    message.id = r.id ∧ r₀ ∈ s.db.outbox ∧ r₀.id = r.id ∧
    let failure := failureContext (P.config w) message error reading
    markOutboxFailed P.codec (tenantAuth (P.config w) cycle.workspaceId) r.id failure reading.env
        s.db = (.ok (), t.db) ∧
      (failure.classification = .terminal ∨ failure.maxAttempts.toInt ≤ r₀.attempts.toInt + 1)

/-- No event is lost and no terminal status is unearned, in any run from `s₀`. -/
structure OutboxSafe (s₀ : Sys ω σ) : Prop where
  kept : ∀ pre s as t, P.Exec s₀ pre s → P.Exec s as t → ∀ r ∈ s.db.outbox,
    (∃ r' ∈ t.db.outbox, r'.event = r.event) ∨
      ∃ r', r'.event = r.event ∧ r'.terminal ∧ P.CleansUp s as r'
  delivered : ∀ as s, P.Exec s₀ as s → ∀ r ∈ s.db.outbox, r.status = .delivered →
    P.Published s₀ as r.id
  deadLettered : ∀ pre s a t, P.Exec s₀ pre s → P.step s a = some t → ∀ r ∈ t.db.outbox,
    r.status = .deadLetter → r ∈ s.db.outbox ∨ P.GivesUp s a t r
  settled : ∀ pre s as t, P.Exec s₀ pre s → P.Exec s as t → ∀ r ∈ s.db.outbox, r.terminal →
    r ∈ t.db.outbox ∨ P.CleansUp s as r

section Runs

variable {P} {s₀ s t : Sys ω σ} {as : List (SysAction ω ι γ)} {r : OutboxRow}

theorem kept_or_cleaned (h : P.Exec s as t) (hr : r ∈ s.db.outbox) :
    (∃ r' ∈ t.db.outbox, r'.event = r.event) ∨
      ∃ r', r'.event = r.event ∧ r'.terminal ∧ P.CleansUp s as r' := by
  have hstep : ∀ s a t, (∃ r' ∈ s.db.outbox, r'.event = r.event) → P.step s a = some t →
      (∃ r' ∈ t.db.outbox, r'.event = r.event) ∨ ∃ r' ∈ s.db.outbox, r'.event = r.event ∧
        r'.terminal ∧ IsCleanup a ∧ ∀ x ∈ t.db.outbox, x.id ≠ r'.id := by
    rintro s a t ⟨r', hr', hevent⟩ h
    rcases row_kept_or_cleaned h hr' with ⟨r'', hr'', hevent', _⟩ | ⟨hclean, hterminal, hgone⟩
    · exact Or.inl ⟨r'', hr'', hevent'.trans hevent⟩
    · exact Or.inr ⟨r', hr', hevent, hterminal, hclean, hgone⟩
  rcases Run.until_exit hstep h ⟨r, hr, rfl⟩ with
    hkept | ⟨xs, a, ys, v, w, has, hxs, _, ha, r', hr', hevent, hterminal, hclean, hgone⟩
  · exact Or.inl hkept
  · exact Or.inr ⟨r', hevent, hterminal, xs, a, ys, v, w, has, hxs, ha, hclean, hr', hgone⟩

theorem settled_or_cleaned (h : P.Exec s as t) (hr : r ∈ s.db.outbox) (hterminal : r.terminal) :
    r ∈ t.db.outbox ∨ P.CleansUp s as r := by
  have hstep : ∀ s a t, r ∈ s.db.outbox → P.step s a = some t →
      r ∈ t.db.outbox ∨ (r ∈ s.db.outbox ∧ IsCleanup a ∧ ∀ x ∈ t.db.outbox, x.id ≠ r.id) := by
    intro s a t hr h
    rcases row_kept_or_cleaned h hr with ⟨r', hr', _, hsame⟩ | ⟨hclean, _, hgone⟩
    · rw [hsame hterminal] at hr'
      exact Or.inl hr'
    · exact Or.inr ⟨hr, hclean, hgone⟩
  rcases Run.until_exit hstep h hr with
    hkept | ⟨xs, a, ys, v, w, has, hxs, _, ha, hr', hclean, hgone⟩
  · exact Or.inl hkept
  · exact Or.inr ⟨xs, a, ys, v, w, has, hxs, ha, hclean, hr', hgone⟩

theorem givesUp_of_deadLetter {a : SysAction ω ι γ} (h : P.step s a = some t)
    (hr : r ∈ t.db.outbox) (hstatus : r.status = .deadLetter) :
    r ∈ s.db.outbox ∨ P.GivesUp s a t r := by
  rcases terminal_of_step h hr (Or.inr hstatus) with
    hr | ⟨w, slot, reading, cycle, message, outcome, rest, ha, hcycle, hphase, hrun, r₀, hr₀, hid,
      rfl⟩
  · exact Or.inl hr
  · cases outcome with
    | ok _ => cases hstatus
    | error error =>
        have hdead : (failureContext (P.config w) message error reading).deadLetterNow
            r₀.attempts = true := by
          by_contra hnot
          rw [written_outcomeMark_status] at hstatus
          simp only [if_neg hnot] at hstatus
          cases hstatus
        have hwid := LeaseTransition.written_id
          (outcomeMark (P.config w) (tenantAuth (P.config w) cycle.workspaceId) message
            (.error error) reading) r₀
        refine Or.inr ⟨w, slot, reading, cycle, message, error, rest, r₀, ha, hcycle, hphase,
          hid.symm.trans hwid.symm, hr₀, hwid.symm, ?_,
          OutboxFailureContext.toInt_le_of_deadLetterNow hdead⟩
        rw [hwid, hid]
        exact hrun

theorem Published.append {outboxId : Uuid} {bs : List (SysAction ω ι γ)}
    (h : P.Published s as outboxId) : P.Published s (as ++ bs) outboxId := by
  obtain ⟨xs, a, ys, t, message, rfl, hrest⟩ := h
  exact ⟨xs, a, ys ++ bs, t, message, by simp, hrest⟩

/-- What the memory of the workers knows: a success waiting to be marked has happened. -/
def SuccessesPublished (P : Program ω σ ι γ) (s₀ : Sys ω σ) (as : List (SysAction ω ι γ))
    (s : Sys ω σ) : Prop :=
  ∀ w, ∀ c ∈ (s.workers w).cycles, ∀ pending completed, c.phase = .processing pending completed →
    ∀ message, (message, .ok ()) ∈ completed → P.Published s₀ as message.id

theorem SuccessesPublished.step {a : SysAction ω ι γ} (hinv : SuccessesPublished P s₀ as s)
    (hrun : P.Exec s₀ as s) (h : P.step s a = some t) : SuccessesPublished P s₀ (as ++ [a]) t := by
  intro w c hc pending completed hphase message hmessage
  rcases mem_cycles_of_step (P.step_effect h) hc with
    hc | ⟨hleasing, _⟩ | ⟨slot, act, c₀, publisher', rfl, hcycle, _, heffect⟩
  · exact (hinv w c hc pending completed hphase message hmessage).append
  · rw [hleasing] at hphase
    cases hphase
  · have hold := hinv w c₀ (List.mem_of_getElem? hcycle)
    rw [hphase] at heffect
    generalize hphase₀ : c₀.phase = phase₀ at heffect
    generalize t.db = db' at heffect
    cases heffect with
    | leased => cases hmessage
    | @dispatched index remote pending₀ completed₀ _ _ sent outcome _ hsent hdispatch =>
        rcases List.mem_append.mp hmessage with hmessage | hmessage
        · exact (hold _ _ hphase₀ message hmessage).append
        · obtain ⟨rfl, rfl⟩ := Prod.mk.inj (List.mem_singleton.mp hmessage)
          refine ⟨as, _, [], s, message, rfl, hrun, ?_, rfl⟩
          simp only [dispatchOf, hcycle, hphase₀, hsent, hdispatch, Option.bind_eq_bind,
            Option.bind_some]
          rfl
    | applied =>
        exact (hold _ _ hphase₀ message (List.mem_cons_of_mem _ hmessage)).append

/-- The history invariant behind `delivered`. -/
structure DeliveriesEarned (P : Program ω σ ι γ) (s₀ : Sys ω σ) (as : List (SysAction ω ι γ))
    (s : Sys ω σ) : Prop where
  exec : P.Exec s₀ as s
  successes : SuccessesPublished P s₀ as s
  delivered : ∀ r ∈ s.db.outbox, r.status = .delivered → P.Published s₀ as r.id

theorem DeliveriesEarned.step {a : SysAction ω ι γ} (hinv : DeliveriesEarned P s₀ as s)
    (h : P.step s a = some t) : DeliveriesEarned P s₀ (as ++ [a]) t := by
  refine ⟨hinv.exec.append (.single h), hinv.successes.step hinv.exec h, fun r hr hstatus => ?_⟩
  rcases terminal_of_step h hr (Or.inl hstatus) with
    hr | ⟨w, slot, reading, cycle, message, outcome, rest, rfl, hcycle, hphase, _, r₀, _, hid, rfl⟩
  · exact (hinv.delivered r hr hstatus).append
  · rw [LeaseTransition.written_id, hid]
    cases outcome with
    | ok _ =>
        have hpublished := hinv.successes w cycle (List.mem_of_getElem? hcycle) _ _ hphase message
          List.mem_cons_self
        exact hpublished.append
    | error error =>
        rw [written_outcomeMark_status] at hstatus
        dsimp only at hstatus
        split at hstatus <;> cases hstatus

theorem deliveriesEarned_of_exec {db : Db} (hdb : ∀ r ∈ db.outbox, r.status ≠ .delivered)
    (h : P.Exec (P.initial db) as s) : DeliveriesEarned P (P.initial db) as s := by
  have hinit : DeliveriesEarned P (P.initial db) [] (P.initial db) :=
    ⟨.nil _, fun w c hc => (List.not_mem_nil hc).elim, fun r hr hstatus => absurd hstatus (hdb r hr)⟩
  exact Run.history (fun _ _ _ _ hinv ha => hinv.step ha) h hinit

end Runs

/-- No event is lost and no terminal status is unearned, in any run of clients and workers. -/
theorem outbox_safe {db : Db} (hdb : ∀ r ∈ db.outbox, r.status ≠ .delivered) :
    P.OutboxSafe (P.initial db) where
  kept _ _ _ _ _ h _ hr := kept_or_cleaned h hr
  delivered _ _ h := (deliveriesEarned_of_exec hdb h).delivered
  deadLettered _ _ _ _ _ h _ hr hstatus := givesUp_of_deadLetter h hr hstatus
  settled _ _ _ _ _ h _ hr hterminal := settled_or_cleaned h hr hterminal

/-! ## A row from its create to its delivery -/

def noopProgram : Program Unit Unit Unit (CreateIssueCall × Env) where
  codec := Codec.unary
  client := storeClient Codec.unary
  config _ := { OutboxWorkerConfig.default with workspaceIds := some [1] }
  registry := defaultRegistry Codec.unary
  publisher _ := noopOutboxPublisher
  idlePublisher := ()

def deliveryRun : List (SysAction Unit Unit (CreateIssueCall × Env)) :=
  [.request (retriedCall 4 0, .quiet), .acquire () 0 .quiet, .start (),
    .cycle () 0 (.lease 0 7 .quiet), .cycle () 0 (.dispatch 0 ()),
    .cycle () 0 (.apply ⟨.quiet, 1, 0⟩)]

theorem deliveryRun_delivers : ∃ s, noopProgram.Exec (noopProgram.initial projectDb) deliveryRun s ∧
    s.db.outbox.rows.map (fun r => (r.id, r.status)) = [(4, .delivered)] := by
  have hrows : (deliveryRun.foldlM noopProgram.step (noopProgram.initial projectDb)).map
      (fun s => s.db.outbox.rows.map (fun r => (r.id, r.status))) = some [(4, .delivered)] := by
    rfl
  obtain ⟨s, hs, hrows⟩ := Option.map_eq_some_iff.mp hrows
  exact ⟨s, Run.of_foldlM hs, hrows⟩

theorem outbox_safe_projectDb : (∀ r ∈ projectDb.outbox, r.status ≠ .delivered) ∧
    noopProgram.OutboxSafe (noopProgram.initial projectDb) ∧
    ∃ s, noopProgram.Exec (noopProgram.initial projectDb) deliveryRun s ∧
      ∃ r ∈ s.db.outbox, r.status = .delivered ∧
        noopProgram.Published (noopProgram.initial projectDb) deliveryRun r.id := by
  have hdb : ∀ r ∈ projectDb.outbox, r.status ≠ .delivered := by
    intro r hr
    cases hr
  have hsafe := noopProgram.outbox_safe hdb
  obtain ⟨s, hs, hrows⟩ := deliveryRun_delivers
  have hmem : ((4 : Uuid), OutboxStatus.delivered) ∈
      s.db.outbox.rows.map (fun r => (r.id, r.status)) := by
    rw [hrows]
    exact List.mem_cons_self
  obtain ⟨r, hr, hkey⟩ := List.mem_map.mp hmem
  have hstatus : r.status = .delivered := congrArg Prod.snd hkey
  exact ⟨hdb, hsafe, s, hs, r, hr, hstatus, hsafe.delivered _ s hs r hr hstatus⟩

end Program
end Dandori
