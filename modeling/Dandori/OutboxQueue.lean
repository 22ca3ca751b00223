import Dandori.ComponentRuns
import Dandori.DeliveryQueue
import Dandori.LeaseSelection
import Dandori.OutboxSafety
import Dandori.OutboxWellFormed

/-!
# The outbox is a queue of leased deliveries

A row of the outbox stands for an item of the delivery queue: its status, attempts and lease columns say
where the item is. What the clients and workers do to the database is a run of that queue in which each
row moves by itself: a create puts an item, a lease call takes the items of its batch under the pair of
token and owner, a mark acknowledges or fails one item, and the cleanup drops settled ones. The queue's
account of an item then holds of the row, whatever the interleaving.
-/

namespace Dandori

open DeliveryQueue Components IssueRepository OutboxRepository OutboxWorkerService

abbrev LeaseAct := Act (Uuid × Uuid) Timestamp

/-- The failures that a row records. -/
def OutboxRow.failures (r : OutboxRow) : ℕ := r.attempts.toInt.toNat

def OutboxRow.place (r : OutboxRow) : Place (Uuid × Uuid) Timestamp :=
  match r.status with
  | .pending => .ready r.failures r.availableAt
  | .failed => .ready r.failures r.availableAt
  | .leased => .held r.failures (r.leaseToken.getD 0, r.leaseOwner.getD 0) (r.leasedUntil.getD 0)
  | .delivered => .delivered r.failures
  | .deadLetter => .dead r.failures

def queueOf (db : Db) (outboxId : Uuid) : Option (Place (Uuid × Uuid) Timestamp) :=
  (db.outbox.find? outboxId).map OutboxRow.place

namespace OutboxRepository

def LeaseCall.act (call : LeaseCall) : LeaseAct :=
  .take call.now (call.leaseToken, call.auth.actorId) call.leaseUntil

def OutboxMark.act : OutboxMark → LeaseAct
  | delivered _ _ leaseToken leaseOwner now => .ack now (leaseToken, leaseOwner)
  | failed _ _ failure =>
      .fail failure.now (failure.leaseToken, failure.leaseOwner)
        (decide (failure.classification = .terminal)) (failure.now + failure.retryBackoff)

/-- The items that a lease call takes. -/
def leaseMoves (codec : Codec) (call : LeaseCall) (env : Env) (db : Db) : List (Uuid × LeaseAct) :=
  match (leaseOutboxBatch codec call env db).1 with
  | .ok batch => batch.map (fun m => (m.id, call.act))
  | .error _ => []

/-- The item that a mark settles or returns. -/
def markMoves (codec : Codec) (mark : OutboxMark) (env : Env) (db : Db) : List (Uuid × LeaseAct) :=
  match (mark.transition.run codec env db).1 with
  | .ok _ => [(mark.transition.outboxId, mark.act)]
  | .error _ => []

/-- The items that `db'` has and `db` has not. -/
def putMoves (db db' : Db) : List (Uuid × LeaseAct) :=
  (Table.added db.outbox db'.outbox).map (fun r => (r.id, .put r.availableAt))

/-- The items that `db` has and `db'` has not. -/
def dropMoves (db db' : Db) : List (Uuid × LeaseAct) :=
  (Table.added db'.outbox db.outbox).map (fun r => (r.id, .drop))

/-! ## One row -/

section Rows

variable {maxAttempts : Int32} {r : OutboxRow}

theorem place_leased {call : LeaseCall}
    (hcandidate : isCandidate call.auth.workspaceId call.now r = true) :
    step maxAttempts.toInt.toNat (some r.place) call.act = some (some (call.leased r).place) := by
  obtain ⟨_, ⟨hstatus | hstatus, hdue⟩ | ⟨hstatus, leasedUntil, huntil, hdue⟩⟩ :=
    isCandidate_iff.mp hcandidate
  · simp only [OutboxRow.place, hstatus, LeaseCall.act, step, if_pos hdue]
    rfl
  · simp only [OutboxRow.place, hstatus, LeaseCall.act, step, if_pos hdue]
    rfl
  · simp only [OutboxRow.place, hstatus, huntil, Option.getD_some, LeaseCall.act, step, if_pos hdue]
    rfl

theorem WellFormed.failures_add_one (h : WellFormed maxAttempts r) (hleased : r.status = .leased) :
    (r.attempts + 1).toInt.toNat = r.failures + 1 := by
  have hone := h.toInt_add_one hleased
  have hnonneg := Int32.le_iff_toInt_le.mp h.attempts.1
  have hzero : (0 : Int32).toInt = 0 := rfl
  rw [hone, OutboxRow.failures]
  omega

/-- The budget of the workers is the budget of the queue. -/
theorem WellFormed.spent_iff (h : WellFormed maxAttempts r) (hleased : r.status = .leased) :
    maxAttempts ≤ r.attempts + 1 ↔ maxAttempts.toInt.toNat ≤ r.failures + 1 := by
  have hone := h.toInt_add_one hleased
  have hnonneg := Int32.le_iff_toInt_le.mp h.attempts.1
  have hzero : (0 : Int32).toInt = 0 := rfl
  rw [Int32.le_iff_toInt_le, hone, OutboxRow.failures]
  omega

theorem place_of_guard {mark : LeaseTransition} (hguard : mark.guard r = true) :
    ∃ leasedUntil, mark.now < leasedUntil ∧
      r.place = .held r.failures (mark.leaseToken, mark.leaseOwner) leasedUntil := by
  obtain ⟨_, _, hheld⟩ := LeaseTransition.guard_iff.mp hguard
  simp only [heldBy, Bool.and_eq_true, decide_eq_true_eq, Option.any_eq_true] at hheld
  obtain ⟨⟨⟨hstatus, htoken⟩, howner⟩, leasedUntil, huntil, hlive⟩ := hheld
  refine ⟨leasedUntil, hlive, ?_⟩
  simp only [OutboxRow.place, hstatus, htoken, howner, huntil, Option.getD_some]

theorem place_marked {mark : OutboxMark} (h : WellFormed maxAttempts r)
    (hguard : mark.transition.guard r = true)
    (hbudget : ∀ env, (OutboxStep.outbox (.mark mark env)).Uses maxAttempts) :
    step maxAttempts.toInt.toNat (some r.place) mark.act =
      some (some (mark.transition.written r).place) := by
  obtain ⟨leasedUntil, hlive, hplace⟩ := place_of_guard hguard
  have hleased := status_of_guard hguard
  rw [hplace]
  cases mark with
  | delivered auth outboxId leaseToken leaseOwner now =>
      exact if_pos ⟨rfl, hlive⟩
  | failed auth outboxId failure =>
      have hmax : failure.maxAttempts = maxAttempts := hbudget .quiet
      have hfailures := h.failures_add_one hleased
      have hspent := h.spent_iff hleased
      have hstep : step maxAttempts.toInt.toNat (some (.held r.failures
          (failure.leaseToken, failure.leaseOwner) leasedUntil))
          (OutboxMark.failed auth outboxId failure).act = some (some (afterFailure
            maxAttempts.toInt.toNat (r.failures + 1)
            (decide (failure.classification = .terminal)) (failure.now + failure.retryBackoff))) :=
        if_pos ⟨rfl, hlive⟩
      refine hstep.trans (congrArg (fun p => some (some p)) ?_)
      change _ = ((failedMark auth outboxId failure).written r).place
      rw [written_failedMark, afterFailure]
      by_cases hdead : failure.deadLetterNow r.attempts = true
      · rw [if_pos hdead, if_pos]
        · rw [← hfailures]
          rfl
        · rw [← hspent, decide_eq_true_eq, ← hmax]
          simpa [OutboxFailureContext.deadLetterNow] using hdead
      · rw [if_neg hdead, if_neg]
        · rw [← hfailures]
          rfl
        · rw [← hspent, decide_eq_true_eq, ← hmax]
          simpa [OutboxFailureContext.deadLetterNow] using hdead

theorem place_dropped {workspaceId : Uuid} {deliveredBefore deadLetterBefore : Timestamp}
    (h : isExpiredOutbox workspaceId deliveredBefore deadLetterBefore r = true) (budget : ℕ) :
    step budget (some r.place) .drop = some none := by
  rcases isExpiredOutbox_terminal h with hstatus | hstatus
  · simp only [OutboxRow.place, hstatus]
    rfl
  · simp only [OutboxRow.place, hstatus]
    rfl

end Rows

/-! ## One statement -/

section Tables

variable {codec : Codec} {maxAttempts : Int32} {db db' : Db} {outboxId : Uuid} {r : OutboxRow}

theorem queueOf_of_mem (hr : r ∈ db.outbox) (hid : r.id = outboxId) :
    queueOf db outboxId = some r.place := by
  rw [queueOf, Table.find?_eq_some.mpr ⟨hr, hid⟩]
  rfl

theorem queueOf_of_notMem (h : ∀ r ∈ db.outbox, r.id ≠ outboxId) : queueOf db outboxId = none := by
  rw [queueOf, Table.find?_eq_none.mpr h]
  rfl

theorem queueOf_congr (h : db'.outbox = db.outbox) : queueOf db' = queueOf db := by
  unfold queueOf
  rw [h]

/-- The item has a row, or no row of it is there. -/
theorem row_or_none (db : Db) (outboxId : Uuid) :
    (∃ r ∈ db.outbox, r.id = outboxId) ∨ ∀ r ∈ db.outbox, r.id ≠ outboxId := by
  by_cases h : ∃ r ∈ db.outbox, r.id = outboxId
  · exact Or.inl h
  · exact Or.inr (fun r hr hid => h ⟨r, hr, hid⟩)

/-- A run of the queue from the items of one database to those of another. -/
abbrev QueueRun (maxAttempts : Int32) (db : Db) (moves : List (Uuid × LeaseAct)) (db' : Db) : Prop :=
  Run (stepAt (step maxAttempts.toInt.toNat)) (queueOf db) moves (queueOf db')

theorem queueRun_unchanged (h : db'.outbox = db.outbox) : QueueRun maxAttempts db [] db' := by
  rw [QueueRun, queueOf_congr h]
  exact .nil _

theorem queueRun_leased (call : LeaseCall) (env : Env) (db : Db) :
    QueueRun maxAttempts db (leaseMoves codec call env db) (leaseOutboxBatch codec call env db).2 := by
  rcases leaseOutboxBatch_cases codec call env db with ⟨e, he⟩ | ⟨ids, v, he, hids, hv⟩
  · rw [leaseMoves, he]
    exact queueRun_unchanged rfl
  · have hmoves : leaseMoves codec call env db =
        (db.outbox.rows.filter (fun r => decide (r.id ∈ ids))).map (fun r => (r.id, call.act)) := by
      rw [leaseMoves, he]
      exact List.map_map
    have hnodup : ((db.outbox.rows.filter (fun r => decide (r.id ∈ ids))).map OutboxRow.id).Nodup :=
      db.outbox.nodup_keys.sublist (List.filter_sublist.map OutboxRow.id)
    rw [hmoves, he, QueueRun, run_stepAt_iff]
    intro outboxId
    rcases row_or_none db outboxId with ⟨r, hr, rfl⟩ | hnone
    · rw [queueOf_of_mem hr rfl]
      by_cases hin : r.id ∈ ids
      · have hwritten : call.leased r ∈ ({ db with outbox := v } : Db).outbox :=
          (hv _).mpr ⟨r, hr, if_pos hin⟩
        have hplace : queueOf { db with outbox := v } r.id = some (call.leased r).place :=
          queueOf_of_mem hwritten rfl
        rw [hplace, actionsAt_map hnodup (List.mem_filter.mpr ⟨hr, decide_eq_true hin⟩)]
        exact .single (place_leased (hids r hr hin))
      · have hkept : r ∈ ({ db with outbox := v } : Db).outbox := (hv _).mpr ⟨r, hr, if_neg hin⟩
        rw [queueOf_of_mem (r := r) hkept rfl, actionsAt_map_of_notMem]
        · exact .nil _
        · intro hmem
          obtain ⟨x, hx, hid⟩ := List.mem_map.mp hmem
          rw [List.mem_filter, decide_eq_true_eq, hid] at hx
          exact hin hx.2
    · rw [queueOf_of_notMem hnone, queueOf_of_notMem, actionsAt_map_of_notMem]
      · exact .nil _
      · intro hmem
        obtain ⟨x, hx, hid⟩ := List.mem_map.mp hmem
        exact hnone x (List.mem_filter.mp hx).1 hid
      · intro x hx hid
        obtain ⟨y, hy, rfl⟩ := (hv x).mp hx
        refine hnone y hy ?_
        split_ifs at hid <;> exact hid

theorem queueRun_marked {mark : OutboxMark} (env : Env)
    (hrows : ∀ r ∈ db.outbox, WellFormed maxAttempts r)
    (hbudget : ∀ env, (OutboxStep.outbox (.mark mark env)).Uses maxAttempts) :
    QueueRun maxAttempts db (markMoves codec mark env db) (mark.transition.run codec env db).2 := by
  rcases LeaseTransition.run_cases codec mark.transition env db with
    ⟨e, he⟩ | ⟨y, hy, hguard, _, v, he, _⟩
  · rw [markMoves, he]
    exact queueRun_unchanged rfl
  · have hmoves : markMoves codec mark env db = [(mark.transition.outboxId, mark.act)] := by
      rw [markMoves, he]
    have hid := (LeaseTransition.guard_iff.mp hguard).2.1
    have hwritten := LeaseTransition.written_mem he hy hid
    rw [hmoves, he, QueueRun, ← hid, run_stepAt_iff]
    intro outboxId
    by_cases hsame : y.id = outboxId
    · subst hsame
      rw [queueOf_of_mem hy rfl, queueOf_of_mem hwritten (mark.transition.written_id y),
        actionsAt_cons_self (m := (y.id, mark.act))]
      exact .single (place_marked (hrows y hy) hguard hbudget)
    · rw [actionsAt_cons_of_ne hsame]
      have hother : ∀ x : OutboxRow, x.id = outboxId → (x ∈ v ↔ x ∈ db.outbox) := fun x hx =>
        LeaseTransition.mem_run_of_ne he (fun hxid => hsame (hid.trans (hxid.symm.trans hx)))
      rcases row_or_none db outboxId with ⟨r, hr, hrid⟩ | hnone
      · rw [queueOf_of_mem hr hrid, queueOf_of_mem (r := r) ((hother r hrid).mpr hr) hrid]
        exact .nil _
      · rw [queueOf_of_notMem hnone,
          queueOf_of_notMem (fun x hx hxid => hnone x ((hother x hxid).mp hx) hxid)]
        exact .nil _

theorem queueRun_created {call : CreateIssueCall} (hfresh : FreshCreate codec call db db') :
    QueueRun maxAttempts db (putMoves db db') db' := by
  have hmoves : putMoves db db' = [(call.generated.outboxId, .put call.event.occurredAt)] := by
    rw [putMoves, Table.added_of_insert? hfresh.outbox]
    rfl
  rw [hmoves, QueueRun, run_stepAt_iff]
  intro outboxId
  have hnew : ∀ r ∈ db.outbox, r.id ≠ call.generated.outboxId :=
    (Table.insert?_eq_some hfresh.outbox).2.1
  by_cases hsame : call.generated.outboxId = outboxId
  · subst hsame
    have hmem := ((Table.insert?_eq_some hfresh.outbox).2.2 _).mpr (Or.inl rfl)
    have hplace : queueOf db' call.generated.outboxId = some (outboxRow codec call).place :=
      queueOf_of_mem hmem rfl
    rw [queueOf_of_notMem hnew, hplace,
      actionsAt_cons_self (m := (call.generated.outboxId, Act.put call.event.occurredAt))]
    exact .single rfl
  · have hfind : db'.outbox.find? outboxId = db.outbox.find? outboxId :=
      (Table.find?_of_insert? hfresh.outbox outboxId).trans (if_neg (Ne.symm hsame))
    rw [actionsAt_cons_of_ne hsame, queueOf, queueOf, hfind]
    exact .nil _

theorem queueRun_cleaned (workspaceId : Uuid) (deliveredBefore deadLetterBefore : Timestamp)
    (h : db'.outbox = db.outbox.filter
      (fun r => !isExpiredOutbox workspaceId deliveredBefore deadLetterBefore r)) :
    QueueRun maxAttempts db (dropMoves db db') db' := by
  have hnodup : ((Table.added db'.outbox db.outbox).map OutboxRow.id).Nodup :=
    db.outbox.nodup_keys.sublist (List.filter_sublist.map OutboxRow.id)
  have hadded : ∀ r ∈ db.outbox, r ∈ Table.added db'.outbox db.outbox ↔ r ∉ db'.outbox := by
    intro r hr
    rw [Table.added, List.mem_filter, Option.isNone_iff_eq_none, Table.find?_eq_none]
    constructor
    · exact fun hgone hr' => hgone.2 r hr' rfl
    · refine fun hgone => ⟨hr, fun x hx hid => hgone ?_⟩
      rw [h, Table.mem_filter] at hx
      rwa [← Table.eq_of_key_eq hx.1 hr hid, h, Table.mem_filter]
  rw [dropMoves, QueueRun, run_stepAt_iff]
  intro outboxId
  rcases row_or_none db outboxId with ⟨r, hr, rfl⟩ | hnone
  · rw [queueOf_of_mem hr rfl]
    by_cases hkept : r ∈ db'.outbox
    · rw [queueOf_of_mem hkept rfl, actionsAt_map_of_notMem]
      · exact .nil _
      · intro hmem
        obtain ⟨x, hx, hid⟩ := List.mem_map.mp hmem
        have hxdb : x ∈ db.outbox := (List.mem_filter.mp hx).1
        have hgone := (hadded x hxdb).mp hx
        rw [Table.eq_of_key_eq hxdb hr hid] at hgone
        exact hgone hkept
    · have hexpired : isExpiredOutbox workspaceId deliveredBefore deadLetterBefore r = true := by
        rw [h, Table.mem_filter] at hkept
        simpa using fun hexp => hkept ⟨hr, hexp⟩
      rw [actionsAt_map hnodup ((hadded r hr).mpr hkept), queueOf_of_notMem]
      · exact .single (place_dropped hexpired _)
      · intro x hx hid
        refine hkept ?_
        rw [h, Table.mem_filter] at hx
        rwa [← Table.eq_of_key_eq hx.1 hr hid, h, Table.mem_filter]
  · rw [queueOf_of_notMem hnone, queueOf_of_notMem, actionsAt_map_of_notMem]
    · exact .nil _
    · intro hmem
      obtain ⟨x, hx, hid⟩ := List.mem_map.mp hmem
      exact hnone x (List.mem_filter.mp hx).1 hid
    · intro x hx hid
      rw [h, Table.mem_filter] at hx
      exact hnone x hx.1 hid

theorem putMoves_self (db : Db) : putMoves db db = [] := by
  rw [putMoves, Table.added_self]
  rfl

theorem dropMoves_self (db : Db) : dropMoves db db = [] := by
  rw [dropMoves, Table.added_self]
  rfl

theorem queueRun_cleanup (auth : AuthContext) (deliveredBefore deadLetterBefore : Timestamp)
    (env : Env) (db : Db) :
    QueueRun maxAttempts db
      (dropMoves db (cleanupOutbox codec auth deliveredBefore deadLetterBefore env db).2)
      (cleanupOutbox codec auth deliveredBefore deadLetterBefore env db).2 := by
  rcases cleanupOutbox_cases codec auth deliveredBefore deadLetterBefore env db with
    ⟨e, he⟩ | ⟨n, he⟩
  · rw [he, dropMoves_self]
    exact queueRun_unchanged rfl
  · rw [he]
    exact queueRun_cleaned auth.workspaceId deliveredBefore deadLetterBefore rfl

end Tables

end OutboxRepository

/-- The mark issued for a publish outcome. -/
def OutboxWorkerService.outcomeOutboxMark (config : OutboxWorkerConfig) (auth : AuthContext)
    (message : OutboxMessage) (outcome : Except PublishError Unit) (reading : MarkEnv) : OutboxMark :=
  match outcome with
  | .ok () => .delivered auth message.id message.leaseToken message.leaseOwner reading.now
  | .error error => .failed auth message.id (failureContext config message error reading)

theorem OutboxWorkerService.outcomeOutboxMark_transition (config : OutboxWorkerConfig)
    (auth : AuthContext) (message : OutboxMessage) (outcome : Except PublishError Unit)
    (reading : MarkEnv) : (outcomeOutboxMark config auth message outcome reading).transition =
      outcomeMark config auth message outcome reading := by
  cases outcome <;> rfl

theorem OutboxWorkerService.outcomeOutboxMark_uses (config : OutboxWorkerConfig)
    (auth : AuthContext) (message : OutboxMessage) (outcome : Except PublishError Unit)
    (reading : MarkEnv) (env : Env) :
    (OutboxStep.outbox (.mark (outcomeOutboxMark config auth message outcome reading) env)).Uses
      config.maxAttempts := by
  cases outcome with
  | ok _ => trivial
  | error error => rfl

namespace Program

variable {ω σ ι γ : Type}

/-- What a step of a cycle does to the queue. -/
def cycleMoves (codec : Codec) (config : OutboxWorkerConfig) (workspaceId : Uuid) :
    CycleAction ι → Phase → Db → List (Uuid × LeaseAct)
  | .lease now leaseToken env, .leasing, db =>
      leaseMoves codec (leaseCall config workspaceId now leaseToken) env db
  | .apply reading, .processing [] ((message, outcome) :: _), db =>
      markMoves codec
        (outcomeOutboxMark config (tenantAuth config workspaceId) message outcome reading) reading.env db
  | .cleanOutbox deliveredNow deadLetterNow env, .processing [] [], db =>
      dropMoves db (cleanTenantOutbox codec config workspaceId deliveredNow deadLetterNow env db).2
  | _, _, _ => []

/-- What a step of a client or worker does to the queue. -/
def moves (P : Program ω σ ι γ) (s : Sys ω σ) : SysAction ω ι γ → List (Uuid × LeaseAct)
  | .request request => putMoves s.db (P.client.run request s.db)
  | .cycle w slot action =>
      match (s.workers w).cycles[slot]? with
      | none => []
      | some cycle =>
          cycleMoves P.codec (P.config w) cycle.workspaceId action cycle.phase s.db
  | _ => []

/-- All workers allow the same number of attempts. -/
def SharesBudget (P : Program ω σ ι γ) (maxAttempts : Int32) : Prop :=
  ∀ w, (P.config w).maxAttempts = maxAttempts

section Steps

variable {P : Program ω σ ι γ} {maxAttempts : Int32}

theorem queueRun_of_cycleStep {config : OutboxWorkerConfig} {workspaceId : Uuid}
    {action : CycleAction ι} {phase : Phase} {publisher publisher' : σ} {db db' : Db}
    {phase' : Option Phase} (hmax : 1 ≤ maxAttempts) (hconfig : config.maxAttempts = maxAttempts)
    (hrows : ∀ r ∈ db.outbox, WellFormed maxAttempts r)
    (h : P.cycleStep config workspaceId action phase publisher db = some (phase', publisher', db')) :
    (∀ r ∈ db'.outbox, WellFormed maxAttempts r) ∧
      QueueRun maxAttempts db (cycleMoves P.codec config workspaceId action phase db) db' := by
  cases action with
  | lease now leaseToken env =>
      cases phase with
      | leasing =>
          have hdb : db' =
              (leaseOutboxBatch P.codec (leaseCall config workspaceId now leaseToken) env db).2 := by
            simp only [cycleStep] at h
            split at h
            · next heq =>
                cases h
                rw [heq]
            · next heq =>
                cases h
                rw [heq]
          rw [hdb]
          exact ⟨OutboxCall.wellFormed_run (c := .lease _ env) hmax trivial hrows,
            queueRun_leased _ env db⟩
      | processing pending completed => cases h
      | cleaning => cases h
  | dispatch index remote =>
      cases phase with
      | leasing => cases h
      | processing pending completed =>
          have hdb : db' = db := by
            simp only [cycleStep] at h
            split_ifs at h
            split at h <;> cases h
            rfl
          rw [hdb]
          exact ⟨hrows, queueRun_unchanged rfl⟩
      | cleaning => cases h
  | apply reading =>
      cases phase with
      | leasing => cases h
      | processing pending completed =>
          cases pending with
          | cons message pending => cases completed <;> cases h
          | nil =>
              cases completed with
              | nil => cases h
              | cons head rest =>
                  obtain ⟨message, outcome⟩ := head
                  have hdb : db' = ((outcomeOutboxMark config (tenantAuth config workspaceId) message
                      outcome reading).transition.run P.codec reading.env db).2 := by
                    rw [outcomeOutboxMark_transition, ← markOutcome_eq]
                    simp only [cycleStep] at h
                    split at h
                    · next heq =>
                        cases h
                        rw [heq]
                    · next heq =>
                        cases h
                        rw [heq]
                  have huses := outcomeOutboxMark_uses config (tenantAuth config workspaceId) message
                    outcome reading
                  rw [hconfig] at huses
                  refine ⟨?_, hdb ▸ queueRun_marked reading.env hrows huses⟩
                  rw [hdb, ← OutboxCall.run_mark]
                  exact OutboxCall.wellFormed_run hmax (huses _) hrows
      | cleaning => cases h
  | cleanOutbox deliveredNow deadLetterNow env =>
      cases phase with
      | leasing => cases h
      | processing pending completed =>
          cases pending with
          | cons message pending => cases completed <;> cases h
          | nil =>
              cases completed with
              | cons head rest => cases h
              | nil =>
                  have hdb : db' = (cleanTenantOutbox P.codec config workspaceId deliveredNow
                      deadLetterNow env db).2 := by
                    simp only [cycleStep] at h
                    split at h
                    · next heq =>
                        cases h
                        rw [heq]
                    · next heq =>
                        cases h
                        rw [heq]
                  have hkept := @OutboxStep.wellFormed_run P.codec maxAttempts db
                    (.cleanup (tenantAuth config workspaceId)
                      (deliveredNow - hours config.deliveredRetentionHours)
                      (deadLetterNow - hours config.deadLetterRetentionHours) env) hmax trivial hrows
                  rw [hdb]
                  exact ⟨hkept, queueRun_cleanup _ _ _ env db⟩
      | cleaning => cases h
  | cleanIdempotency now env =>
      cases phase with
      | leasing => cases h
      | processing pending completed => cases h
      | cleaning =>
          have hdb : db'.outbox = db.outbox := by
            simp only [cycleStep, cleanTenantIdempotency] at h
            cases h
            rcases cleanupIdempotency_cases P.codec (tenantAuth config workspaceId)
              (now - hours config.idempotencyRetentionHours) env db with ⟨e, he⟩ | ⟨n, he⟩
            · rw [he]
            · rw [he]
          rw [hdb]
          exact ⟨hrows, queueRun_unchanged hdb⟩

/-- Only clients and cycles touch the outbox. -/
theorem outbox_of_step [DecidableEq ω] {s t : Sys ω σ} {action : SysAction ω ι γ}
    (h : P.StepEffect s action t) (hrequest : ∀ request, action ≠ .request request)
    (hcycle : ∀ w slot act, action ≠ .cycle w slot act) : t.db.outbox = s.db.outbox := by
  have heffect := db_of_step h
  generalize t.db = db' at heffect ⊢
  cases heffect with
  | leases => rfl
  | created => exact absurd rfl (hrequest _)
  | leased => exact absurd rfl (hcycle _ _ _)
  | applied => exact absurd rfl (hcycle _ _ _)
  | cleanedOutbox => exact absurd rfl (hcycle _ _ _)
  | cleanedIdempotency => exact absurd rfl (hcycle _ _ _)

/-- A step moves the items of the queue as its moves say. -/
theorem queueRun_of_step [DecidableEq ω] {s t : Sys ω σ} {action : SysAction ω ι γ}
    (hmax : 1 ≤ maxAttempts) (hshared : P.SharesBudget maxAttempts)
    (hrows : ∀ r ∈ s.db.outbox, WellFormed maxAttempts r) (h : P.step s action = some t) :
    (∀ r ∈ t.db.outbox, WellFormed maxAttempts r) ∧
      QueueRun maxAttempts s.db (P.moves s action) t.db := by
  cases action with
  | request request =>
      cases h
      rcases P.client.run_cases request s.db with hsame | ⟨call, _, hfresh⟩
      · simp only [moves, hsame, putMoves_self]
        exact ⟨hrows, queueRun_unchanged rfl⟩
      · refine ⟨fun r hr => ?_, queueRun_created hfresh⟩
        rcases ((Table.insert?_eq_some hfresh.outbox).2.2 r).mp hr with rfl | hr
        · exact wellFormed_outboxRow hmax call
        · exact hrows r hr
  | cycle w slot action =>
      simp only [step] at h
      split at h
      · cases h
      · next cycle hcycle =>
          split at h
          · cases h
          · next phase publisher db' hstep =>
              cases h
              simp only [moves, hcycle]
              exact queueRun_of_cycleStep hmax (hshared w) hrows hstep
  | acquire w now env =>
      have hdb := outbox_of_step (P.step_effect h) (fun _ => by simp) (fun _ _ _ => by simp)
      exact ⟨hdb ▸ hrows, queueRun_unchanged hdb⟩
  | start w =>
      have hdb := outbox_of_step (P.step_effect h) (fun _ => by simp) (fun _ _ _ => by simp)
      exact ⟨hdb ▸ hrows, queueRun_unchanged hdb⟩
  | shutdown w env =>
      have hdb := outbox_of_step (P.step_effect h) (fun _ => by simp) (fun _ _ _ => by simp)
      exact ⟨hdb ▸ hrows, queueRun_unchanged hdb⟩
  | crash w =>
      have hdb := outbox_of_step (P.step_effect h) (fun _ => by simp) (fun _ _ _ => by simp)
      exact ⟨hdb ▸ hrows, queueRun_unchanged hdb⟩

end Steps

variable (P : Program ω σ ι γ) [DecidableEq ω]

variable {P} in
theorem queueRun_of_exec {maxAttempts : Int32} (hmax : 1 ≤ maxAttempts)
    (hshared : P.SharesBudget maxAttempts) {s t : Sys ω σ} {as : List (SysAction ω ι γ)}
    (hrows : ∀ r ∈ s.db.outbox, WellFormed maxAttempts r) (h : P.Exec s as t) :
    (∀ r ∈ t.db.outbox, WellFormed maxAttempts r) ∧
      QueueRun maxAttempts s.db (Run.trace P.step P.moves s as) t.db := by
  have hstep : ∀ (u : Sys ω σ) (a : SysAction ω ι γ) (v : Sys ω σ),
      (∀ r ∈ u.db.outbox, WellFormed maxAttempts r) → P.step u a = some v →
        (∀ r ∈ v.db.outbox, WellFormed maxAttempts r) ∧
          Run (stepAt (DeliveryQueue.step maxAttempts.toInt.toNat)) (queueOf u.db) (P.moves u a)
            (queueOf v.db) :=
    fun u a v hu hstep => queueRun_of_step hmax hshared hu hstep
  exact Run.simulates hstep h hrows

/-- Whatever the interleaving, the outbox goes through a run of the queue in which each row moves by
itself, as the steps of the clients and workers say. -/
theorem refines_queue (maxAttempts : Int32) (hmax : 1 ≤ maxAttempts)
    (hshared : P.SharesBudget maxAttempts) {s t : Sys ω σ} {as : List (SysAction ω ι γ)}
    (hrows : ∀ r ∈ s.db.outbox, WellFormed maxAttempts r) (h : P.Exec s as t) :
    QueueRun maxAttempts s.db (Run.trace P.step P.moves s as) t.db :=
  (queueRun_of_exec hmax hshared hrows h).2

/-- The row 4 is put, taken for 30 s under the token 7, and acknowledged. -/
theorem moves_deliveryRun :
    Run.trace noopProgram.step noopProgram.moves (noopProgram.initial projectDb) deliveryRun =
      [(4, .put 0), (4, .take 0 (7, 0) (seconds 30)), (4, .ack 1 (7, 0))] := by
  rfl

theorem refines_queue_deliveryRun : (1 : Int32) ≤ 5 ∧ noopProgram.SharesBudget 5 ∧
    (∀ r ∈ projectDb.outbox, WellFormed 5 r) ∧
    ∃ s, noopProgram.Exec (noopProgram.initial projectDb) deliveryRun s ∧
      QueueRun 5 projectDb
        [(4, .put 0), (4, .take 0 (7, 0) (seconds 30)), (4, .ack 1 (7, 0))] s.db := by
  have hmax : (1 : Int32) ≤ 5 := by decide
  have hshared : noopProgram.SharesBudget 5 := fun _ => rfl
  have hrows : ∀ r ∈ projectDb.outbox, WellFormed 5 r := by
    intro r hr
    cases hr
  obtain ⟨s, hs, _⟩ := deliveryRun_delivers
  have hrun := noopProgram.refines_queue 5 hmax hshared hrows hs
  rw [moves_deliveryRun] at hrun
  exact ⟨hmax, hshared, hrows, s, hs, hrun⟩

/-- What the acts on a row say about its columns. -/
structure RowAccount (maxAttempts : Int32) (acts : List LeaseAct) (r : OutboxRow) : Prop where
  follows : acts.IsChain Follows
  attempts : r.attempts.toInt = recorded acts
  pending : r.status = .pending → ∃ pre, acts = pre ++ [.put r.availableAt]
  leased : r.status = .leased → ∃ pre now token owner till, r.leaseToken = some token ∧
    r.leaseOwner = some owner ∧ r.leasedUntil = some till ∧
      acts = pre ++ [.take now (token, owner) till]
  failed : r.status = .failed → r.attempts < maxAttempts ∧ ∃ pre taken key till now, now < till ∧
    acts = pre ++ [.take taken key till] ++ [.fail now key false r.availableAt]
  delivered : r.status = .delivered → r.attempts < maxAttempts ∧
    ∃ pre taken key till now, now < till ∧
      acts = pre ++ [.take taken key till] ++ [.ack now key]
  deadLetter : r.status = .deadLetter → ∃ pre taken key till now final due, now < till ∧
    (final = true ∨ r.attempts = maxAttempts) ∧
      acts = pre ++ [.take taken key till] ++ [.fail now key final due]

theorem rowAccount_of_accounts {maxAttempts : Int32} {acts : List LeaseAct} {r : OutboxRow}
    (hrow : WellFormed maxAttempts r)
    (h : Accounts maxAttempts.toInt.toNat acts (some r.place)) : RowAccount maxAttempts acts r := by
  have hnonneg := Int32.le_iff_toInt_le.mp hrow.attempts.1
  have hzero : (0 : Int32).toInt = 0 := rfl
  have hunit : (1 : Int32).toInt = 1 := rfl
  have hfailures : (r.failures : ℤ) = r.attempts.toInt := by
    rw [OutboxRow.failures]
    omega
  have hends := h.ends
  refine ⟨h.follows, ?_, ?_, ?_, ?_, ?_, ?_⟩
  · have hplace : r.place.failures = r.failures := by
      rw [OutboxRow.place]
      split <;> rfl
    rw [← hfailures, ← hplace, h.failures _ rfl]
  · intro hstatus
    have hattempts := hrow.pending hstatus
    simp only [OutboxRow.place, hstatus] at hends
    rcases hends with ⟨_, ⟨_, hput⟩ | ⟨hpos, _⟩⟩
    · exact hput
    · rw [OutboxRow.failures, hattempts] at hpos
      exact absurd hpos (by decide)
  · intro hstatus
    obtain ⟨_, huntil, htoken, howner⟩ := hrow.leased hstatus
    obtain ⟨till, huntil⟩ := Option.isSome_iff_exists.mp huntil
    obtain ⟨token, htoken⟩ := Option.isSome_iff_exists.mp htoken
    obtain ⟨owner, howner⟩ := Option.isSome_iff_exists.mp howner
    simp only [OutboxRow.place, hstatus, huntil, htoken, howner, Option.getD_some] at hends
    obtain ⟨_, pre, now, hacts⟩ := hends
    exact ⟨pre, now, token, owner, till, htoken, howner, huntil, hacts⟩
  · intro hstatus
    obtain ⟨hpos, hlt⟩ := hrow.failed hstatus
    rw [Int32.le_iff_toInt_le] at hpos
    simp only [OutboxRow.place, hstatus] at hends
    rcases hends with ⟨_, ⟨hnone, _⟩ | ⟨_, hfail⟩⟩
    · omega
    · exact ⟨hlt, hfail⟩
  · intro hstatus
    simp only [OutboxRow.place, hstatus] at hends
    exact ⟨hrow.unspent (Or.inr hstatus), hends.2⟩
  · intro hstatus
    simp only [OutboxRow.place, hstatus] at hends
    obtain ⟨_, _, pre, taken, key, till, now, final, due, hlive, hspent, hacts⟩ := hends
    refine ⟨pre, taken, key, till, now, final, due, hlive, hspent.imp_right (fun hn => ?_), hacts⟩
    rw [← Int32.toInt_inj]
    omega

/-- From an empty outbox the acts on a row account for its status, its lease and its attempts, and a row
that is not there has never been put or has been dropped. -/
theorem outbox_accounts (maxAttempts : Int32) (hmax : 1 ≤ maxAttempts)
    (hshared : P.SharesBudget maxAttempts) {db : Db} (hempty : db.outbox = Table.empty)
    {t : Sys ω σ} {as : List (SysAction ω ι γ)} (h : P.Exec (P.initial db) as t) (outboxId : Uuid) :
    (∀ r ∈ t.db.outbox, r.id = outboxId → RowAccount maxAttempts
      (actionsAt outboxId (Run.trace P.step P.moves (P.initial db) as)) r) ∧
    ((∀ r ∈ t.db.outbox, r.id ≠ outboxId) →
      actionsAt outboxId (Run.trace P.step P.moves (P.initial db) as) = [] ∨
      ∃ pre, actionsAt outboxId (Run.trace P.step P.moves (P.initial db) as) = pre ++ [.drop]) := by
  have hrows : ∀ r ∈ (P.initial db).db.outbox, WellFormed maxAttempts r := by
    intro r hr
    have hr : r ∈ db.outbox := hr
    rw [hempty] at hr
    exact absurd hr (Table.not_mem_empty r)
  obtain ⟨hend, hrun⟩ := queueRun_of_exec hmax hshared hrows h
  have hbudget : 0 < maxAttempts.toInt.toNat := by
    have hone := Int32.le_iff_toInt_le.mp hmax
    have hunit : (1 : Int32).toInt = 1 := rfl
    omega
  have hitem := run_stepAt_iff.mp hrun outboxId
  have hstart : queueOf (P.initial db).db outboxId = none := by
    refine queueOf_of_notMem (fun r hr => ?_)
    have hr : r ∈ db.outbox := hr
    rw [hempty] at hr
    exact absurd hr (Table.not_mem_empty r)
  rw [hstart] at hitem
  have haccounts := accounts_of_run hbudget hitem
  constructor
  · intro r hr hid
    rw [queueOf_of_mem hr hid] at haccounts
    exact rowAccount_of_accounts (hend r hr) haccounts
  · intro hnone
    rw [queueOf_of_notMem hnone] at haccounts
    exact haccounts.ends

theorem outbox_accounts_deliveryRun : (1 : Int32) ≤ 5 ∧ noopProgram.SharesBudget 5 ∧
    projectDb.outbox = Table.empty ∧
    ∃ s, noopProgram.Exec (noopProgram.initial projectDb) deliveryRun s ∧
      ∃ r ∈ s.db.outbox, r.status = .delivered ∧ RowAccount 5
        (actionsAt 4 [(4, .put 0), (4, .take 0 (7, 0) (seconds 30)), (4, .ack 1 (7, 0))]) r := by
  have hmax : (1 : Int32) ≤ 5 := by decide
  have hshared : noopProgram.SharesBudget 5 := fun _ => rfl
  have hempty : projectDb.outbox = Table.empty := rfl
  obtain ⟨s, hs, hrows⟩ := deliveryRun_delivers
  have hmem : ((4 : Uuid), OutboxStatus.delivered) ∈
      s.db.outbox.rows.map (fun r => (r.id, r.status)) := by
    rw [hrows]
    exact List.mem_cons_self
  obtain ⟨r, hr, hkey⟩ := List.mem_map.mp hmem
  have haccount := (noopProgram.outbox_accounts 5 hmax hshared hempty hs 4).1 r hr
    (congrArg Prod.fst hkey)
  rw [moves_deliveryRun] at haccount
  exact ⟨hmax, hshared, hempty, s, hs, r, hr, congrArg Prod.snd hkey, haccount⟩

end Program
end Dandori
