import Dandori.OutboxSafety
import Dandori.PartitionOverlap

/-!
# The lease on a message when its dispatch starts

A cycle leases a batch at one reading of the clock and publishes it through a bounded number of slots:
the first messages take the free slots when the lease call returns, and each publish that completes
hands its slot to the next message. Nothing looks at the lease before a publish starts; only the mark
of the outcome does. So a dispatch starts under its lease exactly when the step that makes room for it
comes in time.
-/

namespace Dandori

open IssueRepository OutboxRepository OutboxWorkerService

variable {ω σ ι γ : Type}

/-- An action and the time at which it takes effect. -/
structure TimedAction (ω ι γ : Type) where
  time : Timestamp
  action : SysAction ω ι γ

/-- `config.publish_concurrency.max(1)`. -/
def publishSlots (config : OutboxWorkerConfig) : ℕ := max config.publishConcurrency 1

namespace Program

section Starts

variable (P : Program ω σ ι γ)

/-- The messages whose dispatch a step of a cycle starts. -/
def cycleStarts (config : OutboxWorkerConfig) (db : Db) (cycle : Cycle) :
    CycleAction ι → List OutboxMessage
  | .lease now leaseToken env =>
      match leaseOutboxBatch P.codec (leaseCall config cycle.workspaceId now leaseToken) env db with
      | (.ok batch, _) => batch.take (publishSlots config)
      | (.error _, _) => []
  | .dispatch _ _ =>
      match cycle.phase with
      | .processing pending _ => (pending.drop (publishSlots config)).take 1
      | _ => []
  | _ => []

def starts (s : Sys ω σ) : SysAction ω ι γ → List OutboxMessage
  | .cycle w slot action =>
      match (s.workers w).cycles[slot]? with
      | some cycle => P.cycleStarts (P.config w) s.db cycle action
      | none => []
  | _ => []

/-- The clock does not run backwards, and no reading is ahead of it. -/
def timedStep [DecidableEq ω] (s : Timestamp × Sys ω σ) (a : TimedAction ω ι γ) :
    Option (Timestamp × Sys ω σ) :=
  if s.1 ≤ a.time ∧ ∀ reading ∈ a.action.readings, reading ≤ a.time then
    (P.step s.2 a.action).map (fun t => (a.time, t))
  else none

abbrev TimedRun [DecidableEq ω] : Timestamp × Sys ω σ → List (TimedAction ω ι γ) →
    Timestamp × Sys ω σ → Prop :=
  Run P.timedStep

/-- Every dispatch that the step starts, it starts before the lease on the message ends. -/
def StartsLive (s : Timestamp × Sys ω σ) (a : TimedAction ω ι γ) : Prop :=
  ∀ message ∈ P.starts s.2 a.action, a.time < message.leasedUntil

/-- A lease call that hands over messages returns before their lease ends, and a publish that completes
while messages of its batch wait for a slot completes before the lease on its own message ends. -/
def CyclePunctual (config : OutboxWorkerConfig) (db : Db) (cycle : Cycle) (time : Timestamp) :
    CycleAction ι → Prop
  | .lease now leaseToken env => ∀ batch db',
      leaseOutboxBatch P.codec (leaseCall config cycle.workspaceId now leaseToken) env db =
        (.ok batch, db') → batch ≠ [] → time < now + seconds config.leaseSeconds
  | .dispatch index _ => ∀ pending completed message, cycle.phase = .processing pending completed →
      publishSlots config < pending.length → pending[index]? = some message →
        time < message.leasedUntil
  | _ => True

def Punctual (s : Timestamp × Sys ω σ) (a : TimedAction ω ι γ) : Prop :=
  match a.action with
  | .cycle w slot action => ∀ cycle, (s.2.workers w).cycles[slot]? = some cycle →
      P.CyclePunctual (P.config w) s.2.db cycle a.time action
  | _ => True

end Starts

/-! ## Publish slots -/

section Slots

variable {P : Program ω σ ι γ} {config : OutboxWorkerConfig} {db db' : Db} {cycle : Cycle}
  {pending batch : List OutboxMessage} {completed : List (OutboxMessage × Except PublishError Unit)}
  {index : ℕ} {time : Timestamp}

theorem publishSlots_pos (config : OutboxWorkerConfig) : 0 < publishSlots config :=
  lt_of_lt_of_le Nat.zero_lt_one (le_max_right _ _)

theorem leasedUntil_of_lease {call : LeaseCall} {env : Env} {message : OutboxMessage}
    (h : leaseOutboxBatch P.codec call env db = (.ok batch, db')) (hmessage : message ∈ batch) :
    message.leasedUntil = call.leaseUntil := by
  obtain ⟨r, _, _, _, rfl⟩ := leaseOutboxBatch_message h hmessage
  rfl

/-- A lease call starts dispatches under a live lease exactly when it is punctual. -/
theorem lease_startsLive_iff {now : Timestamp} {leaseToken : Uuid} {env : Env} :
    (∀ message ∈ P.cycleStarts config db cycle (.lease now leaseToken env), time < message.leasedUntil) ↔
      P.CyclePunctual config db cycle time (.lease now leaseToken env) := by
  simp only [cycleStarts, CyclePunctual]
  cases hlease : leaseOutboxBatch P.codec (leaseCall config cycle.workspaceId now leaseToken) env db with
  | mk result db' =>
      cases result with
      | error e => simp
      | ok batch =>
          have hend : ∀ m ∈ batch, m.leasedUntil = now + seconds config.leaseSeconds :=
            fun m hm => leasedUntil_of_lease hlease hm
          constructor
          · intro hlive batch' _ hbatch hne
            cases hbatch
            obtain ⟨m, rest, rfl⟩ := List.exists_cons_of_ne_nil hne
            rw [← hend m List.mem_cons_self]
            exact hlive m (List.mem_take_iff_getElem.mpr
              ⟨0, by simp [publishSlots_pos config], rfl⟩)
          · intro htime m hm
            rw [hend m (List.mem_of_mem_take hm)]
            exact htime batch db' rfl (List.ne_nil_of_mem (List.mem_of_mem_take hm))

/-- So does a publish that completes. -/
theorem dispatch_startsLive_iff {message : OutboxMessage} {remote : ι}
    (hphase : cycle.phase = .processing pending completed) (hmessage : pending[index]? = some message)
    (hshared : ∀ m ∈ pending, ∀ n ∈ pending, m.leasedUntil = n.leasedUntil) :
    (∀ m ∈ P.cycleStarts config db cycle (.dispatch index remote), time < m.leasedUntil) ↔
      P.CyclePunctual config db cycle time (.dispatch index remote) := by
  have hmem : message ∈ pending := List.mem_of_getElem? hmessage
  simp only [cycleStarts, CyclePunctual, hphase]
  constructor
  · intro hlive pending' _ message' hpending hwaiting hmessage'
    cases hpending
    cases hmessage.symm.trans hmessage'
    have hnext : pending[publishSlots config] ∈ (pending.drop (publishSlots config)).take 1 := by
      rw [List.drop_eq_getElem_cons hwaiting]
      exact List.mem_cons_self
    rw [hshared message hmem _ (List.getElem_mem hwaiting)]
    exact hlive _ hnext
  · intro htime m hm
    have hdrop := List.mem_of_mem_take hm
    have hwaiting : publishSlots config < pending.length := by
      have hpos := List.length_pos_of_mem hdrop
      rw [List.length_drop] at hpos
      omega
    rw [hshared m (List.mem_of_mem_drop hdrop) message hmem]
    exact htime pending completed message rfl hwaiting hmessage

end Slots

/-! ## Batches share their lease -/

/-- The messages of a batch that wait or are in flight are leased until the same time. -/
def SharedLease (s : Sys ω σ) : Prop :=
  ∀ w, ∀ cycle ∈ (s.workers w).cycles, ∀ pending completed, cycle.phase = .processing pending completed →
    ∀ m ∈ pending, ∀ n ∈ pending, m.leasedUntil = n.leasedUntil

section Runs

variable [DecidableEq ω] {P : Program ω σ ι γ} {s t : Sys ω σ} {action : SysAction ω ι γ}

omit [DecidableEq ω] in
theorem sharedLease_initial (db : Db) : SharedLease (P.initial db : Sys ω σ) := by
  intro w cycle hcycle
  cases hcycle

theorem SharedLease.step (hs : SharedLease s) (h : P.step s action = some t) : SharedLease t := by
  intro w cycle hcycle pending completed hphase m hm n hn
  rcases mem_cycles_of_step (P.step_effect h) hcycle with hold | ⟨hleasing, _⟩ |
    ⟨slot, act, c₀, publisher', _, hc₀, _, heffect⟩
  · exact hs w cycle hold pending completed hphase m hm n hn
  · rw [hleasing] at hphase
    cases hphase
  · rw [hphase] at heffect
    obtain ⟨_, phase₀⟩ := c₀
    generalize t.db = db' at heffect
    cases heffect with
    | leased hlease => rw [leasedUntil_of_lease hlease hm, leasedUntil_of_lease hlease hn]
    | @dispatched index remote pending₀ completed₀ _ _ message _ _ hmessage hdispatch =>
        exact hs w _ (List.mem_of_getElem? hc₀) pending₀ completed₀ rfl m
          (List.mem_of_mem_eraseIdx hm) n (List.mem_of_mem_eraseIdx hn)
    | applied => cases hm

theorem startsLive_iff_punctual {s : Timestamp × Sys ω σ} {a : TimedAction ω ι γ}
    (hs : SharedLease s.2) (h : P.step s.2 a.action = some t) :
    P.StartsLive s a ↔ P.Punctual s a := by
  obtain ⟨time, action⟩ := a
  unfold StartsLive Punctual starts
  cases action with
  | cycle w slot action =>
      simp only [step] at h ⊢
      cases hcycle : (s.2.workers w).cycles[slot]? with
      | none =>
          rw [hcycle] at h
          cases h
      | some cycle =>
          simp only [hcycle, Option.some.injEq, forall_eq'] at h ⊢
          cases action with
          | lease now leaseToken env => exact lease_startsLive_iff
          | dispatch index remote =>
              obtain ⟨workspaceId, phase⟩ := cycle
              cases phase with
              | processing pending completed =>
                  cases hmessage : pending[index]? with
                  | none => simp [cycleStep, hmessage] at h
                  | some message =>
                      exact dispatch_startsLive_iff rfl hmessage
                        (hs w _ (List.mem_of_getElem? hcycle) pending completed rfl)
              | leasing => cases h
              | cleaning => cases h
          | apply reading => simp [cycleStarts, CyclePunctual]
          | cleanOutbox deliveredNow deadLetterNow env => simp [cycleStarts, CyclePunctual]
          | cleanIdempotency now env => simp [cycleStarts, CyclePunctual]
  | _ => simp

/-- Along every run of workers and clients, each dispatch starts before the lease on its message ends
exactly when the lease calls and the publishes that make room for a dispatch are punctual. -/
theorem startsLive_iff (P : Program ω σ ι γ) (clock : Timestamp) (db : Db)
    (actions : List (TimedAction ω ι γ)) (s : Timestamp × Sys ω σ)
    (h : P.TimedRun (clock, P.initial db) actions s) :
    Run.Along P.timedStep P.StartsLive (clock, P.initial db) actions ↔
      Run.Along P.timedStep P.Punctual (clock, P.initial db) actions := by
  have hstep : ∀ (s : Timestamp × Sys ω σ) a t, SharedLease s.2 → P.timedStep s a = some t →
      ∃ u, P.step s.2 a.action = some u ∧ t = (a.time, u) := by
    intro s a t _ ha
    unfold timedStep at ha
    split_ifs at ha
    obtain ⟨u, hu, rfl⟩ := Option.map_eq_some_iff.mp ha
    exact ⟨u, hu, rfl⟩
  refine Run.along_congr (P := fun s => SharedLease s.2) ?_ ?_ h (sharedLease_initial db)
  · intro s a t hs ha
    obtain ⟨u, hu, rfl⟩ := hstep s a t hs ha
    exact hs.step hu
  · intro s a t hs ha
    obtain ⟨u, hu, rfl⟩ := hstep s a t hs ha
    exact startsLive_iff_punctual hs hu

end Runs

/-! ## A publish that outlasts the lease of its batch -/

/-- One publish at a time, under leases of thirty seconds. -/
def slowProgram : Program Unit Unit Unit (CreateIssueCall × Env) :=
  { noopProgram with
    config := fun _ =>
      { OutboxWorkerConfig.default with workspaceIds := some [1], publishConcurrency := 1 } }

def otherCall : CreateIssueCall :=
  { retriedCall 5 0 with command := { retriedCommand 5 with idempotencyKey := ⟨"other", by rfl⟩ } }

def leasedTogether : List (TimedAction Unit Unit (CreateIssueCall × Env)) :=
  [⟨0, .request (retriedCall 4 0, .quiet)⟩, ⟨0, .request (otherCall, .quiet)⟩,
    ⟨0, .acquire () 0 .quiet⟩, ⟨0, .start ()⟩, ⟨0, .cycle () 0 (.lease 0 7 .quiet)⟩]

def publishedAfter (n : Int) : TimedAction Unit Unit (CreateIssueCall × Env) :=
  ⟨seconds n, .cycle () 0 (.dispatch 0 ())⟩

/-- The lease on the second message has ended when the first publish completes after 31 seconds. -/
theorem publishedAfter_late : ∃ s t,
    slowProgram.TimedRun (0, slowProgram.initial projectDb) leasedTogether s ∧
    slowProgram.timedStep s (publishedAfter 31) = some t ∧
    ¬slowProgram.StartsLive s (publishedAfter 31) := by
  have hrun : (leasedTogether.foldlM slowProgram.timedStep (0, slowProgram.initial projectDb)).any
      (fun s => (slowProgram.timedStep s (publishedAfter 31)).isSome &&
        (slowProgram.starts s.2 (publishedAfter 31).action).any (fun m =>
          m.leasedUntil ≤ (publishedAfter 31).time)) = true := by
    decide +kernel
  rw [Option.any_eq_true] at hrun
  obtain ⟨s, hs, hrun⟩ := hrun
  rw [Bool.and_eq_true, Option.isSome_iff_exists, List.any_eq_true] at hrun
  obtain ⟨⟨t, ht⟩, m, hm, hend⟩ := hrun
  exact ⟨s, t, Run.of_foldlM hs, ht, fun hlive => absurd (of_decide_eq_true hend)
    (not_le.mpr (hlive m hm))⟩

theorem not_startsLive_publishedAfter : ∃ s,
    slowProgram.TimedRun (0, slowProgram.initial projectDb) (leasedTogether ++ [publishedAfter 31]) s ∧
    ¬Run.Along slowProgram.timedStep slowProgram.StartsLive (0, slowProgram.initial projectDb)
      (leasedTogether ++ [publishedAfter 31]) := by
  obtain ⟨s, t, hs, ht, hlate⟩ := publishedAfter_late
  exact ⟨t, hs.append (.single ht), fun hlive => hlate (hlive.at hs)⟩

theorem startsLive_iff_publishedAfter : ∃ s,
    slowProgram.TimedRun (0, slowProgram.initial projectDb) (leasedTogether ++ [publishedAfter 31]) s ∧
    ¬Run.Along slowProgram.timedStep slowProgram.Punctual (0, slowProgram.initial projectDb)
      (leasedTogether ++ [publishedAfter 31]) := by
  obtain ⟨s, t, hs, ht, hlate⟩ := publishedAfter_late
  have hrun := hs.append (.single ht)
  refine ⟨t, hrun, fun hpunctual => ?_⟩
  have hlive := (startsLive_iff slowProgram 0 projectDb _ t hrun).mpr hpunctual
  exact hlate (hlive.at hs)

end Program
end Dandori
