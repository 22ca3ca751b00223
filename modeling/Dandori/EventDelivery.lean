import Dandori.EventFirst

/-!
# From the event of a request to the publisher

The event of a request is encoded once, by the transaction that creates the issue. From then on its
columns are only read: leases and marks rewrite other columns, and a message copies them. The encoding
has no `schema_version` of its own, whatever texts the event carries, so the default registry routes
every message to the handler of version 1, which decodes the event it was encoded from.
-/

namespace Dandori

open IssueRepository OutboxRepository OutboxWorkerService

structure OutboxRepository.OutboxMessage.Repeats (m : OutboxMessage) (r : OutboxRow) : Prop where
  id : m.id = r.id
  workspaceId : m.workspaceId = r.workspaceId
  eventId : m.eventId = r.eventId
  eventType : m.eventType = r.eventType
  payload : m.payload = r.payload

/-- The registry hands the message to the publisher with the event of the call, under the ids of that
event. -/
structure Reaches {m : Type → Type} [Monad m] (registry : OutboxRegistry m)
    (publisher : OutboxPublisher m) (message : OutboxMessage) (event : IssueCreatedEventV1) :
    Prop where
  publish : registry.dispatch publisher message = publisher.publishIssueCreated message event
  eventId : message.eventId = event.eventId
  workspaceId : message.workspaceId = event.workspaceId

theorem resolveSchemaVersion_event {codec : Codec} {event : IssueCreatedEventV1}
    {message : OutboxMessage} (hpayload : message.payload = codec.eventToValue event) :
    OutboxRegistry.resolveSchemaVersion message = none := by
  have hnone : (codec.eventToValue event).get "schema_version" = none := rfl
  unfold OutboxRegistry.resolveSchemaVersion
  rw [hpayload, hnone]
  rfl

theorem dispatch_event {m : Type → Type} [Monad m] {codec : Codec} (publisher : OutboxPublisher m)
    {message : OutboxMessage} {event : IssueCreatedEventV1}
    (htype : message.eventType = EventType.issueCreatedV1.asStr)
    (hpayload : message.payload = codec.eventToValue event) :
    (defaultRegistry codec).dispatch publisher message =
      publisher.publishIssueCreated message event := by
  have hresolve : (defaultRegistry codec : OutboxRegistry m).resolve EventType.issueCreatedV1.asStr 1 =
      some (issueCreatedV1Handler codec) := rfl
  unfold OutboxRegistry.dispatch
  rw [resolveSchemaVersion_event hpayload, htype]
  simp only [Option.getD_none, hresolve, issueCreatedV1Handler, hpayload,
    codec.eventFromValue_toValue]

theorem OutboxRepository.OutboxMessage.Repeats.reaches {m : Type → Type} [Monad m] {codec : Codec}
    {call : CreateIssueCall} {message : OutboxMessage} {generated : IssueAppService.Generated}
    (h : message.Repeats (outboxRow codec call))
    (hevent : call.event = IssueAppService.eventOfCommand call.command generated)
    (publisher : OutboxPublisher m) :
    Reaches (defaultRegistry codec) publisher message call.event where
  publish := dispatch_event publisher h.eventType h.payload
  eventId := h.eventId
  workspaceId := by
    have hworkspace : call.event.workspaceId = call.command.workspaceId := by
      rw [hevent]
      rfl
    rw [hworkspace]
    exact h.workspaceId

theorem LeaseCall.message_repeats (call : LeaseCall) {r r₀ : OutboxRow} (h : r.event = r₀.event) :
    (call.message (call.leased r)).Repeats r₀ := by
  simp only [OutboxRow.event, OutboxRow.mk.injEq] at h
  obtain ⟨hid, hworkspace, heventId, htype, _, _, _, _, hpayload, _⟩ := h
  exact ⟨hid, hworkspace, heventId, htype, hpayload⟩

/-! ## What the publishers answer -/

/-- The publisher refuses no event as unsupported or undecodable. -/
def OutboxPublisher.Understands {σ : Type} (publisher : OutboxPublisher (StateM σ)) : Prop :=
  ∀ message event x error, ((publisher.publishIssueCreated message event) x).1 = .error error →
    error.kind ≠ .unsupported ∧ error.kind ≠ .serialization

theorem HttpOutboxPublisher.publisher_understands (codec : Codec) (settings : Settings)
    (remote : Remote) : (publisher codec settings remote).Understands := by
  intro message event breaker error h
  simp only [publisher] at h
  split at h
  · cases h
    exact ⟨nofun, nofun⟩
  · unfold settle at h
    split at h
    · cases h
      exact ⟨nofun, nofun⟩
    · split_ifs at h
      · cases h
        exact ⟨nofun, nofun⟩
      · cases h
        exact ⟨nofun, nofun⟩

theorem noopOutboxPublisher_understands {σ : Type} :
    (noopOutboxPublisher : OutboxPublisher (StateM σ)).Understands := by
  intro message event x error h
  cases h

namespace Program

variable {ω σ ι γ : Type} [DecidableEq ω]

section Step

variable {P : Program ω σ ι γ} {s t : Sys ω σ} {a : SysAction ω ι γ}

theorem event_of_step (h : P.step s a = some t) {r : OutboxRow} (hr : r ∈ t.db.outbox) :
    (∃ r₀ ∈ s.db.outbox, r.event = r₀.event) ∨
    ∃ request call, a = .request request ∧ P.client.call request = some call ∧
      FreshCreate P.codec call s.db t.db ∧ r = outboxRow P.codec call := by
  have heffect := db_of_step (P.step_effect h)
  generalize t.db = db' at heffect hr ⊢
  cases heffect with
  | leases => exact Or.inl ⟨r, hr, rfl⟩
  | created hcall hfresh =>
      rcases ((Table.insert?_eq_some hfresh.outbox).2.2 r).mp hr with rfl | hr
      · exact Or.inr ⟨_, _, rfl, hcall, hfresh, rfl⟩
      · exact Or.inl ⟨r, hr, rfl⟩
  | leased hlease =>
      rcases leaseOutboxBatch_row hlease hr with hold | ⟨x, hx, _, rfl, _⟩
      · exact Or.inl ⟨r, hold, rfl⟩
      · exact Or.inl ⟨x, hx, rfl⟩
  | applied _ _ hrun =>
      rcases LeaseTransition.row_of_run hrun hr with hr | ⟨r₀, hr₀, _, rfl⟩
      · exact Or.inl ⟨r, hr, rfl⟩
      · exact Or.inl ⟨r₀, hr₀, written_outcomeMark_event _ _ _ _ _ r₀⟩
  | cleanedOutbox => exact Or.inl ⟨r, (Table.mem_filter.mp hr).1, rfl⟩
  | cleanedIdempotency => exact Or.inl ⟨r, hr, rfl⟩

theorem pending_of_step (h : P.step s a = some t) {w : ω} {c : Cycle} {message : OutboxMessage}
    {pending : List OutboxMessage} {completed : List (OutboxMessage × Except PublishError Unit)}
    (hc : c ∈ (t.workers w).cycles) (hphase : c.phase = .processing pending completed)
    (hmessage : message ∈ pending) :
    (∃ c₀ ∈ (s.workers w).cycles, ∃ pending₀ completed₀,
      c₀.phase = .processing pending₀ completed₀ ∧ message ∈ pending₀) ∨
    ∃ r ∈ s.db.outbox, ∃ call : LeaseCall, message = call.message (call.leased r) := by
  rcases mem_cycles_of_step (P.step_effect h) hc with
    hc | ⟨hleasing, _⟩ | ⟨slot, act, c₀, publisher', _, hcycle, _, heffect⟩
  · exact Or.inl ⟨c, hc, pending, completed, hphase, hmessage⟩
  · rw [hleasing] at hphase
    cases hphase
  · have hold := List.mem_of_getElem? hcycle
    obtain ⟨workspaceId₀, phase₀⟩ := c₀
    rw [hphase] at heffect
    generalize t.db = db' at heffect
    cases heffect with
    | leased hlease =>
        obtain ⟨r, hr, _, _, hm⟩ := leaseOutboxBatch_message hlease hmessage
        exact Or.inr ⟨r, hr, _, hm⟩
    | dispatched => exact Or.inl ⟨_, hold, _, _, rfl, List.mem_of_mem_eraseIdx hmessage⟩
    | applied => cases hmessage

end Step

variable (P : Program ω σ ι γ)

def Commits (s₀ : Sys ω σ) (as : List (SysAction ω ι γ)) (call : CreateIssueCall) : Prop :=
  ∃ xs request ys u v, as = xs ++ .request request :: ys ∧ P.Exec s₀ xs u ∧
    P.step u (.request request) = some v ∧ P.client.call request = some call ∧
    FreshCreate P.codec call u.db v.db

def Dispatches (s : Sys ω σ) (a : SysAction ω ι γ) (remote : ι) (message : OutboxMessage) : Prop :=
  ∃ w slot index cycle pending completed, a = .cycle w slot (.dispatch index remote) ∧
    (s.workers w).cycles[slot]? = some cycle ∧ cycle.phase = .processing pending completed ∧
    pending[index]? = some message

/-- Every dispatch of a run from `s₀` hands on the event of the create that enqueued its row. -/
structure RoundTrips (s₀ : Sys ω σ) : Prop where
  enqueued : ∀ as s (a : SysAction ω ι γ) remote message, P.Exec s₀ as s →
    Dispatches s a remote message →
      ∃ call, P.Commits s₀ as call ∧ message.id = call.generated.outboxId ∧
        Reaches P.registry (P.publisher remote) message call.event
  ofCreate : ∀ as s (a : SysAction ω ι γ) remote message call, P.Exec s₀ as s →
    Dispatches s a remote message → P.Commits s₀ as call →
      message.id = call.generated.outboxId →
      (∀ other, P.Commits s₀ as other → other.generated.outboxId = call.generated.outboxId →
        other = call) →
      Reaches P.registry (P.publisher remote) message call.event
  understood : (∀ remote, (P.publisher remote).Understands) →
    ∀ as s (a : SysAction ω ι γ) remote message, P.Exec s₀ as s → Dispatches s a remote message →
      ∀ x error, ((P.registry.dispatch (P.publisher remote) message) x).1 = .error error →
        error.kind ≠ .unsupported ∧ error.kind ≠ .serialization

/-- Rows and waiting messages repeat what committed creates have written. -/
structure Enqueued (s₀ : Sys ω σ) (as : List (SysAction ω ι γ)) (s : Sys ω σ) : Prop where
  row : ∀ r ∈ s.db.outbox, ∃ call, P.Commits s₀ as call ∧ r.event = (outboxRow P.codec call).event
  message : ∀ w, ∀ c ∈ (s.workers w).cycles, ∀ pending completed,
    c.phase = .processing pending completed → ∀ message ∈ pending,
      ∃ call, P.Commits s₀ as call ∧ message.Repeats (outboxRow P.codec call)

section Runs

variable {P} {s₀ s t : Sys ω σ} {as : List (SysAction ω ι γ)} {a : SysAction ω ι γ}

theorem Commits.append {call : CreateIssueCall} {bs : List (SysAction ω ι γ)}
    (h : P.Commits s₀ as call) : P.Commits s₀ (as ++ bs) call := by
  obtain ⟨xs, request, ys, u, v, rfl, hrest⟩ := h
  exact ⟨xs, request, ys ++ bs, u, v, by simp, hrest⟩

theorem Enqueued.step (hinv : P.Enqueued s₀ as s) (hrun : P.Exec s₀ as s)
    (h : P.step s a = some t) : P.Enqueued s₀ (as ++ [a]) t where
  row r hr := by
    rcases event_of_step h hr with ⟨r₀, hr₀, hevent⟩ | ⟨request, call, rfl, hcall, hfresh, rfl⟩
    · obtain ⟨call, hcommits, hrow⟩ := hinv.row r₀ hr₀
      exact ⟨call, hcommits.append, hevent.trans hrow⟩
    · exact ⟨call, ⟨as, request, [], s, t, rfl, hrun, h, hcall, hfresh⟩, rfl⟩
  message w c hc pending completed hphase message hmessage := by
    rcases pending_of_step h hc hphase hmessage with
      ⟨c₀, hc₀, pending₀, completed₀, hphase₀, hmessage₀⟩ | ⟨r, hr, leaseCall, rfl⟩
    · obtain ⟨call, hcommits, hrepeats⟩ := hinv.message w c₀ hc₀ _ _ hphase₀ message hmessage₀
      exact ⟨call, hcommits.append, hrepeats⟩
    · obtain ⟨call, hcommits, hevent⟩ := hinv.row r hr
      exact ⟨call, hcommits.append, LeaseCall.message_repeats leaseCall hevent⟩

theorem enqueued_of_exec {db : Db} (hempty : db.outbox = Table.empty)
    (h : P.Exec (P.initial db) as s) : P.Enqueued (P.initial db) as s := by
  have hrun : P.Exec (P.initial db) as s ∧ P.Enqueued (P.initial db) as s := by
    refine Run.history (P := fun as s => P.Exec (P.initial db) as s ∧
      P.Enqueued (P.initial db) as s) ?_ h ⟨.nil _, ?_, ?_⟩
    · rintro pre s a t ⟨hpre, hinv⟩ ha
      exact ⟨hpre.append (.single ha), hinv.step hpre ha⟩
    · intro r hr
      have hnone : r ∈ db.outbox := hr
      rw [hempty] at hnone
      exact absurd hnone (Table.not_mem_empty r)
    · intro w c hc
      cases hc
  exact hrun.2

end Runs

def delivering (policy : PolicyEngine) : Program ω σ ι ServiceRequest :=
  { P.serving policy with registry := defaultRegistry P.codec }

/-- In every run of service requests and workers, whatever fails, every dispatch of the row of a create
reaches the publisher with the event that the create was built with. -/
theorem delivering_roundTrips (policy : PolicyEngine) (db : Db) (hempty : db.outbox = Table.empty) :
    (P.delivering policy).RoundTrips ((P.delivering policy).initial db) := by
  have hreaches : ∀ call as, (P.delivering policy).Commits ((P.delivering policy).initial db) as call →
      ∀ remote message, message.Repeats (outboxRow P.codec call) →
        Reaches (defaultRegistry P.codec) (P.publisher remote) message call.event := by
    rintro call as ⟨_, request, _, _, _, _, _, _, hcall, _⟩ remote message hrepeats
    obtain ⟨generated, hevent⟩ := serviceClient_repeatsCommand P.codec policy request call hcall
    exact hrepeats.reaches hevent _
  have henqueued : ∀ as s (a : SysAction ω ι ServiceRequest) remote message,
      (P.delivering policy).Exec ((P.delivering policy).initial db) as s →
      Dispatches s a remote message →
      ∃ call, (P.delivering policy).Commits ((P.delivering policy).initial db) as call ∧
        message.id = call.generated.outboxId ∧
        Reaches (defaultRegistry P.codec) (P.publisher remote) message call.event := by
    rintro as s a remote message hrun ⟨w, slot, index, cycle, pending, completed, -, hcycle, hphase,
      hmessage⟩
    obtain ⟨call, hcommits, hrepeats⟩ := (enqueued_of_exec hempty hrun).message w cycle
      (List.mem_of_getElem? hcycle) pending completed hphase message (List.mem_of_getElem? hmessage)
    exact ⟨call, hcommits, hrepeats.id, hreaches call as hcommits remote message hrepeats⟩
  refine ⟨henqueued, ?_, ?_⟩
  · intro as s a remote message call hrun hdispatches _ hid hunique
    obtain ⟨other, hcommits, hid', hother⟩ := henqueued as s a remote message hrun hdispatches
    rw [← hunique other hcommits (hid'.symm.trans hid)]
    exact hother
  · intro hunderstands as s a remote message hrun hdispatches x error herror
    obtain ⟨call, _, _, hreaches⟩ := henqueued as s a remote message hrun hdispatches
    have hpublish : (((P.publisher remote).publishIssueCreated message call.event) x).1 =
        .error error := by
      rw [← hreaches.publish]
      exact herror
    exact hunderstands remote message call.event x error hpublish

/-! ## A delivery -/

/-- The text of the issue looks like the field that routes the message. -/
def versionedRequest : ServiceRequest :=
  { servedRequest 4 with request := ⟨"key", 2, none, "\"schema_version\": 2", none, .medium⟩ }

def deliveredActions : List (SysAction Unit Unit ServiceRequest) :=
  [.request versionedRequest, .acquire () 0 .quiet, .start (), .cycle () 0 (.lease 0 7 .quiet)]

theorem delivering_roundTrips_deliveredActions : projectDb.outbox = Table.empty ∧
    (noopProgram.delivering RoleMatrixPolicy.standard).RoundTrips
      ((noopProgram.delivering RoleMatrixPolicy.standard).initial projectDb) ∧
    ∃ s message, (noopProgram.delivering RoleMatrixPolicy.standard).Exec
        ((noopProgram.delivering RoleMatrixPolicy.standard).initial projectDb) deliveredActions s ∧
      Dispatches (γ := ServiceRequest) s (.cycle () 0 (.dispatch 0 ())) () message := by
  refine ⟨rfl, noopProgram.delivering_roundTrips RoleMatrixPolicy.standard projectDb rfl, _, _,
    Run.of_foldlM rfl, (), 0, 0, _, _, _, rfl, rfl, rfl, rfl⟩

end Program
end Dandori
