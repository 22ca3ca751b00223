import Dandori.RowMoves
import Dandori.WorkerReport

/-!
# The account of a tenant cycle

A lease counts the messages it was given, and a mark that went through counts by the outcome of the
publish and by the attempts that the message shows. These counts are right because a token is
generated once: the row that a mark finds under the token of its message still has the attempts of the
message.
-/

namespace Dandori

open IssueRepository OutboxRepository OutboxWorkerService

/-- The messages of the batch whose outcomes have not been applied. -/
def Phase.messages : Phase → List OutboxMessage
  | .processing pending completed => pending ++ completed.map Prod.fst
  | _ => []

namespace Program

variable {ω σ ι γ : Type} [DecidableEq ω] (P : Program ω σ ι γ)

/-! ## What a cycle owes -/

/-- The report of a cycle counts what it has moved, its messages are what is left of the batch, and a
row that still has the token of a message has the attempts of the message. -/
structure Account (s₀ : Sys ω σ) (as : List (SysAction ω ι γ)) (w : ω) (db : Db) (cycle : Cycle)
    (report : WorkerRunReport) : Prop where
  counted : P.Counted s₀ as w cycle.workspaceId report
  leasing : cycle.phase = .leasing → report = .default
  balanced : report.leased = report.delivered + report.failed + cycle.phase.messages.length
  nodup : (cycle.phase.messages.map OutboxMessage.id).Nodup
  unsettled : ∀ m ∈ cycle.phase.messages, (cycle.workspaceId, m.id) ∉ P.Moved s₀ as w [.delivered] ∧
    (cycle.workspaceId, m.id) ∉ P.Moved s₀ as w [.failed, .deadLetter]
  attempts : ∀ m ∈ cycle.phase.messages, ∀ r ∈ db.outbox, r.id = m.id →
    r.leaseToken = some m.leaseToken → r.attempts = m.attempts
  generated : ∀ m ∈ cycle.phase.messages, m.leaseToken ∈ as.filterMap SysAction.leaseToken?

section Accounts

variable {P} {s₀ s t : Sys ω σ} {as : List (SysAction ω ι γ)} {a : SysAction ω ι γ} {w : ω}
  {slot : ℕ} {action : CycleAction ι} {cycle : Cycle} {report report' : WorkerRunReport}
  {next : Phase}

theorem Account.attempts_of_step (h : P.Account s₀ as w s.db cycle report) (ha : P.step s a = some t)
    (hfresh : ∀ token, a.leaseToken? = some token → token ∉ as.filterMap SysAction.leaseToken?)
    {m : OutboxMessage} (hm : m ∈ cycle.phase.messages) {r : OutboxRow} (hr : r ∈ t.db.outbox)
    (hid : r.id = m.id) (htoken : r.leaseToken = some m.leaseToken) : r.attempts = m.attempts := by
  rcases token_of_step (P.step_effect ha) hr htoken with hold | hgenerated
  · exact h.attempts m hm r hold hid htoken
  · exact absurd (h.generated m hm) (hfresh _ hgenerated)

theorem Account.generated_append (h : P.Account s₀ as w s.db cycle report) {m : OutboxMessage}
    (hm : m ∈ cycle.phase.messages) :
    m.leaseToken ∈ (as ++ [a]).filterMap SysAction.leaseToken? := by
  rw [List.filterMap_append]
  exact List.mem_append_left _ (h.generated m hm)

theorem Account.of_untouched (h : P.Account s₀ as w s.db cycle report) (ha : P.step s a = some t)
    (hfresh : ∀ token, a.leaseToken? = some token → token ∉ as.filterMap SysAction.leaseToken?)
    (hsame : ∀ statuses key, key.1 = cycle.workspaceId →
      (key ∈ P.Moved s₀ (as ++ [a]) w statuses ↔ key ∈ P.Moved s₀ as w statuses)) :
    P.Account s₀ (as ++ [a]) w t.db cycle report where
  counted := h.counted.congr hsame
  leasing := h.leasing
  balanced := h.balanced
  nodup := h.nodup
  unsettled m hm := by
    rw [hsame _ _ rfl, hsame _ _ rfl]
    exact h.unsettled m hm
  attempts m hm r hr hid htoken := h.attempts_of_step ha hfresh hm hr hid htoken
  generated m hm := h.generated_append hm

theorem Account.start {workspaceId : Uuid} {db : Db} (h : P.Counted s₀ as w workspaceId .default) :
    P.Account s₀ as w db ⟨workspaceId, .leasing⟩ .default :=
  ⟨h, fun _ => rfl, rfl, List.nodup_nil, nofun, nofun, nofun⟩

theorem not_mem_moved_of_zero {statuses : List OutboxStatus} {workspaceId id : Uuid}
    (h : {key ∈ P.Moved s₀ as w statuses | key.1 = workspaceId}.encard = 0) :
    (workspaceId, id) ∉ P.Moved s₀ as w statuses := by
  intro hmem
  have hkey : (workspaceId, id) ∈ {key ∈ P.Moved s₀ as w statuses | key.1 = workspaceId} :=
    ⟨hmem, rfl⟩
  rw [Set.encard_eq_zero.mp h] at hkey
  cases hkey

theorem Account.lease {workspaceId : Uuid} {now : Timestamp} {leaseToken : Uuid} {env : Env}
    {batch : List OutboxMessage}
    (h : P.Account s₀ as w s.db ⟨workspaceId, .leasing⟩ report) (hexec : P.Exec s₀ as s)
    (ha : P.step s (.cycle w slot (.lease now leaseToken env)) = some t)
    (hlease : leaseOutboxBatch P.codec (leaseCall (P.config w) workspaceId now leaseToken) env s.db =
      (.ok batch, t.db))
    (hfresh : ∀ r ∈ s.db.outbox, r.leaseToken ≠ some leaseToken) :
    P.Account s₀ (as ++ [.cycle w slot (.lease now leaseToken env)]) w t.db
      ⟨workspaceId, .processing batch []⟩ { report with leased := report.leased + batch.length } := by
  have hreport := h.leasing rfl
  subst hreport
  have hmoved : ∀ statuses key, key ∈ rowsMoved statuses s.db t.db ↔
      .leased ∈ statuses ∧ ∃ id ∈ batch.map OutboxMessage.id, key = (workspaceId, id) := by
    intro statuses key
    rw [mem_rowsMoved_lease hlease hfresh]
    simp only [List.mem_map, exists_exists_and_eq_and]
    rfl
  have hnodup := leaseOutboxBatch_nodup hlease
  have hmessages : (Phase.processing batch []).messages = batch := List.append_nil batch
  have hbatch : ∀ m ∈ batch, m.leaseToken = leaseToken ∧ ∀ r ∈ t.db.outbox, r.id = m.id →
      r.attempts = m.attempts := by
    intro m hm
    obtain ⟨r, _, _, hleased, rfl⟩ := leaseOutboxBatch_message hlease hm
    refine ⟨rfl, fun x hx hid => ?_⟩
    rw [Table.eq_of_key_eq hx hleased hid]
    rfl
  refine ⟨?_, nofun, ?_, ?_, ?_, ?_, ?_⟩
  · refine h.counted.append hexec ha hnodup hmoved ?_ ?_ ?_ ?_ ?_
    · intro id _ statuses hstatus hstatuses
      have hzero : {key ∈ P.Moved s₀ as w [.leased] | key.1 = workspaceId}.encard = 0 :=
        h.counted.leased
      simp only [List.mem_cons, List.not_mem_nil, or_false] at hstatuses
      rcases hstatuses with rfl | rfl | rfl
      · exact not_mem_moved_of_zero hzero
      · simp at hstatus
      · simp at hstatus
    · simp
    · simp
    · simp
    · simp
  · simp [hmessages, WorkerRunReport.default]
  · rw [hmessages]
    exact hnodup
  · intro m _
    constructor <;> rw [mem_moved_append hexec ha, hmoved] <;> rintro (hold | ⟨_, hin, _⟩)
    · exact not_mem_moved_of_zero h.counted.delivered hold
    · simp at hin
    · exact not_mem_moved_of_zero h.counted.failed hold
    · simp at hin
  · intro m hm r hr hid _
    rw [hmessages] at hm
    exact (hbatch m hm).2 r hr hid
  · intro m hm
    rw [hmessages] at hm
    rw [(hbatch m hm).1, List.filterMap_append]
    exact List.mem_append_right _ List.mem_cons_self

theorem Account.apply {workspaceId : Uuid} {reading : MarkEnv} {message : OutboxMessage}
    {outcome : Except PublishError Unit} {rest : List (OutboxMessage × Except PublishError Unit)}
    (h : P.Account s₀ as w s.db ⟨workspaceId, .processing [] ((message, outcome) :: rest)⟩ report)
    (hexec : P.Exec s₀ as s) (ha : P.step s (.cycle w slot (.apply reading)) = some t)
    (hrun : (outcomeMark (P.config w) (tenantAuth (P.config w) workspaceId) message outcome
      reading).run P.codec reading.env s.db = (.ok (), t.db)) :
    P.Account s₀ (as ++ [.cycle w slot (.apply reading)]) w t.db
      ⟨workspaceId, .processing [] rest⟩ (reportOutcome (P.config w) message outcome report) := by
  have hmessages : (Phase.processing [] ((message, outcome) :: rest)).messages =
      message :: (Phase.processing [] rest).messages := rfl
  have hmine : message ∈ (Phase.processing [] ((message, outcome) :: rest)).messages := by
    rw [hmessages]
    exact List.mem_cons_self
  have hrest : ∀ m ∈ (Phase.processing [] rest).messages,
      m ∈ (Phase.processing [] ((message, outcome) :: rest)).messages := by
    intro m hm
    rw [hmessages]
    exact List.mem_cons_of_mem _ hm
  have hnodup := h.nodup
  rw [hmessages, List.map_cons, List.nodup_cons] at hnodup
  obtain ⟨r, hr, hid, htoken, hwritten⟩ :=
    mem_rowsMoved_mark hrun (written_outcomeMark_leaseToken _ _ _ _ _)
  simp only [outcomeMark_auth, outcomeMark_outboxId, outcomeMark_leaseToken] at hid htoken hwritten
  have hattempts : r.attempts = message.attempts := h.attempts message hmine r hr hid htoken
  obtain ⟨status, hstatus⟩ : ∃ status,
      markedStatus (P.config w) message outcome reading message.attempts = status := ⟨_, rfl⟩
  rw [written_markedStatus, hattempts, hstatus] at hwritten
  have hmoved : ∀ statuses key, key ∈ rowsMoved statuses s.db t.db ↔
      status ∈ statuses ∧ ∃ id ∈ [message.id], key = (workspaceId, id) := by
    intro statuses key
    rw [hwritten]
    simp only [List.mem_singleton, exists_eq_left]
    rfl
  have hleased : status ≠ .leased := hstatus ▸ markedStatus_ne_leased _ _ _ _ _
  obtain ⟨hcleased, hcdelivered, hcfailed, hcdead⟩ :=
    reportOutcome_counts (P.config w) message outcome reading report hstatus
  have hunsettled := h.unsettled message hmine
  refine ⟨?_, nofun, ?_, hnodup.2, ?_, ?_, ?_⟩
  · refine h.counted.append hexec ha (List.nodup_singleton _) hmoved ?_ ?_ hcdelivered hcfailed hcdead
    · intro id hid statuses hin hstatuses
      rw [List.mem_singleton.mp hid]
      simp only [List.mem_cons, List.not_mem_nil, or_false] at hstatuses
      rcases hstatuses with rfl | rfl | rfl
      · exact absurd (List.mem_singleton.mp hin) hleased
      · exact hunsettled.1
      · exact hunsettled.2
    · rw [hcleased, if_neg (fun hin => hleased (List.mem_singleton.mp hin)), Nat.add_zero]
  · have hbalanced := h.balanced
    have hone : (if status ∈ [OutboxStatus.delivered] then 1 else 0) +
        (if status ∈ [OutboxStatus.failed, .deadLetter] then 1 else 0) = 1 := by
      rw [← hstatus]
      unfold markedStatus
      split
      · rfl
      · split <;> rfl
    rw [hmessages, List.length_cons] at hbalanced
    rw [hcleased, hcdelivered, hcfailed]
    dsimp only at hbalanced ⊢
    omega
  · intro m hm
    have hne : m.id ≠ message.id := fun heq =>
      hnodup.1 (List.mem_map.mpr ⟨m, hm, heq⟩)
    have hold := h.unsettled m (hrest m hm)
    constructor <;> rw [mem_moved_append hexec ha, hmoved] <;>
      rintro (hmem | ⟨_, _, id, hid, hkey⟩)
    · exact hold.1 hmem
    · exact hne ((Prod.mk.inj hkey).2.trans (List.mem_singleton.mp hid))
    · exact hold.2 hmem
    · exact hne ((Prod.mk.inj hkey).2.trans (List.mem_singleton.mp hid))
  · intro m hm x hx hxid hxtoken
    exact h.attempts_of_step ha nofun (hrest m hm) hx hxid hxtoken
  · intro m hm
    exact h.generated_append (hrest m hm)

theorem Account.congr {db : Db} (h : P.Account s₀ as w db cycle report)
    (hmessages : next.messages.Perm cycle.phase.messages) (hnext : next ≠ .leasing)
    (hleased : report'.leased = report.leased) (hdelivered : report'.delivered = report.delivered)
    (hfailed : report'.failed = report.failed)
    (hdeadLettered : report'.deadLettered = report.deadLettered) :
    P.Account s₀ as w db ⟨cycle.workspaceId, next⟩ report' where
  counted := by
    refine ⟨?_, ?_, ?_, ?_⟩
    · rw [hleased]
      exact h.counted.leased
    · rw [hdelivered]
      exact h.counted.delivered
    · rw [hfailed]
      exact h.counted.failed
    · rw [hdeadLettered]
      exact h.counted.deadLettered
  leasing hphase := absurd hphase hnext
  balanced := by
    rw [hleased, hdelivered, hfailed, hmessages.length_eq]
    exact h.balanced
  nodup := (hmessages.map OutboxMessage.id).nodup_iff.mpr h.nodup
  unsettled m hm := h.unsettled m (hmessages.mem_iff.mp hm)
  attempts m hm := h.attempts m (hmessages.mem_iff.mp hm)
  generated m hm := h.generated m (hmessages.mem_iff.mp hm)

theorem moved_of_subset (hexec : P.Exec s₀ as s) (ha : P.step s a = some t)
    (hsub : ∀ r ∈ t.db.outbox, r ∈ s.db.outbox) (statuses : List OutboxStatus) (key : Uuid × Uuid) :
    key ∈ P.Moved s₀ (as ++ [a]) w statuses ↔ key ∈ P.Moved s₀ as w statuses := by
  rw [mem_moved_append hexec ha, rowsMoved_of_subset hsub]
  simp

/-- A step of a cycle that goes on keeps the account in order. -/
theorem Account.step (h : P.Account s₀ as w s.db cycle report) (hexec : P.Exec s₀ as s)
    (ha : P.step s (.cycle w slot action) = some t)
    (heffect : P.ReportEffect (P.config w) cycle.workspaceId action cycle.phase report s.db
      (some next) (.running report') t.db)
    (hfresh : ∀ token, (SysAction.cycle w slot action : SysAction ω ι γ).leaseToken? = some token →
      token ∉ as.filterMap SysAction.leaseToken? ∧ ∀ r ∈ s.db.outbox, r.leaseToken ≠ some token) :
    P.Account s₀ (as ++ [.cycle w slot action]) w t.db ⟨cycle.workspaceId, next⟩ report' := by
  have hfresh' := fun token htoken => (hfresh token htoken).1
  obtain ⟨workspaceId, phase⟩ := cycle
  generalize hdb : t.db = db' at heffect
  cases heffect with
  | leased hlease =>
      rw [← hdb] at hlease ⊢
      exact h.lease hexec ha hlease (hfresh _ rfl).2
  | @dispatched index pending completed message remote outcome _ _ hmessage =>
      have hsub : ∀ r ∈ t.db.outbox, r ∈ s.db.outbox := by
        rw [hdb]
        exact fun r hr => hr
      rw [← hdb]
      refine (h.of_untouched ha hfresh' (fun statuses key _ =>
        moved_of_subset hexec ha hsub statuses key)).congr ?_ nofun rfl rfl rfl rfl
      obtain ⟨hindex, rfl⟩ := List.getElem?_eq_some_iff.mp hmessage
      have herase := List.getElem_cons_eraseIdx_perm hindex
      simp only [Phase.messages, List.map_append, List.map_cons, List.map_nil]
      rw [← List.append_assoc]
      refine List.perm_append_comm.trans ?_
      exact (List.Perm.append_right (completed.map Prod.fst) herase)
  | applied _ hrun =>
      rw [← hdb] at hrun ⊢
      exact h.apply hexec ha hrun
  | cleanedOutbox deliveredNow deadLetterNow env _ n =>
      have hsub : ∀ r ∈ t.db.outbox, r ∈ s.db.outbox := by
        rw [hdb]
        exact fun r hr => (Table.mem_filter.mp hr).1
      rw [← hdb]
      exact (h.of_untouched ha hfresh' (fun statuses key _ =>
        moved_of_subset hexec ha hsub statuses key)).congr (.refl _) nofun rfl rfl rfl rfl

/-- A cycle that returns its report has counted its rows, and has settled every row it leased. -/
theorem Account.returned (h : P.Account s₀ as w s.db cycle report) (hexec : P.Exec s₀ as s)
    (ha : P.step s (.cycle w slot action) = some t)
    (heffect : P.ReportEffect (P.config w) cycle.workspaceId action cycle.phase report s.db none
      (.returned (.ok report')) t.db) :
    P.Counted s₀ (as ++ [.cycle w slot action]) w cycle.workspaceId report' ∧
      report'.leased = report'.delivered + report'.failed := by
  obtain ⟨workspaceId, phase⟩ := cycle
  generalize hdb : t.db = db' at heffect
  cases heffect with
  | returned now env _ n =>
      have hsub : ∀ r ∈ t.db.outbox, r ∈ s.db.outbox := by
        rw [hdb]
        exact fun r hr => hr
      have hcounted := h.counted.congr (fun statuses key _ =>
        moved_of_subset (w := w) hexec ha hsub statuses key)
      exact ⟨⟨hcounted.leased, hcounted.delivered, hcounted.failed, hcounted.deadLettered⟩,
        h.balanced⟩

end Accounts

end Program
end Dandori
