import Dandori.LeaseSelection

/-!
# No row is starved

A lease call that passes over an eligible row fills its places with rows that come before it, and while
no lease runs out, those rows do not come back in front of it: a row that is created or postponed
meanwhile comes after it. The rows ahead that can still be handed out are therefore a measure that each
lease call of the workspace lowers by its places, and the row is handed out once the places exceed it.
-/

namespace Dandori.OutboxRepository

/-- The row can be handed out before `horizon`: it is pending or failed, or its lease ends before then. -/
def freeBefore (horizon : Timestamp) (x : OutboxRow) : Bool :=
  x.status = .pending || x.status = .failed ||
    (x.status = .leased && x.leasedUntil.any (· < horizon))

/-- The rows of the workspace before `r` that can be handed out before `horizon`. -/
def rowsAhead (r : OutboxRow) (horizon : Timestamp) (db : Db) : List OutboxRow :=
  db.outbox.rows.filter (fun x =>
    x.workspaceId = r.workspaceId && decide (dueKey x < dueKey r) && freeBefore horizon x)

namespace OutboxStep

/-- The clocks of the calls lie between `since` and `horizon`, the leases last until `horizon`, and a row
that is created in the workspace or postponed comes after `r`. -/
def Within (r : OutboxRow) (since horizon : Timestamp) : OutboxStep → Prop
  | create call _ => call.command.workspaceId = r.workspaceId →
      dueKey r < toLex (call.event.occurredAt, call.generated.outboxId)
  | outbox (.lease call _) => since ≤ call.now ∧ call.now < horizon ∧ horizon ≤ call.leaseUntil
  | outbox (.mark (.delivered _ _ _ _ now) _) => since ≤ now
  | outbox (.mark (.failed _ _ failure) _) =>
      since ≤ failure.now ∧ r.availableAt < failure.now + failure.retryBackoff
  | cleanup _ _ _ _ => True
  | elsewhere _ => True

instance (r : OutboxRow) (since horizon : Timestamp) :
    DecidablePred (OutboxStep.Within r since horizon)
  | create _ _ => inferInstanceAs (Decidable (_ → _))
  | outbox (.lease _ _) => inferInstanceAs (Decidable (_ ∧ _))
  | outbox (.mark (.delivered _ _ _ _ now) _) => inferInstanceAs (Decidable (since ≤ now))
  | outbox (.mark (.failed _ _ _) _) => inferInstanceAs (Decidable (_ ∧ _))
  | cleanup _ _ _ _ => inferInstanceAs (Decidable True)
  | elsewhere _ => inferInstanceAs (Decidable True)

def HandsOut (codec : Codec) (outboxId : Uuid) (db : Db) (step : OutboxStep) : Prop :=
  ∃ call env batch, step = .outbox (.lease call env) ∧
    (leaseOutboxBatch codec call env db).1 = .ok batch ∧ ∃ m ∈ batch, m.id = outboxId

def places (codec : Codec) (workspaceId : Uuid) (db : Db) : OutboxStep → ℕ
  | outbox (.lease call env) =>
      if call.auth.workspaceId = workspaceId then
        match (leaseOutboxBatch codec call env db).1 with
        | .ok _ => call.maxItems.toNat
        | .error _ => 0
      else 0
  | _ => 0

end OutboxStep

/-! ## What one step does to the rows ahead -/

section Steps

variable {codec : Codec} {r : OutboxRow} {since horizon : Timestamp} {db db' : Db}

theorem Eligible.mono {workspaceId : Uuid} {now later : Timestamp} (h : Eligible workspaceId now r)
    (hle : now ≤ later) : Eligible workspaceId later r := by
  obtain ⟨hws, ⟨hstatus, hdue⟩ | ⟨hstatus, leasedUntil, huntil, hdue⟩⟩ := h
  · exact ⟨hws, Or.inl ⟨hstatus, hdue.trans hle⟩⟩
  · exact ⟨hws, Or.inr ⟨hstatus, leasedUntil, huntil, hdue.trans hle⟩⟩

theorem Eligible.freeBefore {workspaceId : Uuid} {now : Timestamp} (h : Eligible workspaceId now r)
    (hlt : now < horizon) : freeBefore horizon r = true := by
  obtain ⟨_, ⟨hstatus | hstatus, _⟩ | ⟨hstatus, leasedUntil, huntil, hdue⟩⟩ := h
  · simp [OutboxRepository.freeBefore, hstatus]
  · simp [OutboxRepository.freeBefore, hstatus]
  · simp [OutboxRepository.freeBefore, hstatus, huntil, lt_of_le_of_lt hdue hlt]

theorem mem_rowsAhead {x : OutboxRow} : x ∈ rowsAhead r horizon db ↔
    x ∈ db.outbox ∧ x.workspaceId = r.workspaceId ∧ dueKey x < dueKey r ∧
      freeBefore horizon x = true := by
  simp [rowsAhead, Table.mem_def, and_assoc]

theorem nodup_rowsAhead : (rowsAhead r horizon db).Nodup := db.outbox.nodup_rows.filter _

theorem rowsAhead_length_le (h : ∀ x ∈ rowsAhead r horizon db', x ∈ db.outbox) :
    (rowsAhead r horizon db').length ≤ (rowsAhead r horizon db).length := by
  refine (List.subperm_of_subset nodup_rowsAhead (fun x hx => ?_)).length_le
  exact mem_rowsAhead.mpr ⟨h x hx, (mem_rowsAhead.mp hx).2⟩

/-- A lease call that passes over the row hands out as many rows ahead of it as it has places. -/
theorem rowsAhead_of_passedOver {call : LeaseCall} {env : Env} {batch : List OutboxMessage}
    (h : leaseOutboxBatch codec call env db = (.ok batch, db')) (hr : r ∈ db.outbox)
    (hws : call.auth.workspaceId = r.workspaceId) (heligible : Eligible r.workspaceId call.now r)
    (hnow : call.now < horizon) (huntil : horizon ≤ call.leaseUntil)
    (hpassed : r ∉ call.selected db) :
    (rowsAhead r horizon db').length + call.maxItems.toNat ≤ (rowsAhead r horizon db).length := by
  have hleast := call.selected_least db
  rw [hws] at hleast
  have hin : r ∈ eligibleRows db r.workspaceId call.now :=
    List.mem_filter.mpr ⟨hr, decide_eq_true heligible⟩
  have hfull : (call.selected db).length = call.maxItems.toNat := by
    have hlength := hleast.length
    by_contra hne
    have hall : (eligibleRows db r.workspaceId call.now).length ≤ (call.selected db).length := by
      omega
    have hperm := (List.subperm_of_subset hleast.nodup hleast.subset).perm_of_length_le hall
    exact hpassed (hperm.mem_iff.mpr hin)
  have hselected : ∀ x ∈ call.selected db, x ∈ rowsAhead r horizon db := by
    intro x hx
    obtain ⟨hxdb, hxel⟩ := List.mem_filter.mp (hleast.subset hx)
    have hxel := of_decide_eq_true hxel
    exact mem_rowsAhead.mpr ⟨hxdb, hxel.1, hleast.before x hx r hin hpassed, hxel.freeBefore hnow⟩
  -- what the call has leased is out of reach until `horizon`
  have hkept : ∀ x ∈ rowsAhead r horizon db', x ∈ db.outbox ∧ x ∉ call.selected db := by
    intro x hx
    obtain ⟨hxdb, _, _, hfree⟩ := mem_rowsAhead.mp hx
    rcases (mem_of_leaseOutboxBatch h x).mp hxdb with ⟨y, _, rfl⟩ | hold
    · simp [OutboxRepository.freeBefore, LeaseCall.leased, not_lt.mpr huntil] at hfree
    · exact hold
  have hdisjoint : (rowsAhead r horizon db' ++ call.selected db).Nodup :=
    List.nodup_append'.mpr ⟨nodup_rowsAhead, hleast.nodup, fun x hx hx' => (hkept x hx).2 hx'⟩
  have hsub : rowsAhead r horizon db' ++ call.selected db ⊆ rowsAhead r horizon db := by
    intro x hx
    rcases List.mem_append.mp hx with hx | hx
    · exact mem_rowsAhead.mpr ⟨(hkept x hx).1, (mem_rowsAhead.mp hx).2⟩
    · exact hselected x hx
  have hle := (List.subperm_of_subset hdisjoint hsub).length_le
  rwa [List.length_append, hfull] at hle

theorem rowsAhead_lease {call : LeaseCall} {env : Env} (hr : r ∈ db.outbox)
    (heligible : Eligible r.workspaceId since r)
    (hwithin : (OutboxStep.outbox (.lease call env)).Within r since horizon)
    (hnot : ¬(OutboxStep.outbox (.lease call env)).HandsOut codec r.id db) :
    r ∈ (leaseOutboxBatch codec call env db).2.outbox ∧
      (rowsAhead r horizon (leaseOutboxBatch codec call env db).2).length +
        (OutboxStep.outbox (.lease call env)).places codec r.workspaceId db ≤
          (rowsAhead r horizon db).length := by
  obtain ⟨hsince, hnow, huntil⟩ := hwithin
  cases hlease : leaseOutboxBatch codec call env db with
  | mk result db' =>
      cases result with
      | error e =>
          have hsame : db' = db := by
            rcases leaseOutboxBatch_cases codec call env db with ⟨e', he⟩ | ⟨_, _, he, _⟩
            · exact (congrArg Prod.snd (hlease.symm.trans he)).trans rfl
            · cases congrArg Prod.fst (hlease.symm.trans he)
          subst hsame
          refine ⟨hr, ?_⟩
          simp [OutboxStep.places, hlease]
      | ok batch =>
          have hpassed : r ∉ call.selected db := by
            intro hsel
            refine hnot ⟨call, env, batch, rfl, by rw [hlease], call.message (call.leased r), ?_, rfl⟩
            exact (leaseOutboxBatch_perm hlease).mem_iff.mpr
              (List.mem_map_of_mem (f := call.message ∘ call.leased) hsel)
          refine ⟨(mem_of_leaseOutboxBatch hlease r).mpr (Or.inr ⟨hr, hpassed⟩), ?_⟩
          by_cases hws : call.auth.workspaceId = r.workspaceId
          · have hlower := rowsAhead_of_passedOver hlease hr hws (heligible.mono hsince) hnow huntil
              hpassed
            simpa [OutboxStep.places, hws, hlease] using hlower
          · have hle : (rowsAhead r horizon db').length ≤ (rowsAhead r horizon db).length := by
              refine rowsAhead_length_le (fun x hx => ?_)
              obtain ⟨hxdb, hxws, _⟩ := mem_rowsAhead.mp hx
              rcases (mem_of_leaseOutboxBatch hlease x).mp hxdb with ⟨y, hy, rfl⟩ | hold
              · obtain ⟨_, hyel⟩ := List.mem_filter.mp ((call.selected_least db).subset hy)
                have hyws : y.workspaceId = call.auth.workspaceId := (of_decide_eq_true hyel).1
                exact absurd (hyws.symm.trans hxws) hws
              · exact hold.1
            simpa [OutboxStep.places, hws] using hle

theorem Eligible.not_guarded {mark : LeaseTransition} (h : Eligible r.workspaceId since r)
    (hsince : since ≤ mark.now) : mark.guard r = false := by
  rw [Bool.eq_false_iff]
  intro hguard
  obtain ⟨_, _, hheld⟩ := LeaseTransition.guard_iff.mp hguard
  simp only [heldBy, Bool.and_eq_true, decide_eq_true_eq, Option.any_eq_true] at hheld
  obtain ⟨⟨⟨hleased, _⟩, _⟩, u, hu, hlive⟩ := hheld
  obtain ⟨_, ⟨hstatus | hstatus, _⟩ | ⟨_, v, hv, hdue⟩⟩ := h
  · cases hleased.symm.trans hstatus
  · cases hleased.symm.trans hstatus
  · cases hu.symm.trans hv
    exact absurd (hdue.trans hsince) (not_le.mpr hlive)

theorem not_ahead_of_written {mark : OutboxMark} {env : Env} {x : OutboxRow}
    (hwithin : (OutboxStep.outbox (.mark mark env)).Within r since horizon)
    (hx : dueKey (mark.transition.written x) < dueKey r) :
    freeBefore horizon (mark.transition.written x) = false := by
  cases mark with
  | delivered auth outboxId leaseToken leaseOwner now => rfl
  | failed auth outboxId failure =>
      change dueKey ((failedMark auth outboxId failure).written x) < dueKey r at hx
      change freeBefore horizon ((failedMark auth outboxId failure).written x) = false
      rw [written_failedMark] at hx ⊢
      by_cases hdead : failure.deadLetterNow x.attempts = true
      · rw [if_pos hdead]
        rfl
      · rw [if_neg hdead] at hx
        have hle : failure.now + failure.retryBackoff ≤ r.availableAt := by
          rcases (Prod.Lex.toLex_lt_toLex.mp hx) with hlt | ⟨heq, _⟩
          · exact hlt.le
          · exact heq.le
        exact absurd hwithin.2 (not_lt.mpr hle)

theorem rowsAhead_mark {mark : OutboxMark} {env : Env} (hr : r ∈ db.outbox)
    (heligible : Eligible r.workspaceId since r)
    (hwithin : (OutboxStep.outbox (.mark mark env)).Within r since horizon) :
    r ∈ (mark.run codec env db).2.outbox ∧
      (rowsAhead r horizon (mark.run codec env db).2).length ≤ (rowsAhead r horizon db).length := by
  have hsince : since ≤ mark.transition.now := by
    cases mark with
    | delivered => exact hwithin
    | failed => exact hwithin.1
  rw [mark.run_eq]
  rcases LeaseTransition.run_cases codec mark.transition env db with
    ⟨e, he⟩ | ⟨y, hy, hguard, _, v, he, _⟩
  · rw [he]
    exact ⟨hr, le_rfl⟩
  · have hne : r.id ≠ mark.transition.outboxId := by
      intro hid
      rw [Table.eq_of_key_eq hy hr ((LeaseTransition.guard_iff.mp hguard).2.1.trans hid.symm),
        heligible.not_guarded hsince] at hguard
      cases hguard
    refine ⟨?_, rowsAhead_length_le (fun x hx => ?_)⟩
    · rw [he]
      exact (LeaseTransition.mem_run_of_ne he hne).mpr hr
    · obtain ⟨hxdb, _, hbefore, hfree⟩ := mem_rowsAhead.mp hx
      rw [he] at hxdb
      obtain ⟨z, hz, rfl⟩ := (LeaseTransition.mem_run_iff x he).mp hxdb
      by_cases hid : z.id = mark.transition.outboxId
      · rw [if_pos hid] at hbefore hfree
        rw [not_ahead_of_written hwithin hbefore] at hfree
        cases hfree
      · rwa [if_neg hid]

theorem rowsAhead_create {call : IssueRepository.CreateIssueCall} {env : Env} (hr : r ∈ db.outbox)
    (hwithin : (OutboxStep.create call env).Within r since horizon) :
    r ∈ ((OutboxStep.create call env).run codec db).outbox ∧
      (rowsAhead r horizon ((OutboxStep.create call env).run codec db)).length ≤
        (rowsAhead r horizon db).length := by
  rw [OutboxStep.run]
  rcases IssueRepository.createIssueTransactional_cases codec call env db with
    ⟨e, he, _⟩ | ⟨row, _, _, he⟩ | ⟨db', hfresh, he⟩
  · rw [he]
    exact ⟨hr, le_rfl⟩
  · rw [he]
    exact ⟨hr, le_rfl⟩
  · rw [he]
    have hmem := (Table.insert?_eq_some hfresh.outbox).2.2
    refine ⟨(hmem r).mpr (Or.inr hr), rowsAhead_length_le (fun x hx => ?_)⟩
    obtain ⟨hxdb, hxws, hbefore, _⟩ := mem_rowsAhead.mp hx
    rcases (hmem x).mp hxdb with rfl | hold
    · exact absurd hbefore (lt_asymm (hwithin hxws))
    · exact hold

theorem rowsAhead_cleanup {auth : AuthContext} {deliveredBefore deadLetterBefore : Timestamp}
    {env : Env} (hr : r ∈ db.outbox) (heligible : Eligible r.workspaceId since r) :
    r ∈ ((OutboxStep.cleanup auth deliveredBefore deadLetterBefore env).run codec db).outbox ∧
      (rowsAhead r horizon
        ((OutboxStep.cleanup auth deliveredBefore deadLetterBefore env).run codec db)).length ≤
          (rowsAhead r horizon db).length := by
  have hkept : isExpiredOutbox auth.workspaceId deliveredBefore deadLetterBefore r = false := by
    obtain ⟨_, ⟨hstatus | hstatus, _⟩ | ⟨hstatus, _⟩⟩ := heligible <;>
      simp [isExpiredOutbox, hstatus]
  rw [OutboxStep.run]
  rcases cleanupOutbox_cases codec auth deliveredBefore deadLetterBefore env db with
    ⟨e, he⟩ | ⟨n, he⟩
  · rw [he]
    exact ⟨hr, le_rfl⟩
  · rw [he]
    refine ⟨Table.mem_filter.mpr ⟨hr, by rw [hkept]; rfl⟩, rowsAhead_length_le (fun x hx => ?_)⟩
    exact (Table.mem_filter.mp (mem_rowsAhead.mp hx).1).1

/-- A step that does not hand out the row leaves it where it is and takes its places from the rows
ahead. -/
theorem rowsAhead_step {step : OutboxStep} (hr : r ∈ db.outbox)
    (heligible : Eligible r.workspaceId since r) (hwithin : step.Within r since horizon)
    (hnot : ¬step.HandsOut codec r.id db) :
    r ∈ (step.run codec db).outbox ∧
      (rowsAhead r horizon (step.run codec db)).length + step.places codec r.workspaceId db ≤
        (rowsAhead r horizon db).length := by
  cases step with
  | create call env => exact rowsAhead_create hr hwithin
  | outbox call =>
      cases call with
      | lease call env => exact rowsAhead_lease hr heligible hwithin hnot
      | mark mark env => exact rowsAhead_mark hr heligible hwithin
  | cleanup auth deliveredBefore deadLetterBefore env => exact rowsAhead_cleanup hr heligible
  | elsewhere db' => exact ⟨hr, le_rfl⟩

end Steps

/-- Over a period in which no lease runs out and nothing comes in front of it, an eligible row has been
handed out as soon as the lease calls of its workspace have asked for more rows than are ahead of it. -/
theorem handedOut_of_places (codec : Codec) {db db' : Db} (r : OutboxRow) (since horizon : Timestamp)
    (steps : List OutboxStep) (hr : r ∈ db.outbox) (heligible : Eligible r.workspaceId since r)
    (hrun : OutboxRun codec db steps db') (hwithin : ∀ step ∈ steps, step.Within r since horizon)
    (hplaces : (rowsAhead r horizon db).length <
      (Run.trace (fun db step => some (OutboxStep.run codec step db))
        (fun db step => [step.places codec r.workspaceId db]) db steps).sum) :
    Run.Occurs (fun db step => some (OutboxStep.run codec step db))
      (fun db step _ => step.HandsOut codec r.id db) db steps := by
  have hstep : ∀ (s : Db) (step : OutboxStep) (t : Db), r ∈ s.outbox →
      (step.Within r since horizon ∧ ¬step.HandsOut codec r.id s) →
      some (step.run codec s) = some t → r ∈ t.outbox ∧
        (rowsAhead r horizon t).length + step.places codec r.workspaceId s ≤
          (rowsAhead r horizon s).length := by
    rintro s step t hs ⟨hstep, hnot⟩ ⟨⟩
    exact rowsAhead_step hs heligible hstep hnot
  rcases hrun.along_or_occurs (Q := fun db step => step.HandsOut codec r.id db) with hpassed | hoccurs
  · have halong := hpassed.mono (fun step hmem _ hnot => And.intro (hwithin step hmem) hnot)
    have hcounted := Run.measure_trace_le hstep hrun halong hr
    exact absurd hcounted.2 (by omega)
  · exact hoccurs

/-- Two calls for two rows each have asked for more than the rows 7 and 10 that are ahead of row 5. -/
theorem handedOut_of_places_queueDb :
    Run.Occurs (fun db step => some (OutboxStep.run Codec.unary step db))
      (fun db step _ => step.HandsOut Codec.unary 5 db) queueDb
      [.outbox (.lease queueCall .quiet), .outbox (.lease { queueCall with leaseToken := 8 } .quiet)] :=
  handedOut_of_places Codec.unary { dueRow 5 15 with availableAt := seconds 3 } (seconds 10)
    (seconds 40)
    [.outbox (.lease queueCall .quiet), .outbox (.lease { queueCall with leaseToken := 8 } .quiet)]
    List.mem_cons_self (by decide) (.cons rfl (.cons rfl (.nil _))) (by decide) (by decide)

end Dandori.OutboxRepository
