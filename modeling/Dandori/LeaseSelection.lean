import Dandori.LeastItems
import Dandori.OutboxWellFormed

/-!
# Which rows a lease call hands out

Of the eligible rows of its workspace a lease call hands out the first in the order of availability,
as many as its limit allows, and it writes nothing but the lease into them. The UPDATE that returns
the batch promises no order, so the batch is compared with its rows up to a permutation.

Two results follow for the next calls. A row handed out at `now` for a positive time is not due at
`now`, and a row whose failure has been recorded is not due before its backoff is over. The second one
is carried through a run by the invariant `Waiting`, which ends when a call that comes late enough
hands the row out again or a cleanup deletes it.
-/

namespace Dandori.OutboxRepository

/-- A row of the workspace that is pending or failed and available at `now`, or leased with a lease
that has ended by `now`. -/
def Eligible (workspaceId : Uuid) (now : Timestamp) (r : OutboxRow) : Prop :=
  r.workspaceId = workspaceId ∧
    (((r.status = .pending ∨ r.status = .failed) ∧ r.availableAt ≤ now) ∨
      (r.status = .leased ∧ ∃ leasedUntil, r.leasedUntil = some leasedUntil ∧ leasedUntil ≤ now))

theorem isCandidate_iff {workspaceId : Uuid} {now : Timestamp} {r : OutboxRow} :
    isCandidate workspaceId now r = true ↔ Eligible workspaceId now r := by
  simp only [isCandidate, Eligible, Bool.and_eq_true, Bool.or_eq_true, decide_eq_true_eq,
    Option.any_eq_true]

instance (workspaceId : Uuid) (now : Timestamp) : DecidablePred (Eligible workspaceId now) :=
  fun _ => decidable_of_iff _ isCandidate_iff

def eligibleRows (db : Db) (workspaceId : Uuid) (now : Timestamp) : List OutboxRow :=
  db.outbox.rows.filter (fun r => Eligible workspaceId now r)

/-- The order of availability; the id decides between rows that become available together. -/
def dueKey (r : OutboxRow) : Timestamp ×ₗ Uuid := toLex (r.availableAt, r.id)

/-- The step ends the wait of a failed row for `due`: it is a lease call at `due` or later that hands
the row out, or it deletes the row. -/
def OutboxStep.EndsWait (codec : Codec) (outboxId : Uuid) (due : Timestamp) (db : Db)
    (step : OutboxStep) : Prop :=
  (∃ call env batch, step = .outbox (.lease call env) ∧ due ≤ call.now ∧
    (leaseOutboxBatch codec call env db).1 = .ok batch ∧ ∃ m ∈ batch, m.id = outboxId) ∨
  ∀ r ∈ (step.run codec db).outbox, r.id ≠ outboxId

section Selection

variable {codec : Codec} {call : LeaseCall} {env : Env} {db db' : Db} {r : OutboxRow}
  {batch : List OutboxMessage}

theorem dueBefore_iff (r s : OutboxRow) : dueBefore r s ↔ dueKey r ≤ dueKey s := by
  simp only [dueBefore, dueKey, Prod.Lex.toLex_le_toLex]

def LeaseCall.selected (call : LeaseCall) (db : Db) : List OutboxRow :=
  ((eligibleRows db call.auth.workspaceId call.now).insertionSort dueBefore).take call.maxItems.toNat

theorem LeaseCall.candidates_eq (call : LeaseCall) (db : Db) :
    call.candidates db.outbox.rows = (call.selected db).map OutboxRow.id := by
  have hcond : isCandidate call.auth.workspaceId call.now =
      fun r => decide (Eligible call.auth.workspaceId call.now r) := by
    funext r
    rw [Bool.eq_iff_iff, isCandidate_iff, decide_eq_true_eq]
  unfold candidates selected eligibleRows
  rw [hcond]

theorem LeaseCall.selected_least (call : LeaseCall) (db : Db) :
    Least dueKey call.maxItems.toNat (eligibleRows db call.auth.workspaceId call.now)
      (call.selected db) := by
  refine Least.take_insertionSort dueBefore_iff ?_
  have hids := db.outbox.nodup_keys.sublist
    ((List.filter_sublist (p := fun r => Eligible call.auth.workspaceId call.now r)).map OutboxRow.id)
  refine List.Nodup.of_map (fun k : Timestamp ×ₗ Uuid => (ofLex k).2) ?_
  rw [List.map_map]
  exact hids

theorem LeaseCall.mem_of_selected (h : r ∈ call.selected db) : r ∈ db.outbox :=
  List.mem_of_mem_filter ((call.selected_least db).subset h)

theorem LeaseCall.mem_candidates_iff (hr : r ∈ db.outbox) :
    r.id ∈ call.candidates db.outbox.rows ↔ r ∈ call.selected db := by
  rw [candidates_eq]
  constructor
  · intro h
    obtain ⟨x, hx, hid⟩ := List.mem_map.mp h
    rwa [← Table.eq_of_key_eq (mem_of_selected hx) hr hid]
  · exact fun h => List.mem_map_of_mem h

/-- The rows that the UPDATE stamps are the selected ones, in the order of the table. -/
theorem LeaseCall.stamped_perm (call : LeaseCall) (db : Db) :
    (db.outbox.rows.filter (fun r => decide (r.id ∈ call.candidates db.outbox.rows))).Perm
      (call.selected db) := by
  refine (List.perm_ext_iff_of_nodup (db.outbox.nodup_rows.filter _)
    (call.selected_least db).nodup).mpr (fun r => ?_)
  rw [List.mem_filter, decide_eq_true_eq]
  constructor
  · rintro ⟨hr, hid⟩
    exact (mem_candidates_iff hr).mp hid
  · intro h
    exact ⟨mem_of_selected h, (mem_candidates_iff (mem_of_selected h)).mpr h⟩

/-- Every row under the lease of the call passes the CHECK constraints that it passed before. -/
theorem leaseOutboxBatch_commits (codec : Codec) (call : LeaseCall) (env : Env) (db : Db)
    (hitems : 0 ≤ call.maxItems) (henv : allowed env.faults 4 = true) :
    ∃ batch db', leaseOutboxBatch codec call env db = (.ok batch, db') := by
  obtain ⟨v, hv⟩ : ∃ v, db.outbox.update? (fun r => decide (r.id ∈ call.candidates db.outbox.rows))
      call.leased call.update.key_apply = some v :=
    Table.update?_isSome (fun r hr _ => db.outbox.checked r hr)
  exact ⟨_, _, leaseOutboxBatch_eq_ok.mpr ⟨henv, hitems, rfl, v, hv, rfl⟩⟩

theorem leaseOutboxBatch_perm (h : leaseOutboxBatch codec call env db = (.ok batch, db')) :
    batch.Perm ((call.selected db).map (call.message ∘ call.leased)) := by
  obtain ⟨_, _, rfl, _⟩ := leaseOutboxBatch_eq_ok.mp h
  exact (call.stamped_perm db).map _

theorem mem_of_leaseOutboxBatch (h : leaseOutboxBatch codec call env db = (.ok batch, db'))
    (s : OutboxRow) : s ∈ db'.outbox ↔
      (∃ r ∈ call.selected db, call.leased r = s) ∨ (s ∈ db.outbox ∧ s ∉ call.selected db) := by
  obtain ⟨_, _, _, v, hv, rfl⟩ := leaseOutboxBatch_eq_ok.mp h
  rw [Table.mem_of_update? hv]
  simp only [decide_eq_true_eq]
  constructor
  · rintro ⟨r, hr, rfl⟩
    by_cases hsel : r ∈ call.selected db
    · rw [if_pos ((LeaseCall.mem_candidates_iff hr).mpr hsel)]
      exact Or.inl ⟨r, hsel, rfl⟩
    · rw [if_neg (fun hid => hsel ((LeaseCall.mem_candidates_iff hr).mp hid))]
      exact Or.inr ⟨hr, hsel⟩
  · rintro (⟨r, hsel, rfl⟩ | ⟨hr, hsel⟩)
    · have hr := LeaseCall.mem_of_selected hsel
      exact ⟨r, hr, if_pos ((LeaseCall.mem_candidates_iff hr).mpr hsel)⟩
    · exact ⟨s, hr, if_neg (fun hid => hsel ((LeaseCall.mem_candidates_iff hr).mp hid))⟩

end Selection

/-! ## What the next calls pass over -/

section Waiting

variable {codec : Codec} {env : Env} {db db' : Db} {batch : List OutboxMessage} {outboxId : Uuid}
  {due : Timestamp}

/-- The row has failed and waits for `due`, or has failed for good. -/
def Waiting (outboxId : Uuid) (due : Timestamp) (db : Db) : Prop :=
  ∃ r ∈ db.outbox, r.id = outboxId ∧
    ((r.status = .failed ∧ due ≤ r.availableAt) ∨ r.status = .deadLetter)

theorem Waiting.status {r : OutboxRow}
    (h : (r.status = .failed ∧ due ≤ r.availableAt) ∨ r.status = .deadLetter) :
    r.status ≠ .leased ∧ ∀ workspaceId now, isCandidate workspaceId now r = true → due ≤ now := by
  constructor
  · rcases h with ⟨hstatus, _⟩ | hstatus <;> simp [hstatus]
  · intro workspaceId now hcandidate
    obtain ⟨_, hcases⟩ := isCandidate_iff.mp hcandidate
    rcases h with ⟨hstatus, hdue⟩ | hstatus
    · simp only [hstatus, reduceCtorEq, or_true, true_and, false_and, or_false] at hcases
      exact hdue.trans hcases
    · simp [hstatus] at hcases

/-- A lease call keeps a waiting row or hands it out when it is due. -/
theorem Waiting.lease (h : Waiting outboxId due db) (call : LeaseCall)
    (hend : ¬(OutboxStep.outbox (.lease call env)).EndsWait codec outboxId due db) :
    Waiting outboxId due (leaseOutboxBatch codec call env db).2 := by
  obtain ⟨r, hr, rfl, hstatus⟩ := h
  rcases leaseOutboxBatch_cases codec call env db with ⟨e, he⟩ | ⟨ids, v, he, hids, hv⟩
  · rw [he]
    exact ⟨r, hr, rfl, hstatus⟩
  · rw [he]
    by_cases hin : r.id ∈ ids
    · have hdue := (Waiting.status hstatus).2 _ _ (hids r hr hin)
      refine absurd (Or.inl ⟨call, env, _, rfl, hdue, congrArg Prod.fst he,
        call.message (call.leased r), ?_, rfl⟩) hend
      exact List.mem_map_of_mem (List.mem_filter.mpr ⟨hr, decide_eq_true hin⟩)
    · exact ⟨r, (hv r).mpr ⟨r, hr, if_neg hin⟩, rfl, hstatus⟩

theorem Waiting.mark (h : Waiting outboxId due db) (mark : OutboxMark) :
    Waiting outboxId due (mark.run codec env db).2 := by
  obtain ⟨r, hr, rfl, hstatus⟩ := h
  rw [mark.run_eq]
  rcases LeaseTransition.run_cases codec mark.transition env db with
    ⟨e, he⟩ | ⟨x, hx, hguard, _, v, he, _⟩
  · rw [he]
    exact ⟨r, hr, rfl, hstatus⟩
  · have hne : r.id ≠ mark.transition.outboxId := by
      intro hid
      rw [Table.eq_of_key_eq hr hx (hid.trans (LeaseTransition.guard_iff.mp hguard).2.1.symm)]
        at hstatus
      exact (Waiting.status hstatus).1 (status_of_guard hguard)
    rw [he]
    exact ⟨r, (LeaseTransition.mem_run_of_ne he hne).mpr hr, rfl, hstatus⟩

theorem Waiting.create (h : Waiting outboxId due db) (call : IssueRepository.CreateIssueCall) :
    Waiting outboxId due (IssueRepository.createIssueTransactional codec call env db).2 := by
  rcases IssueRepository.createIssueTransactional_cases codec call env db with
    ⟨e, he, _⟩ | ⟨row, _, _, he⟩ | ⟨db₁, hfresh, he⟩
  · rwa [he]
  · rwa [he]
  · rw [he]
    obtain ⟨r, hr, hid, hstatus⟩ := h
    exact ⟨r, ((Table.insert?_eq_some hfresh.outbox).2.2 r).mpr (Or.inr hr), hid, hstatus⟩

theorem Waiting.cleanup (h : Waiting outboxId due db) {auth : AuthContext}
    {deliveredBefore deadLetterBefore : Timestamp}
    (hend : ¬(OutboxStep.cleanup auth deliveredBefore deadLetterBefore env).EndsWait codec outboxId due
      db) :
    Waiting outboxId due (cleanupOutbox codec auth deliveredBefore deadLetterBefore env db).2 := by
  obtain ⟨r, hr, rfl, hstatus⟩ := h
  rcases cleanupOutbox_cases codec auth deliveredBefore deadLetterBefore env db with
    ⟨e, he⟩ | ⟨n, he⟩
  · rw [he]
    exact ⟨r, hr, rfl, hstatus⟩
  · cases hexpired : isExpiredOutbox auth.workspaceId deliveredBefore deadLetterBefore r with
    | false =>
        rw [he]
        exact ⟨r, Table.mem_filter.mpr ⟨hr, by rw [hexpired]; rfl⟩, rfl, hstatus⟩
    | true =>
        refine absurd (Or.inr fun x hx hid => ?_) hend
        rw [OutboxStep.run, he] at hx
        obtain ⟨hx, hkept⟩ := Table.mem_filter.mp hx
        rw [Table.eq_of_key_eq hx hr hid, hexpired] at hkept
        cases hkept

theorem Waiting.step {step : OutboxStep} (h : Waiting outboxId due db)
    (hend : ¬step.EndsWait codec outboxId due db) : Waiting outboxId due (step.run codec db) := by
  cases step with
  | create call env => exact h.create call
  | outbox call =>
      cases call with
      | lease call env => exact h.lease call hend
      | mark mark env => exact h.mark mark
  | cleanup auth deliveredBefore deadLetterBefore env => exact h.cleanup hend
  | elsewhere db' => exact h

theorem Waiting.run {steps : List OutboxStep} (h : Waiting outboxId due db)
    (hrun : OutboxRun codec db steps db')
    (hend : Run.Along (fun db step => some (OutboxStep.run codec step db))
      (fun s step => ¬step.EndsWait codec outboxId due s) db steps) : Waiting outboxId due db' := by
  refine hrun.invariant_along (P := Waiting outboxId due) ?_ hend h
  rintro s step t hs hstep ⟨⟩
  exact hs.step hstep

end Waiting

/-- A row in each state: only 5, 7 and 10 are eligible at 10 s, in the order 7, 10, 5. -/
def queueDb : Db :=
  { dueDb with
    outbox := ⟨[
      { dueRow 5 15 with availableAt := seconds 3 },
      { dueRow 6 16 with status := .failed, attempts := 1, availableAt := seconds 40 },
      { dueRow 7 17 with
        status := .leased
        leasedAt := some 0
        leasedUntil := some (seconds 5)
        leaseToken := some 2
        leaseOwner := some 8 },
      { dueRow 8 18 with
        status := .leased
        leasedAt := some 0
        leasedUntil := some (seconds 60)
        leaseToken := some 3
        leaseOwner := some 8 },
      { dueRow 9 19 with status := .delivered, publishedAt := some 0 },
      { dueRow 10 20 with availableAt := seconds 2 }], by decide, by decide⟩ }

def queueCall : LeaseCall := ⟨⟨1, 9⟩, seconds 10, seconds 30, 2, 7⟩

end Dandori.OutboxRepository
