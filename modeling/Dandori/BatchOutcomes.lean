import Dandori.FailedPublish

/-!
# The outcomes of a batch

The marks of a batch touch different rows, so each of them commits or is refused as it would alone
on the database in which the outcomes are applied. The loop stops at the first refused mark: the
messages before it get their marks, the messages behind it keep their leases.
-/

namespace Dandori.OutboxWorkerService

open OutboxRepository

def Completed.mark (config : OutboxWorkerConfig) (auth : AuthContext) (c : Completed) :
    LeaseTransition := outcomeMark config auth c.message c.outcome c.reading

/-- The mark of the outcome commits on `db`: no statement of it fails, the message is leased to the
actor, and the row is still held and passes the CHECK constraints with its new columns. -/
def Completed.Commits (config : OutboxWorkerConfig) (auth : AuthContext) (db : Db)
    (c : Completed) : Prop :=
  allowed c.reading.env.faults 5 = true ∧ c.message.leaseOwner = auth.actorId ∧
    ∃ r ∈ db.outbox, (c.mark config auth).guard r = true ∧
      OutboxRow.check ((c.mark config auth).written r) = true

/-- The message was published, its row is held, and its own mark would commit. -/
def Completed.Eligible (config : OutboxWorkerConfig) (auth : AuthContext) (db : Db)
    (c : Completed) : Prop := c.outcome = .ok () ∧ c.Commits config auth db

/-- Every eligible message of the batch has the status `delivered` afterwards. -/
def DeliversEligible (config : OutboxWorkerConfig) (auth : AuthContext) (completed : List Completed)
    (db db' : Db) : Prop :=
  ∀ c ∈ completed, c.Eligible config auth db →
    ∃ r ∈ db'.outbox, r.id = c.message.id ∧ r.status = .delivered

section Outcomes

variable {codec : Codec} {config : OutboxWorkerConfig} {auth : AuthContext} {c d : Completed}
  {cs : List Completed} {report : WorkerRunReport} {db db' : Db} {r : OutboxRow}

theorem Completed.commits_iff : c.Commits config auth db ↔
    ∃ db', (c.mark config auth).run codec c.reading.env db = (.ok (), db') := by
  constructor
  · rintro ⟨hfaults, howner, r, hr, hguard, hcheck⟩
    refine (LeaseTransition.run_commits_iff hr hguard).mpr ⟨hfaults, ?_, hcheck⟩
    simpa [mark] using howner
  · rintro ⟨db', h⟩
    obtain ⟨_, _, r, hr, hguard, _⟩ := LeaseTransition.run_eq_ok.mp h
    obtain ⟨hfaults, howner, hcheck⟩ := (LeaseTransition.run_commits_iff hr hguard).mp ⟨db', h⟩
    exact ⟨hfaults, by simpa [mark] using howner, r, hr, hguard, hcheck⟩

/-- A mark on another row makes no difference to whether a mark commits. -/
theorem Completed.commits_of_run (h : (d.mark config auth).run codec d.reading.env db = (.ok (), db'))
    (hne : c.message.id ≠ d.message.id) :
    c.Commits config auth db' ↔ c.Commits config auth db := by
  unfold Commits
  refine and_congr_right (fun _ => and_congr_right (fun _ => exists_congr (fun r => ?_)))
  refine and_congr_left (fun hr => LeaseTransition.mem_run_of_ne h ?_)
  have hid : r.id = c.message.id := by
    simpa [mark] using (LeaseTransition.guard_iff.mp hr.1).2.1
  rw [hid]
  simpa [mark] using hne

theorem applyOutcomes_of_commits (cs : List Completed) (report : WorkerRunReport)
    (hc : c.Commits config auth db) :
    ∃ db', (c.mark config auth).run codec c.reading.env db = (.ok (), db') ∧
      applyOutcomes codec config auth (c :: cs) report db =
        applyOutcomes codec config auth cs (reportOutcome config c.message c.outcome report) db' := by
  obtain ⟨db', h⟩ := Completed.commits_iff.mp hc
  refine ⟨db', h, ?_⟩
  rw [applyOutcomes, applyPublishOutcome_eq_ok.mpr ⟨h, rfl⟩]

theorem applyOutcomes_of_refused (hc : ¬c.Commits config auth db) :
    (applyOutcomes codec config auth (c :: cs) report db).2 = db := by
  rcases LeaseTransition.run_cases codec (c.mark config auth) c.reading.env db with
    ⟨e, he⟩ | ⟨_, _, _, _, v, he, _⟩
  · rw [applyOutcomes, applyPublishOutcome_of_error he]
  · exact absurd (Completed.commits_iff.mpr ⟨_, he⟩) hc

theorem applyOutcomes_mem_of_ne (hr : ∀ c ∈ cs, r.id ≠ c.message.id) (hmem : r ∈ db.outbox) :
    r ∈ (applyOutcomes codec config auth cs report db).2.outbox := by
  induction cs generalizing report db with
  | nil => exact hmem
  | cons c cs ih =>
      by_cases hc : c.Commits config auth db
      · obtain ⟨db', h, hrest⟩ := applyOutcomes_of_commits cs report hc
        rw [hrest]
        refine ih (fun d hd => hr d (List.mem_cons_of_mem c hd)) ?_
        refine (LeaseTransition.mem_run_of_ne h ?_).mpr hmem
        simpa [Completed.mark] using hr c List.mem_cons_self
      · rw [applyOutcomes_of_refused hc]
        exact hmem

/-- Behind committed marks only, an eligible message is delivered. -/
theorem applyOutcomes_delivers {xs ys : List Completed}
    (hnodup : ((xs ++ c :: ys).map (fun d => d.message.id)).Nodup)
    (hxs : ∀ d ∈ xs, d.Commits config auth db) (hc : c.Eligible config auth db) :
    ∃ r ∈ (applyOutcomes codec config auth (xs ++ c :: ys) report db).2.outbox,
      r.id = c.message.id ∧ r.status = .delivered := by
  induction xs generalizing report db with
  | nil =>
      obtain ⟨db', h, hrest⟩ := applyOutcomes_of_commits ys report hc.2
      obtain ⟨_, _, r, hr, hguard, _⟩ := LeaseTransition.run_eq_ok.mp h
      have hid := (LeaseTransition.guard_iff.mp hguard).2.1
      have hwritten : ((c.mark config auth).written r).id = c.message.id := by
        simpa [Completed.mark] using hid
      refine ⟨(c.mark config auth).written r, ?_, hwritten, ?_⟩
      · rw [List.nil_append, hrest]
        refine applyOutcomes_mem_of_ne (fun d hd => ?_) (LeaseTransition.written_mem h hr hid)
        rw [hwritten]
        rw [List.nil_append, List.map_cons, List.nodup_cons] at hnodup
        exact fun heq => hnodup.1 (List.mem_map.mpr ⟨d, hd, heq.symm⟩)
      · rw [Completed.mark, hc.1]
        rfl
  | cons x xs ih =>
      rw [List.cons_append, List.map_cons, List.nodup_cons] at hnodup
      have hne : ∀ d ∈ xs ++ c :: ys, d.message.id ≠ x.message.id := fun d hd heq =>
        hnodup.1 (List.mem_map.mpr ⟨d, hd, heq⟩)
      obtain ⟨db', h, hrest⟩ := applyOutcomes_of_commits (xs ++ c :: ys) report
        (hxs x List.mem_cons_self)
      rw [List.cons_append, hrest]
      refine ih hnodup.2 (fun d hd => ?_) ⟨hc.1, ?_⟩
      · rw [Completed.commits_of_run h (hne d (List.mem_append_left _ hd))]
        exact hxs d (List.mem_cons_of_mem x hd)
      · rw [Completed.commits_of_run h (hne c (List.mem_append_right _ List.mem_cons_self))]
        exact hc.2

/-- A row behind a refused mark stays as it is. -/
theorem applyOutcomes_stops {xs ys : List Completed}
    (hnodup : ((xs ++ c :: ys).map (fun d => d.message.id)).Nodup) (hd : d ∈ xs)
    (hrefused : ¬d.Commits config auth db) (hr : r ∈ db.outbox) (hid : r.id = c.message.id) :
    r ∈ (applyOutcomes codec config auth (xs ++ c :: ys) report db).2.outbox := by
  induction xs generalizing report db with
  | nil => cases hd
  | cons x xs ih =>
      rw [List.cons_append, List.map_cons, List.nodup_cons] at hnodup
      have hne : ∀ d ∈ xs ++ c :: ys, d.message.id ≠ x.message.id := fun d hd heq =>
        hnodup.1 (List.mem_map.mpr ⟨d, hd, heq⟩)
      by_cases hx : x.Commits config auth db
      · obtain ⟨db', h, hrest⟩ := applyOutcomes_of_commits (xs ++ c :: ys) report hx
        rw [List.cons_append, hrest]
        rcases List.mem_cons.mp hd with rfl | hd
        · exact absurd hx hrefused
        · refine ih hnodup.2 hd ?_ ?_
          · rwa [Completed.commits_of_run h (hne d (List.mem_append_left _ hd))]
          · refine (LeaseTransition.mem_run_of_ne h ?_).mpr hr
            rw [hid]
            simpa [Completed.mark] using hne c (List.mem_append_right _ List.mem_cons_self)
      · rw [List.cons_append, applyOutcomes_of_refused hx]
        exact hr

/-- Every eligible message is delivered exactly when no refused mark precedes one. -/
theorem applyOutcomes_deliversEligible_iff
    (hnodup : (cs.map (fun d => d.message.id)).Nodup) :
    DeliversEligible config auth cs db (applyOutcomes codec config auth cs report db).2 ↔
      ∀ xs c ys, cs = xs ++ c :: ys → c.Eligible config auth db →
        ∀ d ∈ xs, d.Commits config auth db := by
  constructor
  · rintro h xs c ys rfl hc d hd
    by_contra hrefused
    obtain ⟨r', hr', hid', hdelivered⟩ := h c (List.mem_append_right _ List.mem_cons_self) hc
    obtain ⟨_, _, r, hr, hguard, _⟩ := hc.2
    obtain ⟨_, hid, hheld⟩ := LeaseTransition.guard_iff.mp hguard
    have hid : r.id = c.message.id := by simpa [Completed.mark] using hid
    have hsame : r' = r := Table.eq_of_key_eq hr' (applyOutcomes_stops hnodup hd hrefused hr hid)
      (hid'.trans hid.symm)
    simp [heldBy, ← hsame, hdelivered] at hheld
  · intro h c hcs hc
    obtain ⟨xs, ys, rfl⟩ := List.append_of_mem hcs
    exact applyOutcomes_delivers hnodup (h xs c ys rfl hc) hc

end Outcomes

theorem publishBatch_messages {σ : Type} (registry : OutboxRegistry (StateM σ))
    (publisher : OutboxPublisher (StateM σ)) (reading : OutboxMessage → MarkEnv)
    (order : List OutboxMessage) (s : σ) :
    (publishBatch registry publisher reading order s).1.map Completed.message = order := by
  unfold publishBatch
  induction order generalizing s with
  | nil => rfl
  | cons message order ih =>
      rw [List.mapM_cons]
      exact congrArg (message :: ·) (ih _)

/-- Whatever the publishes of a leased batch answer, in whichever order they complete, and whichever
marks the database fails: all eligible messages are delivered exactly when no message whose own mark
is refused completes before an eligible one. -/
theorem processLeased_deliversEligible_iff {σ : Type} (codec : Codec) (config : OutboxWorkerConfig)
    (registry : OutboxRegistry (StateM σ)) (publisher : OutboxPublisher (StateM σ)) (call : LeaseCall)
    (env : Env) (db₀ db₁ : Db) (batch order : List OutboxMessage) (reading : OutboxMessage → MarkEnv)
    (report : WorkerRunReport) (db : Db) (s : σ)
    (hlease : leaseOutboxBatch codec call env db₀ = (.ok batch, db₁)) (horder : order.Perm batch) :
    DeliversEligible config call.auth (publishBatch registry publisher reading order s).1 db
        (processLeased codec config registry publisher reading call.auth order report db s).1.2 ↔
      ∀ xs c ys, (publishBatch registry publisher reading order s).1 = xs ++ c :: ys →
        c.Eligible config call.auth db → ∀ d ∈ xs, d.Commits config call.auth db := by
  refine applyOutcomes_deliversEligible_iff ?_
  have hids : (publishBatch registry publisher reading order s).1.map (fun d => d.message.id) =
      order.map OutboxMessage.id := by
    have hmessages := publishBatch_messages registry publisher reading order s
    rw [← congrArg (List.map OutboxMessage.id) hmessages, List.map_map]
    rfl
  rw [hids]
  exact (horder.map OutboxMessage.id).nodup_iff.mpr (leaseOutboxBatch_nodup hlease)

/-! ## A lost outcome -/

/-- Two rows that wait for their first publish. -/
def waitingDb : Db :=
  { refusedDb with
    outbox := ⟨[{ refusedRow with
        status := .pending, leasedAt := none, leasedUntil := none, leaseToken := none
        leaseOwner := none },
      { refusedRow with
        id := 6, eventId := 8
        status := .pending, leasedAt := none, leasedUntil := none, leaseToken := none
        leaseOwner := none }], by decide, by decide⟩ }

def waitingCall : LeaseCall where
  auth := ⟨1, 9⟩
  now := 0
  leaseFor := seconds 30
  maxItems := 32
  leaseToken := 7

def waitingBatch : List OutboxMessage :=
  [refusedMessage, { refusedMessage with id := 6, eventId := 8 }]

/-- The first BEGIN of the mark of row 5 fails, and nothing fails for row 6. -/
def firstMarkFails (message : OutboxMessage) : MarkEnv :=
  if message.id = 5 then ⟨⟨none, [true]⟩, 0, 0⟩ else quietReading

def leasedDb : Db := (leaseOutboxBatch Codec.unary waitingCall .quiet waitingDb).2

theorem waitingBatch_leased : leaseOutboxBatch Codec.unary waitingCall .quiet waitingDb =
    (.ok waitingBatch, leasedDb) := by rfl

def published : List Completed :=
  (publishBatch (defaultRegistry Codec.unary) (noopOutboxPublisher : OutboxPublisher (StateM Unit))
    firstMarkFails waitingBatch ()).1

/-- Both publishes succeed and the first mark fails: row 6 stays leased although its own mark would
commit. -/
theorem secondOutcome_lost :
    leaseOutboxBatch Codec.unary waitingCall .quiet waitingDb = (.ok waitingBatch, leasedDb) ∧
    ¬DeliversEligible .default waitingCall.auth published leasedDb
      (processLeased Codec.unary .default (defaultRegistry Codec.unary)
        (noopOutboxPublisher : OutboxPublisher (StateM Unit)) firstMarkFails waitingCall.auth
        waitingBatch .default leasedDb ()).1.2 := by
  refine ⟨waitingBatch_leased, fun h => ?_⟩
  have hheld : ∃ r ∈ leasedDb.outbox, r.id = 6 ∧ r.status = .leased ∧
      (deliveredMark waitingCall.auth 6 7 9 0).guard r = true ∧
      OutboxRow.check ((deliveredMark waitingCall.auth 6 7 9 0).written r) = true :=
    ⟨_, List.mem_cons_of_mem _ (List.mem_singleton.mpr rfl), rfl, rfl, rfl, rfl⟩
  obtain ⟨r, hr, hid, hleased, hguard, hcheck⟩ := hheld
  obtain ⟨r', hr', hid', hdelivered⟩ := h ⟨{ refusedMessage with id := 6, eventId := 8 }, .ok (),
    quietReading⟩ (List.mem_cons_of_mem _ (List.mem_singleton.mpr rfl))
    ⟨rfl, rfl, rfl, r, hr, hguard, hcheck⟩
  have hsame : r' = r := Table.eq_of_key_eq hr' hr (hid'.trans hid.symm)
  rw [hsame, hleased] at hdelivered
  cases hdelivered

theorem waitingBatch_deliversEligible_iff :
    (leaseOutboxBatch Codec.unary waitingCall .quiet waitingDb = (.ok waitingBatch, leasedDb) ∧
      waitingBatch.Perm waitingBatch) ∧
    (DeliversEligible .default waitingCall.auth published leasedDb
        (processLeased Codec.unary .default (defaultRegistry Codec.unary)
          (noopOutboxPublisher : OutboxPublisher (StateM Unit)) firstMarkFails waitingCall.auth
          waitingBatch .default leasedDb ()).1.2 ↔
      ∀ xs c ys, published = xs ++ c :: ys → c.Eligible .default waitingCall.auth leasedDb →
        ∀ d ∈ xs, d.Commits .default waitingCall.auth leasedDb) :=
  ⟨⟨waitingBatch_leased, .refl _⟩,
    processLeased_deliversEligible_iff Codec.unary .default (defaultRegistry Codec.unary)
      (noopOutboxPublisher : OutboxPublisher (StateM Unit)) waitingCall .quiet waitingDb leasedDb
      waitingBatch waitingBatch firstMarkFails .default leasedDb () waitingBatch_leased (.refl _)⟩

end Dandori.OutboxWorkerService
