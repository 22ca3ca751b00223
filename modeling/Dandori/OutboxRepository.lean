import Dandori.Session
import Mathlib.Data.List.Sort

/-!
# Leasing and marking outbox rows

A lease call hands out the due rows in order of availability and stamps them with one token, an
owner and an end. The two marks share one protocol: read the lease, compare the caller with the
authenticated actor, validate status, owner, token and end, then repeat the test in the predicate
of the UPDATE and insist that it changed one row. They differ in what the UPDATE writes.
-/

namespace Dandori.OutboxRepository

structure OutboxMessage where
  id : Uuid
  workspaceId : Uuid
  eventId : Uuid
  eventType : String
  aggregateType : String
  aggregateId : Uuid
  correlationId : Uuid
  payload : Value
  attempts : Int32
  leaseToken : Uuid
  leaseOwner : Uuid
  leasedUntil : Timestamp

inductive OutboxFailureClassification
  | transient
  | terminal
  deriving DecidableEq

structure OutboxFailureContext where
  classification : OutboxFailureClassification
  leaseToken : Uuid
  leaseOwner : Uuid
  now : Timestamp
  errorMessage : String
  maxAttempts : Int32
  retryBackoff : Duration

/-- The caller's `now`, lease length and batch size, and the token generated inside the call. -/
structure LeaseCall where
  auth : AuthContext
  now : Timestamp
  leaseFor : Duration
  maxItems : Int
  leaseToken : Uuid

def LeaseCall.leaseUntil (call : LeaseCall) : Timestamp := call.now + call.leaseFor

/-- The `candidates` condition: due rows, and leased rows whose lease has run out. -/
def isCandidate (workspaceId : Uuid) (now : Timestamp) (r : OutboxRow) : Bool :=
  r.workspaceId = workspaceId &&
    (((r.status = .pending || r.status = .failed) && r.availableAt ≤ now) ||
      (r.status = .leased && r.leasedUntil.any (· ≤ now)))

/-- `ORDER BY available_at, id`. -/
def dueBefore (r s : OutboxRow) : Prop :=
  r.availableAt < s.availableAt ∨ (r.availableAt = s.availableAt ∧ r.id ≤ s.id)

instance : DecidableRel dueBefore := fun _ _ => inferInstanceAs (Decidable (_ ∨ _))

def LeaseCall.leased (call : LeaseCall) (r : OutboxRow) : OutboxRow :=
  { r with
    status := .leased
    leasedAt := some call.now
    leasedUntil := some call.leaseUntil
    leaseToken := some call.leaseToken
    leaseOwner := some call.auth.actorId
    updatedAt := call.now }

def LeaseCall.update (call : LeaseCall) : TenantTable.outbox.RowUpdate where
  apply := call.leased
  key_apply _ := rfl
  tenant_apply _ := rfl
  conflicts_apply _ _ := rfl

/-- The columns of `RETURNING`, for a row the call has just leased. -/
def LeaseCall.message (call : LeaseCall) (r : OutboxRow) : OutboxMessage where
  id := r.id
  workspaceId := r.workspaceId
  eventId := r.eventId
  eventType := r.eventType
  aggregateType := r.aggregateType
  aggregateId := r.aggregateId
  correlationId := r.correlationId
  payload := r.payload
  attempts := r.attempts
  leaseToken := call.leaseToken
  leaseOwner := call.auth.actorId
  leasedUntil := call.leaseUntil

def LeaseCall.candidates (call : LeaseCall) (rows : List OutboxRow) : List Uuid :=
  (((rows.filter (isCandidate call.auth.workspaceId call.now)).insertionSort dueBefore).take
    call.maxItems.toNat).map OutboxRow.id

section Statements

variable (codec : Codec)

def leaseRows (call : LeaseCall) : Tx (List OutboxRow) :=
  statement .sqlx (fun s =>
    if call.maxItems < 0 then .error .negativeLimit
    else
      let visibleRows := s.db.outbox.rows.filter (TenantTable.outbox.visible codec s)
      TenantTable.outbox.updateRows codec (fun r => r.id ∈ call.candidates visibleRows)
        call.update s)

def leaseOutboxBatch (call : LeaseCall) (env : Env) (db : Db) :
    Except StoreError (List OutboxMessage) × Db :=
  transaction .sqlx env (do
    setWorkspaceContext .sqlx codec call.auth.workspaceId
    let rows ← leaseRows codec call
    return rows.map call.message) db

structure OutboxLeaseRow where
  status : String
  attempts : Int32
  leaseToken : Option Uuid
  leaseOwner : Option Uuid
  leasedUntil : Option Timestamp

def leaseOfRow (r : OutboxRow) : OutboxLeaseRow :=
  ⟨r.status.asStr, r.attempts, r.leaseToken, r.leaseOwner, r.leasedUntil⟩

def fetchLeaseForUpdate (workspaceId outboxId : Uuid) : Tx (Option OutboxLeaseRow) := do
  let rows ← TenantTable.outbox.select codec .sqlx (fun r =>
    r.workspaceId = workspaceId && r.id = outboxId)
  return rows.head?.map leaseOfRow

structure LeaseMetadata where
  workspaceId : Uuid
  outboxId : Uuid
  status : String
  storedToken : Option Uuid
  storedOwner : Option Uuid
  storedUntil : Option Timestamp

def validateLeaseTransition (metadata : LeaseMetadata) (expectedToken expectedOwner : Uuid)
    (now : Timestamp) : Except StoreError Unit :=
  let notLeased := .outboxNotLeased metadata.workspaceId metadata.outboxId metadata.status
  if metadata.status ≠ "leased" then .error notLeased
  else match metadata.storedOwner with
    | none => .error notLeased
    | some actualOwner =>
        if actualOwner ≠ expectedOwner then
          .error (.outboxLeaseOwnerMismatch metadata.workspaceId metadata.outboxId expectedOwner
            actualOwner)
        else match metadata.storedToken with
          | none => .error notLeased
          | some actualToken =>
              if actualToken ≠ expectedToken then
                .error (.outboxLeaseTokenMismatch metadata.workspaceId metadata.outboxId
                  expectedToken actualToken)
              else match metadata.storedUntil with
                | none => .error notLeased
                | some leasedUntil =>
                    if leasedUntil ≤ now then
                      .error (.outboxLeaseExpired metadata.workspaceId metadata.outboxId leasedUntil
                        now)
                    else .ok ()

/-- The row is leased under `token` by `owner` until after `now`. -/
def heldBy (token owner : Uuid) (now : Timestamp) (r : OutboxRow) : Bool :=
  r.status = .leased && r.leaseToken = some token && r.leaseOwner = some owner &&
    r.leasedUntil.any (now < ·)

/-- A mark of the row `outboxId` under a lease, with the columns it writes. -/
structure LeaseTransition where
  auth : AuthContext
  outboxId : Uuid
  leaseToken : Uuid
  leaseOwner : Uuid
  now : Timestamp
  update : OutboxLeaseRow → TenantTable.outbox.RowUpdate

def LeaseTransition.metadata (mark : LeaseTransition) (lease : OutboxLeaseRow) : LeaseMetadata where
  workspaceId := mark.auth.workspaceId
  outboxId := mark.outboxId
  status := lease.status
  storedToken := lease.leaseToken
  storedOwner := lease.leaseOwner
  storedUntil := lease.leasedUntil

def LeaseTransition.validate (mark : LeaseTransition) (lease : OutboxLeaseRow) :
    Except StoreError Unit :=
  validateLeaseTransition (mark.metadata lease) mark.leaseToken mark.leaseOwner mark.now

/-- The predicate of the UPDATE. -/
def LeaseTransition.guard (mark : LeaseTransition) (r : OutboxRow) : Bool :=
  r.workspaceId = mark.auth.workspaceId && r.id = mark.outboxId &&
    heldBy mark.leaseToken mark.leaseOwner mark.now r

/-- The protocol of `mark_outbox_delivered` and `mark_outbox_failed`. -/
def LeaseTransition.body (mark : LeaseTransition) : Tx Unit := do
  setWorkspaceContext .sqlx codec mark.auth.workspaceId
  let lease ← fetchLeaseForUpdate codec mark.auth.workspaceId mark.outboxId
  match lease with
  | none => throw (.outboxLeaseMissing mark.auth.workspaceId mark.outboxId)
  | some lease =>
      if mark.leaseOwner ≠ mark.auth.actorId then
        throw (.outboxLeaseOwnerMismatch mark.auth.workspaceId mark.outboxId mark.auth.actorId
          mark.leaseOwner)
      else match mark.validate lease with
        | .error e => throw e
        | .ok () => do
            let rows ← TenantTable.outbox.update codec .sqlx mark.guard (mark.update lease)
            if rows.length ≠ 1 then
              throw (.outboxUpdateNotSingleRow mark.auth.workspaceId mark.outboxId rows.length)
            else return ()

def LeaseTransition.run (mark : LeaseTransition) (env : Env) (db : Db) :
    Except StoreError Unit × Db :=
  transaction .sqlx env (mark.body codec) db

def deliveredUpdate (now : Timestamp) : TenantTable.outbox.RowUpdate where
  apply r := { r with
    status := .delivered
    publishedAt := some now
    leasedAt := none
    leasedUntil := none
    leaseToken := none
    leaseOwner := none
    updatedAt := now
    lastError := none }
  key_apply _ := rfl
  tenant_apply _ := rfl
  conflicts_apply _ _ := rfl

def deliveredMark (auth : AuthContext) (outboxId leaseToken leaseOwner : Uuid) (now : Timestamp) :
    LeaseTransition where
  auth := auth
  outboxId := outboxId
  leaseToken := leaseToken
  leaseOwner := leaseOwner
  now := now
  update _ := deliveredUpdate now

def markOutboxDelivered (auth : AuthContext) (outboxId leaseToken leaseOwner : Uuid)
    (now : Timestamp) : Env → Db → Except StoreError Unit × Db :=
  (deliveredMark auth outboxId leaseToken leaseOwner now).run codec

def OutboxFailureContext.deadLetterUpdate (failure : OutboxFailureContext) (nextAttempts : Int32) :
    TenantTable.outbox.RowUpdate where
  apply r := { r with
    status := .deadLetter
    attempts := nextAttempts
    availableAt := failure.now
    leasedAt := none
    leasedUntil := none
    leaseToken := none
    leaseOwner := none
    updatedAt := failure.now
    lastError := some failure.errorMessage }
  key_apply _ := rfl
  tenant_apply _ := rfl
  conflicts_apply _ _ := rfl

def OutboxFailureContext.failedUpdate (failure : OutboxFailureContext) (nextAttempts : Int32) :
    TenantTable.outbox.RowUpdate where
  apply r := { r with
    status := .failed
    attempts := nextAttempts
    availableAt := failure.now + failure.retryBackoff
    leasedAt := none
    leasedUntil := none
    leaseToken := none
    leaseOwner := none
    updatedAt := failure.now
    lastError := some failure.errorMessage }
  key_apply _ := rfl
  tenant_apply _ := rfl
  conflicts_apply _ _ := rfl

/-- `terminal || exhausted_budget`; `attempts + 1` wraps around at the end of `i32`. -/
def OutboxFailureContext.deadLetterNow (failure : OutboxFailureContext) (attempts : Int32) : Bool :=
  let nextAttempts := attempts + 1
  let exhaustedBudget := decide (failure.maxAttempts ≤ nextAttempts)
  let terminal := decide (failure.classification = .terminal)
  terminal || exhaustedBudget

def OutboxFailureContext.update (failure : OutboxFailureContext) (lease : OutboxLeaseRow) :
    TenantTable.outbox.RowUpdate :=
  let nextAttempts := lease.attempts + 1
  if failure.deadLetterNow lease.attempts then failure.deadLetterUpdate nextAttempts
  else failure.failedUpdate nextAttempts

def failedMark (auth : AuthContext) (outboxId : Uuid) (failure : OutboxFailureContext) :
    LeaseTransition where
  auth := auth
  outboxId := outboxId
  leaseToken := failure.leaseToken
  leaseOwner := failure.leaseOwner
  now := failure.now
  update := failure.update

def markOutboxFailed (auth : AuthContext) (outboxId : Uuid) (failure : OutboxFailureContext) :
    Env → Db → Except StoreError Unit × Db :=
  (failedMark auth outboxId failure).run codec

def isExpiredOutbox (workspaceId : Uuid) (deliveredBefore deadLetterBefore : Timestamp)
    (r : OutboxRow) : Bool :=
  r.workspaceId = workspaceId &&
    ((r.status = .delivered && r.publishedAt.any (· < deliveredBefore)) ||
      (r.status = .deadLetter && r.updatedAt < deadLetterBefore))

def cleanupOutbox (auth : AuthContext) (deliveredBefore deadLetterBefore : Timestamp) (env : Env)
    (db : Db) : Except StoreError ℕ × Db :=
  transaction .sqlx env (do
    setWorkspaceContext .sqlx codec auth.workspaceId
    TenantTable.outbox.delete codec .sqlx
      (isExpiredOutbox auth.workspaceId deliveredBefore deadLetterBefore)) db

def isExpiredRecord (workspaceId : Uuid) (expiresBefore : Timestamp) (r : IdempotencyRow) : Bool :=
  r.workspaceId = workspaceId && r.expiresAt < expiresBefore

def cleanupIdempotency (auth : AuthContext) (expiresBefore : Timestamp) (env : Env) (db : Db) :
    Except StoreError ℕ × Db :=
  transaction .sqlx env (do
    setWorkspaceContext .sqlx codec auth.workspaceId
    TenantTable.idempotency.delete codec .sqlx (isExpiredRecord auth.workspaceId expiresBefore)) db

end Statements

/-! ## What the calls do -/

section Spec

variable {codec : Codec} {env : Env} {db db' : Db}

theorem toInt_add_one_iff (a : Int32) : (a + 1).toInt = a.toInt + 1 ↔ a ≠ Int32.maxValue := by
  constructor
  · rintro h rfl
    revert h
    decide
  · intro h
    have hne : a.toInt ≠ 2 ^ 31 - 1 := fun heq => h (Int32.toInt.inj heq)
    have hlow := a.le_toInt
    have hhigh := a.toInt_lt
    rw [Int32.toInt_add, Int32.toInt_one]
    exact Int.bmod_eq_of_le (by omega) (by omega)

/-- In the integers too the budget is spent: the addition in `i32` never gives more. -/
theorem OutboxFailureContext.toInt_le_of_deadLetterNow {failure : OutboxFailureContext}
    {attempts : Int32} (h : failure.deadLetterNow attempts = true) :
    failure.classification = .terminal ∨ failure.maxAttempts.toInt ≤ attempts.toInt + 1 := by
  simp only [deadLetterNow, Bool.or_eq_true, decide_eq_true_eq] at h
  refine h.imp id (fun hle => ?_)
  have hadd : (attempts + 1).toInt ≤ attempts.toInt + 1 := by
    by_cases hmax : attempts = Int32.maxValue
    · subst hmax
      decide
    · exact ((toInt_add_one_iff attempts).mpr hmax).le
  exact (Int32.le_iff_toInt_le.mp hle).trans hadd

/-- A row of the table that the call lists is due. -/
theorem isCandidate_of_listed {call : LeaseCall} {r : OutboxRow} (hr : r ∈ db.outbox)
    (h : r.id ∈ call.candidates db.outbox.rows) :
    isCandidate call.auth.workspaceId call.now r = true := by
  obtain ⟨x, hx, hid⟩ := List.mem_map.mp h
  have hsorted := List.mem_of_mem_take hx
  obtain ⟨hrows, hcandidate⟩ :=
    List.mem_filter.mp ((List.perm_insertionSort dueBefore _).mem_iff.mp hsorted)
  rwa [Table.eq_of_key_eq hrows hr hid] at hcandidate

/-- The policy hides no candidate from the workspace of the call. -/
theorem candidates_visible {call : LeaseCall} {s : TxState}
    (hs : s.setting = some (codec.uuidText call.auth.workspaceId)) (rows : List OutboxRow) :
    call.candidates (rows.filter (TenantTable.outbox.visible codec s)) = call.candidates rows := by
  unfold LeaseCall.candidates
  rw [List.filter_filter]
  congr 4
  funext r
  cases hcand : isCandidate call.auth.workspaceId call.now r with
  | false => rfl
  | true =>
      simp only [isCandidate, Bool.and_eq_true, decide_eq_true_eq] at hcand
      exact (TenantTable.outbox.visible_iff codec hs).mpr hcand.1

theorem leaseRows_eq_ok {call : LeaseCall} {s t : TxState} {rows : List OutboxRow}
    (hs : s.setting = some (codec.uuidText call.auth.workspaceId)) :
    leaseRows codec call s = .ok (rows, t) ↔ s.fails = false ∧ 0 ≤ call.maxItems ∧
      rows = (s.db.outbox.rows.filter
        (fun r => decide (r.id ∈ call.candidates s.db.outbox.rows))).map call.leased ∧
      ∃ v, s.db.outbox.update? (fun r => decide (r.id ∈ call.candidates s.db.outbox.rows)) call.leased
        call.update.key_apply = some v ∧ t = s.next { s.db with outbox := v } := by
  have hsel : ∀ r ∈ s.db.outbox, TenantTable.outbox.selected codec
      (fun r => r.id ∈ call.candidates s.db.outbox.rows) s r =
        decide (r.id ∈ call.candidates s.db.outbox.rows) := by
    intro r hr
    rw [Bool.eq_iff_iff, TenantTable.selected_iff hs]
    simp only [decide_eq_true_eq, and_iff_right_iff_imp]
    intro hid
    have hcandidate := isCandidate_of_listed hr hid
    simp only [isCandidate, Bool.and_eq_true, decide_eq_true_eq] at hcandidate
    exact hcandidate.1
  have hupd : s.db.outbox.update? (TenantTable.outbox.selected codec
      (fun r => r.id ∈ call.candidates s.db.outbox.rows) s) call.update.apply call.update.key_apply =
        s.db.outbox.update? (fun r => decide (r.id ∈ call.candidates s.db.outbox.rows))
          call.update.apply call.update.key_apply :=
    Table.update?_congr hsel (fun _ _ _ => rfl)
  unfold leaseRows
  rw [statement_eq_ok]
  simp only [candidates_visible hs]
  by_cases hitems : call.maxItems < 0
  · simp [if_pos hitems, not_le.mpr hitems]
  · simp only [if_neg hitems, TenantTable.updateRows_eq_ok, not_lt.mp hitems, true_and]
    rw [List.filter_congr hsel, hupd]
    constructor
    · rintro ⟨hf, _, ⟨rfl, v, hv, rfl⟩, rfl⟩
      exact ⟨hf, rfl, v, hv, rfl⟩
    · rintro ⟨hf, rfl, v, hv, rfl⟩
      exact ⟨hf, _, ⟨rfl, v, hv, rfl⟩, rfl⟩

/-- A lease call commits exactly when no statement fails and its limit is not negative. It stamps the
candidates and returns them. -/
theorem leaseOutboxBatch_eq_ok {call : LeaseCall} {messages : List OutboxMessage} :
    leaseOutboxBatch codec call env db = (.ok messages, db') ↔
      allowed env.faults 4 = true ∧ 0 ≤ call.maxItems ∧
        messages = (db.outbox.rows.filter
          (fun r => decide (r.id ∈ call.candidates db.outbox.rows))).map
            (call.message ∘ call.leased) ∧
        ∃ v, db.outbox.update? (fun r => decide (r.id ∈ call.candidates db.outbox.rows)) call.leased
          call.update.key_apply = some v ∧ db' = { db with outbox := v } := by
  have hallowed : allowed env.faults 4 = true ↔ env.begins = true ∧
      (env.start db).fails = false ∧
        ((env.start db).scoped codec call.auth.workspaceId).fails = false ∧
          env.faults.tail.tail.tail.head?.getD false = false := by
    simp only [allowed_succ, Env.begins, TxState.fails, TxState.scoped_faults, Env.start_faults,
      Bool.and_eq_true, Bool.not_eq_true']
    simp [allowed]
  unfold leaseOutboxBatch
  rw [transaction_eq_ok]
  constructor
  · rintro ⟨hbegin, t, hbody, ht, rfl⟩
    obtain ⟨_, s₁, h₁, h⟩ := Tx.bind_eq_ok.mp hbody
    obtain ⟨hf₁, rfl⟩ := setWorkspaceContext_eq_ok.mp h₁
    obtain ⟨rows, s₂, h₂, h⟩ := Tx.bind_eq_ok.mp h
    cases h
    obtain ⟨hf₂, hitems, rfl, v, hv, rfl⟩ := (leaseRows_eq_ok (TxState.scoped_setting _ _ _)).mp h₂
    refine ⟨hallowed.mpr ⟨hbegin, hf₁, hf₂, ht⟩, hitems, ?_, v, hv, rfl⟩
    exact List.map_map
  · rintro ⟨hfaults, hitems, rfl, v, hv, rfl⟩
    obtain ⟨hbegin, hf₁, hf₂, hlast⟩ := hallowed.mp hfaults
    refine ⟨hbegin, ((env.start db).scoped codec call.auth.workspaceId).next
      { db with outbox := v }, ?_, hlast, rfl⟩
    refine Tx.bind_eq_ok.mpr ⟨(), _, setWorkspaceContext_eq_ok.mpr ⟨hf₁, rfl⟩, ?_⟩
    refine Tx.bind_eq_ok.mpr ⟨_, _, (leaseRows_eq_ok (TxState.scoped_setting _ _ _)).mpr
      ⟨hf₂, hitems, rfl, v, hv, rfl⟩, ?_⟩
    rw [← List.map_map]
    rfl

/-- A lease call changes nothing, or stamps a set of candidate rows and returns them. -/
theorem leaseOutboxBatch_cases (codec : Codec) (call : LeaseCall) (env : Env) (db : Db) :
    (∃ e, leaseOutboxBatch codec call env db = (.error e, db)) ∨
    ∃ (ids : List Uuid) (v : Table OutboxRow.id OutboxRow.check), leaseOutboxBatch codec call env db =
        (.ok ((db.outbox.rows.filter (fun r => decide (r.id ∈ ids))).map (call.message ∘ call.leased)),
          { db with outbox := v }) ∧
      (∀ r ∈ db.outbox, r.id ∈ ids → isCandidate call.auth.workspaceId call.now r = true) ∧
      ∀ s, s ∈ v ↔ ∃ r ∈ db.outbox, (if r.id ∈ ids then call.leased r else r) = s := by
  rcases transaction_cases .sqlx env _ db with ⟨e, he, _⟩ | ⟨messages, t, _, _, _, he⟩
  · exact Or.inl ⟨e, he⟩
  · obtain ⟨_, _, rfl, v, hv, hdb⟩ := leaseOutboxBatch_eq_ok.mp he
    refine Or.inr ⟨call.candidates db.outbox.rows, v, ?_, fun r hr => isCandidate_of_listed hr,
      fun s => ?_⟩
    · rw [← hdb]
      exact he
    · rw [Table.mem_of_update? hv]
      simp only [decide_eq_true_eq]

theorem leaseOutboxBatch_ok {call : LeaseCall} {messages : List OutboxMessage}
    (h : leaseOutboxBatch codec call env db = (.ok messages, db')) :
    ∃ (ids : List Uuid) (v : Table OutboxRow.id OutboxRow.check), db' = { db with outbox := v } ∧
      (∀ r ∈ db.outbox, r.id ∈ ids → isCandidate call.auth.workspaceId call.now r = true) ∧
      ∀ s, s ∈ v ↔ ∃ r ∈ db.outbox, (if r.id ∈ ids then call.leased r else r) = s := by
  rcases leaseOutboxBatch_cases codec call env db with ⟨e, he⟩ | ⟨ids, v, he, hids, hv⟩
  · rw [he] at h
    cases h
  · rw [he] at h
    cases h
    exact ⟨ids, v, rfl, hids, hv⟩

/-- A message is of a row that was due and is leased now. -/
theorem leaseOutboxBatch_message {call : LeaseCall} {messages : List OutboxMessage}
    (h : leaseOutboxBatch codec call env db = (.ok messages, db')) {m : OutboxMessage}
    (hm : m ∈ messages) :
    ∃ r ∈ db.outbox, isCandidate call.auth.workspaceId call.now r = true ∧
      call.leased r ∈ db'.outbox ∧ m = call.message (call.leased r) := by
  rcases leaseOutboxBatch_cases codec call env db with ⟨e, he⟩ | ⟨ids, v, he, hids, hv⟩
  · rw [he] at h
    cases h
  · rw [he] at h
    cases h
    obtain ⟨r, hr, rfl⟩ := List.mem_map.mp hm
    obtain ⟨hr, hin⟩ := List.mem_filter.mp hr
    have hin := of_decide_eq_true hin
    exact ⟨r, hr, hids r hr hin, (hv _).mpr ⟨r, hr, if_pos hin⟩, rfl⟩

/-- A row is as before, or it was due and its message is in the batch. -/
theorem leaseOutboxBatch_row {call : LeaseCall} {messages : List OutboxMessage}
    (h : leaseOutboxBatch codec call env db = (.ok messages, db')) {s : OutboxRow}
    (hs : s ∈ db'.outbox) :
    s ∈ db.outbox ∨ ∃ r ∈ db.outbox, isCandidate call.auth.workspaceId call.now r = true ∧
      s = call.leased r ∧ call.message (call.leased r) ∈ messages := by
  rcases leaseOutboxBatch_cases codec call env db with ⟨e, he⟩ | ⟨ids, v, he, hids, hv⟩
  · rw [he] at h
    cases h
  · rw [he] at h
    cases h
    obtain ⟨r, hr, rfl⟩ := (hv s).mp hs
    by_cases hin : r.id ∈ ids
    · rw [if_pos hin]
      exact Or.inr ⟨r, hr, hids r hr hin, rfl,
        List.mem_map_of_mem (List.mem_filter.mpr ⟨hr, decide_eq_true hin⟩)⟩
    · rw [if_neg hin]
      exact Or.inl hr

/-- Whether the call commits or not, a row is as before or was due and is leased now. -/
theorem row_of_leaseOutboxBatch {call : LeaseCall} {s : OutboxRow}
    (hs : s ∈ (leaseOutboxBatch codec call env db).2.outbox) :
    s ∈ db.outbox ∨ ∃ r ∈ db.outbox, isCandidate call.auth.workspaceId call.now r = true ∧
      s = call.leased r := by
  rcases leaseOutboxBatch_cases codec call env db with ⟨e, he⟩ | ⟨ids, v, he, _, _⟩
  · rw [he] at hs
    exact Or.inl hs
  · rw [he] at hs
    rcases leaseOutboxBatch_row he hs with hold | ⟨r, hr, hcandidate, hsame, _⟩
    · exact Or.inl hold
    · exact Or.inr ⟨r, hr, hcandidate, hsame⟩

/-- A batch has one message for each of its rows. -/
theorem leaseOutboxBatch_nodup {call : LeaseCall} {messages : List OutboxMessage}
    (h : leaseOutboxBatch codec call env db = (.ok messages, db')) :
    (messages.map OutboxMessage.id).Nodup := by
  rcases leaseOutboxBatch_cases codec call env db with ⟨e, he⟩ | ⟨ids, v, he, _, _⟩
  · rw [he] at h
    cases h
  · rw [he] at h
    cases h
    rw [List.map_map]
    exact db.outbox.nodup_keys.sublist (List.filter_sublist.map OutboxRow.id)

theorem LeaseTransition.validate_eq_ok {mark : LeaseTransition} {r : OutboxRow} :
    mark.validate (leaseOfRow r) = .ok () ↔
      heldBy mark.leaseToken mark.leaseOwner mark.now r = true := by
  simp only [validate, validateLeaseTransition, metadata, leaseOfRow, heldBy, Bool.and_eq_true,
    decide_eq_true_eq, ne_eq, OutboxStatus.asStr_eq_leased]
  by_cases hstatus : r.status = .leased
  · rw [if_neg (not_not.mpr hstatus)]
    cases r.leaseOwner with
    | none => simp
    | some owner =>
        cases r.leaseToken with
        | none => by_cases ho : owner = mark.leaseOwner <;> simp [ho]
        | some token =>
            cases r.leasedUntil with
            | none =>
                by_cases ho : owner = mark.leaseOwner <;>
                  by_cases ht : token = mark.leaseToken <;> simp [ho, ht]
            | some leasedUntil =>
                by_cases ho : owner = mark.leaseOwner <;>
                  by_cases ht : token = mark.leaseToken <;>
                    simp [ho, ht, hstatus]
  · simp [hstatus]

theorem fetchLeaseForUpdate_eq_ok {workspaceId outboxId : Uuid} {s t : TxState}
    {lease : Option OutboxLeaseRow} (hs : s.setting = some (codec.uuidText workspaceId)) :
    fetchLeaseForUpdate codec workspaceId outboxId s = .ok (lease, t) ↔
      s.fails = false ∧ t = s.next s.db ∧
        lease = (s.db.outbox.rows.find? (fun r =>
          r.workspaceId = workspaceId && r.id = outboxId)).map leaseOfRow := by
  unfold fetchLeaseForUpdate
  rw [Tx.bind_eq_ok]
  have hsel : TenantTable.outbox.selected codec (fun r =>
      r.workspaceId = workspaceId && r.id = outboxId) s =
      fun r => r.workspaceId = workspaceId && r.id = outboxId :=
    TenantTable.selected_of_tenant hs (fun r hr => by
      simp only [Bool.and_eq_true, decide_eq_true_eq] at hr
      exact hr.1)
  simp only [TenantTable.select_eq_ok, hsel, Tx.pure_run, Except.ok.injEq, Prod.mk.injEq]
  constructor
  · rintro ⟨rows, u, ⟨hf, rfl, rfl⟩, rfl, rfl⟩
    exact ⟨hf, rfl, by rw [List.head?_filter]⟩
  · rintro ⟨hf, rfl, rfl⟩
    exact ⟨_, _, ⟨hf, rfl, rfl⟩, by rw [List.head?_filter], rfl⟩

theorem LeaseTransition.guard_iff {mark : LeaseTransition} {r : OutboxRow} :
    mark.guard r = true ↔ r.workspaceId = mark.auth.workspaceId ∧ r.id = mark.outboxId ∧
      heldBy mark.leaseToken mark.leaseOwner mark.now r = true := by
  simp [guard, and_assoc]

/-- The state in which a mark runs its UPDATE. -/
def LeaseTransition.fetched (mark : LeaseTransition) (codec : Codec) (s : TxState) : TxState :=
  (s.scoped codec mark.auth.workspaceId).next s.db

theorem LeaseTransition.update_eq_ok {mark : LeaseTransition} {r : OutboxRow} {s t : TxState}
    {rows : List OutboxRow} {u : TenantTable.outbox.RowUpdate}
    (hs : s.setting = some (codec.uuidText mark.auth.workspaceId)) (hr : r ∈ s.db.outbox)
    (hguard : mark.guard r = true) :
    TenantTable.outbox.update codec .sqlx mark.guard u s = .ok (rows, t) ↔
      s.fails = false ∧ rows = [u.apply r] ∧ ∃ v,
        s.db.outbox.update? (fun x => x.id = mark.outboxId) u.apply u.key_apply = some v ∧
          t = s.next { s.db with outbox := v } := by
  have hsel : TenantTable.outbox.selected codec mark.guard s = mark.guard :=
    TenantTable.selected_of_tenant hs (fun x hx => (guard_iff.mp hx).1)
  have hone : s.db.outbox.rows.filter mark.guard = [r] :=
    Table.rows_filter_eq_singleton (fun x _ hx => (guard_iff.mp hx).2.1) hr hguard
  have hsame : ∀ x ∈ s.db.outbox, mark.guard x = decide (x.id = mark.outboxId) := by
    intro x hx
    rw [Bool.eq_iff_iff, decide_eq_true_eq]
    refine ⟨fun h => (guard_iff.mp h).2.1, fun h => ?_⟩
    rwa [Table.eq_of_key_eq hx hr (h.trans (guard_iff.mp hguard).2.1.symm)]
  have hupd : s.db.outbox.update? mark.guard u.apply u.key_apply =
      s.db.outbox.update? (fun x => x.id = mark.outboxId) u.apply u.key_apply :=
    Table.update?_congr hsame (fun _ _ _ => rfl)
  rw [TenantTable.update_eq_ok]
  simp only [TenantTable.updateRows_eq_ok, hsel, hone, hupd, List.map_cons, List.map_nil]
  constructor
  · rintro ⟨hf, db, ⟨rfl, v, hv, rfl⟩, rfl⟩
    exact ⟨hf, rfl, v, hv, rfl⟩
  · rintro ⟨hf, rfl, v, hv, rfl⟩
    exact ⟨hf, _, ⟨rfl, v, hv, rfl⟩, rfl⟩

theorem LeaseTransition.body_eq_ok {mark : LeaseTransition} {s t : TxState} {x : Unit} :
    mark.body codec s = .ok (x, t) ↔
      allowed s.faults 3 = true ∧ mark.leaseOwner = mark.auth.actorId ∧
        ∃ r ∈ s.db.outbox, mark.guard r = true ∧ ∃ v,
          s.db.outbox.update? (fun x => x.id = mark.outboxId) (mark.update (leaseOfRow r)).apply
            (mark.update (leaseOfRow r)).key_apply = some v ∧
          t = (mark.fetched codec s).next { s.db with outbox := v } := by
  have hpin : ∀ r : OutboxRow,
      (decide (r.workspaceId = mark.auth.workspaceId) && decide (r.id = mark.outboxId)) = true →
      r.id = mark.outboxId := fun r hr => by
    simp only [Bool.and_eq_true, decide_eq_true_eq] at hr
    exact hr.2
  have hallowed : allowed s.faults 3 = true ↔ s.fails = false ∧
      (s.scoped codec mark.auth.workspaceId).fails = false ∧
        (mark.fetched codec s).fails = false := by
    simp only [allowed_succ, TxState.fails, fetched, TxState.scoped_faults, TxState.next_faults,
      Bool.and_eq_true, Bool.not_eq_true']
    simp [allowed]
  unfold body
  constructor
  · intro h
    obtain ⟨_, s₁, h₁, h⟩ := Tx.bind_eq_ok.mp h
    obtain ⟨hf₁, rfl⟩ := setWorkspaceContext_eq_ok.mp h₁
    obtain ⟨lease, s₂, h₂, h'⟩ := Tx.bind_eq_ok.mp h
    obtain ⟨hf₂, rfl, rfl⟩ := (fetchLeaseForUpdate_eq_ok (TxState.scoped_setting _ _ _)).mp h₂
    cases hrow : s.db.outbox.rows.find? (fun r =>
        r.workspaceId = mark.auth.workspaceId && r.id = mark.outboxId) with
    | none =>
        rw [TxState.scoped_db, hrow] at h'
        cases h'
    | some r =>
        rw [TxState.scoped_db, hrow] at h'
        simp only [Option.map_some] at h'
        obtain ⟨hr, hid⟩ := (Table.rows_find?_eq_some (fun r _ => hpin r)).mp hrow
        simp only [Bool.and_eq_true, decide_eq_true_eq] at hid
        split_ifs at h' with howner
        · cases h'
        · simp only [ne_eq, not_not] at howner
          cases hvalid : mark.validate (leaseOfRow r) with
          | error e =>
              rw [hvalid] at h'
              cases h'
          | ok _ =>
              rw [hvalid] at h'
              have hguard : mark.guard r = true :=
                guard_iff.mpr ⟨hid.1, hid.2, validate_eq_ok.mp hvalid⟩
              obtain ⟨rows, s₃, h₃, hlast⟩ := Tx.bind_eq_ok.mp h'
              obtain ⟨hf₃, rfl, v, hv, rfl⟩ :=
                (update_eq_ok (s := mark.fetched codec s) rfl hr hguard).mp h₃
              rw [if_neg (by simp)] at hlast
              cases hlast
              exact ⟨hallowed.mpr ⟨hf₁, hf₂, hf₃⟩, howner, r, hr, hguard, v, hv, rfl⟩
  · rintro ⟨hfaults, howner, r, hr, hguard, v, hv, rfl⟩
    obtain ⟨hf₁, hf₂, hf₃⟩ := hallowed.mp hfaults
    obtain ⟨hws, hid, hheld⟩ := guard_iff.mp hguard
    refine Tx.bind_eq_ok.mpr ⟨(), _, setWorkspaceContext_eq_ok.mpr ⟨hf₁, rfl⟩, ?_⟩
    refine Tx.bind_eq_ok.mpr ⟨some (leaseOfRow r), mark.fetched codec s, ?_, ?_⟩
    · refine (fetchLeaseForUpdate_eq_ok (TxState.scoped_setting _ _ _)).mpr ⟨hf₂, rfl, ?_⟩
      have hrow : s.db.outbox.rows.find? (fun r =>
          r.workspaceId = mark.auth.workspaceId && r.id = mark.outboxId) = some r :=
        (Table.rows_find?_eq_some (fun r _ => hpin r)).mpr ⟨hr, by simp [hws, hid]⟩
      rw [TxState.scoped_db, hrow]
      rfl
    · simp only [howner, ne_eq, not_true_eq_false, if_false]
      rw [validate_eq_ok.mpr hheld]
      refine Tx.bind_eq_ok.mpr ⟨[(mark.update (leaseOfRow r)).apply r],
        (mark.fetched codec s).next { s.db with outbox := v }, ?_, ?_⟩
      · exact (update_eq_ok (s := mark.fetched codec s) rfl hr hguard).mpr ⟨hf₃, rfl, v, hv, rfl⟩
      · rfl

/-- A mark commits exactly when no statement fails, the actor marks its own lease, the row is still
held, and the written columns pass the CHECK constraints. -/
theorem LeaseTransition.run_eq_ok {mark : LeaseTransition} {x : Unit} :
    mark.run codec env db = (.ok x, db') ↔
      allowed env.faults 5 = true ∧ mark.leaseOwner = mark.auth.actorId ∧
        ∃ r ∈ db.outbox, mark.guard r = true ∧ ∃ v,
          db.outbox.update? (fun x => x.id = mark.outboxId) (mark.update (leaseOfRow r)).apply
            (mark.update (leaseOfRow r)).key_apply = some v ∧
          db' = { db with outbox := v } := by
  have hallowed : allowed env.faults 5 = true ↔ env.begins = true ∧
      allowed (env.start db).faults 3 = true ∧
        env.faults.tail.tail.tail.tail.head?.getD false = false := by
    simp only [allowed_succ, Env.begins, Env.start_faults, Bool.and_eq_true, Bool.not_eq_true']
    simp [allowed]
    tauto
  unfold run
  rw [transaction_eq_ok]
  simp only [body_eq_ok]
  constructor
  · rintro ⟨hbegin, t, ⟨hfaults, howner, r, hr, hguard, v, hv, rfl⟩, ht, rfl⟩
    exact ⟨hallowed.mpr ⟨hbegin, hfaults, ht⟩, howner, r, hr, hguard, v, hv, rfl⟩
  · rintro ⟨hfaults, howner, r, hr, hguard, v, hv, rfl⟩
    obtain ⟨hbegin, hfaults, hlast⟩ := hallowed.mp hfaults
    exact ⟨hbegin, _, ⟨hfaults, howner, r, hr, hguard, v, hv, rfl⟩, hlast, rfl⟩

/-- A mark changes nothing, or rewrites the one row it holds. -/
theorem LeaseTransition.run_cases (codec : Codec) (mark : LeaseTransition) (env : Env) (db : Db) :
    (∃ e, mark.run codec env db = (.error e, db)) ∨
    ∃ r ∈ db.outbox, mark.guard r = true ∧ mark.leaseOwner = mark.auth.actorId ∧ ∃ v,
      mark.run codec env db = (.ok (), { db with outbox := v }) ∧
      ∀ s, s ∈ v ↔ ∃ x ∈ db.outbox,
        (if x.id = mark.outboxId then (mark.update (leaseOfRow r)).apply x else x) = s := by
  rcases transaction_cases .sqlx env (mark.body codec) db with ⟨e, he, _⟩ | ⟨x, t, _, _, _, he⟩
  · exact Or.inl ⟨e, he⟩
  · obtain ⟨_, howner, r, hr, hguard, v, hv, hdb⟩ := run_eq_ok.mp he
    refine Or.inr ⟨r, hr, hguard, howner, v, ?_, fun s => ?_⟩
    · unfold run
      rw [he, hdb]
    · rw [Table.mem_of_update? hv]
      simp only [decide_eq_true_eq]

/-- The row that a mark leaves in place of the row it holds. -/
def LeaseTransition.written (mark : LeaseTransition) (r : OutboxRow) : OutboxRow :=
  (mark.update (leaseOfRow r)).apply r

@[simp] theorem LeaseTransition.written_id (mark : LeaseTransition) (r : OutboxRow) :
    (mark.written r).id = r.id := (mark.update (leaseOfRow r)).key_apply r

theorem LeaseTransition.run_commits_iff {mark : LeaseTransition} {r : OutboxRow}
    (hr : r ∈ db.outbox) (hguard : mark.guard r = true) :
    (∃ db', mark.run codec env db = (.ok (), db')) ↔
      allowed env.faults 5 = true ∧ mark.leaseOwner = mark.auth.actorId ∧
        OutboxRow.check (mark.written r) = true := by
  constructor
  · rintro ⟨db', h⟩
    obtain ⟨hfaults, howner, x, hx, hguardx, v, hv, -⟩ := run_eq_ok.mp h
    have hxr : x = r := Table.eq_of_key_eq hx hr
      ((guard_iff.mp hguardx).2.1.trans (guard_iff.mp hguard).2.1.symm)
    subst hxr
    refine ⟨hfaults, howner, v.check_of_mem ?_⟩
    exact (Table.mem_of_update? hv _).mpr ⟨x, hx, if_pos (by simp [(guard_iff.mp hguard).2.1])⟩
  · rintro ⟨hfaults, howner, hcheck⟩
    have hchecked : ∀ x ∈ db.outbox, decide (x.id = mark.outboxId) = true →
        OutboxRow.check ((mark.update (leaseOfRow r)).apply x) = true := fun x hx hid => by
      rw [Table.eq_of_key_eq hx hr ((of_decide_eq_true hid).trans (guard_iff.mp hguard).2.1.symm)]
      exact hcheck
    obtain ⟨v, hv⟩ := Table.update?_isSome hchecked
    exact ⟨_, run_eq_ok.mpr ⟨hfaults, howner, r, hr, hguard, v, hv, rfl⟩⟩

theorem LeaseTransition.mem_run_iff {mark : LeaseTransition} {x : Unit} (r : OutboxRow)
    (h : mark.run codec env db = (.ok x, db')) : r ∈ db'.outbox ↔
      ∃ y ∈ db.outbox, (if y.id = mark.outboxId then mark.written y else y) = r := by
  obtain ⟨_, _, z, hz, hguard, v, hv, rfl⟩ := run_eq_ok.mp h
  rw [Table.mem_of_update? hv]
  refine exists_congr (fun y => and_congr_right (fun hy => ?_))
  have hsame : y.id = mark.outboxId → (mark.update (leaseOfRow z)).apply y = mark.written y :=
    fun hid => by
      rw [Table.eq_of_key_eq hy hz (hid.trans (guard_iff.mp hguard).2.1.symm)]
      rfl
  simp only [decide_eq_true_eq]
  rw [if_ctx_congr Iff.rfl hsame (fun _ => rfl)]

theorem LeaseTransition.written_mem {mark : LeaseTransition} {x : Unit} {r : OutboxRow}
    (h : mark.run codec env db = (.ok x, db')) (hr : r ∈ db.outbox) (hid : r.id = mark.outboxId) :
    mark.written r ∈ db'.outbox :=
  (mem_run_iff _ h).mpr ⟨r, hr, if_pos hid⟩

/-- A mark leaves the other rows as they are. -/
theorem LeaseTransition.mem_run_of_ne {mark : LeaseTransition} {x : Unit} {r : OutboxRow}
    (h : mark.run codec env db = (.ok x, db')) (hid : r.id ≠ mark.outboxId) :
    r ∈ db'.outbox ↔ r ∈ db.outbox := by
  rw [mem_run_iff r h]
  constructor
  · rintro ⟨y, hy, rfl⟩
    split_ifs at hid ⊢ with hy'
    · exact absurd ((mark.written_id y).trans hy') hid
    · exact hy
  · intro hr
    exact ⟨r, hr, if_neg hid⟩

section Written

variable (auth : AuthContext) (outboxId : Uuid) (failure : OutboxFailureContext) (r : OutboxRow)

theorem written_failedMark : (failedMark auth outboxId failure).written r =
      if failure.deadLetterNow r.attempts then (failure.deadLetterUpdate (r.attempts + 1)).apply r
      else (failure.failedUpdate (r.attempts + 1)).apply r := by
  exact apply_ite (fun u : TenantTable.outbox.RowUpdate => u.apply r) _ _ _

theorem written_failedMark_attempts :
    ((failedMark auth outboxId failure).written r).attempts = r.attempts + 1 := by
  rw [written_failedMark]
  split <;> rfl

theorem written_failedMark_lease :
    ((failedMark auth outboxId failure).written r).leasedAt = none ∧
      ((failedMark auth outboxId failure).written r).leasedUntil = none ∧
      ((failedMark auth outboxId failure).written r).leaseToken = none ∧
      ((failedMark auth outboxId failure).written r).leaseOwner = none := by
  rw [written_failedMark]
  split <;> exact ⟨rfl, rfl, rfl, rfl⟩

theorem written_failedMark_status : ((failedMark auth outboxId failure).written r).status =
    if failure.deadLetterNow r.attempts then .deadLetter else .failed := by
  rw [written_failedMark]
  split <;> rfl

/-- Of the CHECK constraints only the one on `last_error` can refuse the mark of a failure. -/
theorem written_failedMark_check {r : OutboxRow} (hr : OutboxRow.check r = true) :
    OutboxRow.check ((failedMark auth outboxId failure).written r) = true ↔
      failure.errorMessage.length ≤ OutboxRow.maxLastErrorLength := by
  simp only [OutboxRow.check, Bool.and_eq_true] at hr
  rw [written_failedMark]
  split <;> simp [OutboxRow.check, OutboxFailureContext.deadLetterUpdate,
    OutboxFailureContext.failedUpdate, hr.1.1, hr.1.2]

end Written

/-- A delete of rows of one tenant, scoped to it, changes nothing or deletes what its condition selects. -/
theorem scopedDelete_cases {ρ κ : Type} [LinearOrder κ] {T : TenantTable ρ κ} {p : ρ → Bool}
    {workspaceId : Uuid} (hp : ∀ r, p r = true → T.tenant r = workspaceId) (codec : Codec) (env : Env)
    (db : Db) :
    (∃ e, transaction .sqlx env (do
      setWorkspaceContext .sqlx codec workspaceId
      T.delete codec .sqlx p) db = (.error e, db)) ∨
    ∃ n, transaction .sqlx env (do
      setWorkspaceContext .sqlx codec workspaceId
      T.delete codec .sqlx p) db = (.ok n, T.set db ((T.get db).filter (fun r => !p r))) := by
  rcases transaction_cases .sqlx env _ db with ⟨e, he, _⟩ | ⟨n, t, _, hbody, _, he⟩
  · exact Or.inl ⟨e, he⟩
  · obtain ⟨_, s₁, h₁, h⟩ := Tx.bind_eq_ok.mp hbody
    rw [(setWorkspaceContext_eq_ok.mp h₁).2] at h
    obtain ⟨_, _, rfl⟩ := TenantTable.delete_eq_ok.mp h
    rw [TenantTable.selected_of_tenant (TxState.scoped_setting _ _ _) hp] at he
    exact Or.inr ⟨n, he⟩

theorem cleanupOutbox_cases (codec : Codec) (auth : AuthContext)
    (deliveredBefore deadLetterBefore : Timestamp) (env : Env) (db : Db) :
    (∃ e, cleanupOutbox codec auth deliveredBefore deadLetterBefore env db = (.error e, db)) ∨
    ∃ n, cleanupOutbox codec auth deliveredBefore deadLetterBefore env db =
      (.ok n, { db with
        outbox := db.outbox.filter
          (fun r => !isExpiredOutbox auth.workspaceId deliveredBefore deadLetterBefore r) }) := by
  refine scopedDelete_cases (T := TenantTable.outbox) (fun r hr => ?_) codec env db
  simp only [isExpiredOutbox, Bool.and_eq_true, decide_eq_true_eq] at hr
  exact hr.1

theorem cleanupIdempotency_cases (codec : Codec) (auth : AuthContext) (expiresBefore : Timestamp)
    (env : Env) (db : Db) :
    (∃ e, cleanupIdempotency codec auth expiresBefore env db = (.error e, db)) ∨
    ∃ n, cleanupIdempotency codec auth expiresBefore env db =
      (.ok n, { db with
        idempotencyRecords := db.idempotencyRecords.filter
          (fun r => !isExpiredRecord auth.workspaceId expiresBefore r) }) := by
  refine scopedDelete_cases (T := TenantTable.idempotency) (fun r hr => ?_) codec env db
  simp only [isExpiredRecord, Bool.and_eq_true, decide_eq_true_eq] at hr
  exact hr.1

end Spec
end Dandori.OutboxRepository
