import Dandori.Schema
import Dandori.Transaction

/-!
# Statements and transactions

A transaction works on a `TxState`: its view of the database, the value of `app.workspace_id` that
the pooled connection already had, the value set for this transaction only, and one flag per
statement still to come that says whether the database fails it. Every SELECT, INSERT, UPDATE and
DELETE goes through row-level security: a row is visible when its workspace is the current setting,
invisible rows are neither read nor written, and a new row that is not visible is refused. An INSERT
then tests the CHECK constraints, the unique keys and the foreign keys, in this order; unique and
foreign keys are tested against all rows, visible or not.
-/

namespace Dandori

/-- Why PostgreSQL refused a statement; `fault` stands for every cause outside the model. -/
inductive DbError
  | fault
  | rowLevelSecurity
  | check
  | unique
  | foreignKey
  | negativeLimit
  deriving DecidableEq

inductive StoreError
  | sqlx (e : DbError)
  | seaOrm (e : DbError)
  | serde (message : String)
  | projectNotFound
  | workflowVersionNotFound
  | milestoneNotFound
  | milestoneProjectMismatch
  | idempotencyConflict
  | idempotencyReplayMissingIssue
  | invalidState (value : String)
  | invalidPriority (value : String)
  | outboxUpdateNotSingleRow (workspaceId outboxId : Uuid) (rowsAffected : ℕ)
  | outboxLeaseMissing (workspaceId outboxId : Uuid)
  | outboxNotLeased (workspaceId outboxId : Uuid) (status : String)
  | outboxLeaseExpired (workspaceId outboxId : Uuid) (leasedUntil now : Timestamp)
  | outboxLeaseOwnerMismatch (workspaceId outboxId expectedOwner actualOwner : Uuid)
  | outboxLeaseTokenMismatch (workspaceId outboxId expectedToken actualToken : Uuid)
  | domain (e : DomainError)
  | invalidInput (message : String)
  deriving DecidableEq

structure TxState where
  db : Db
  session : Option String
  setting : Option String
  faults : List Bool

namespace TxState

/-- `current_setting('app.workspace_id', true)`. -/
def currentSetting (s : TxState) : Option String := s.setting.or s.session

def fails (s : TxState) : Bool := s.faults.head?.getD false

def next (s : TxState) (db : Db) : TxState := { s with db := db, faults := s.faults.tail }

@[simp] theorem next_db (s : TxState) (db : Db) : (s.next db).db = db := rfl

@[simp] theorem next_setting (s : TxState) (db : Db) : (s.next db).setting = s.setting := rfl

@[simp] theorem next_session (s : TxState) (db : Db) : (s.next db).session = s.session := rfl

@[simp] theorem next_faults (s : TxState) (db : Db) : (s.next db).faults = s.faults.tail := rfl

@[simp] theorem next_currentSetting (s : TxState) (db : Db) :
    (s.next db).currentSetting = s.currentSetting := rfl

end TxState

abbrev Tx (α : Type) := StateT TxState (Except StoreError) α

/-- One round trip to the database, which may fail before it has an effect. -/
def statement {α : Type} (wrap : DbError → StoreError)
    (f : TxState → Except DbError (α × Db)) : Tx α := fun s =>
  if s.fails then .error (wrap .fault)
  else match f s with
    | .ok (a, db) => .ok (a, s.next db)
    | .error e => .error (wrap e)

theorem statement_eq_ok {α : Type} {wrap : DbError → StoreError}
    {f : TxState → Except DbError (α × Db)} {s t : TxState} {a : α} :
    statement wrap f s = .ok (a, t) ↔
      s.fails = false ∧ ∃ db, f s = .ok (a, db) ∧ t = s.next db := by
  unfold statement
  cases hs : s.fails with
  | true => simp
  | false =>
      cases hf : f s with
      | error e => simp
      | ok p =>
          obtain ⟨b, db⟩ := p
          simp only [Bool.false_eq_true, if_false, Except.ok.injEq, Prod.mk.injEq, true_and]
          constructor
          · rintro ⟨rfl, rfl⟩
            exact ⟨db, ⟨rfl, rfl⟩, rfl⟩
          · rintro ⟨db', ⟨rfl, rfl⟩, rfl⟩
            exact ⟨rfl, rfl⟩

/-- A statement fails with an error of the database only. -/
theorem statement_eq_error {α : Type} {wrap : DbError → StoreError}
    {f : TxState → Except DbError (α × Db)} {s : TxState} {e : StoreError}
    (h : statement wrap f s = .error e) : ∃ d, e = wrap d := by
  unfold statement at h
  split at h
  · cases h
    exact ⟨_, rfl⟩
  · split at h
    · cases h
    · cases h
      exact ⟨_, rfl⟩

/-- `set_config('app.workspace_id', id::text, true)`, for the rest of the transaction. -/
def setWorkspaceContext (wrap : DbError → StoreError) (codec : Codec) (workspaceId : Uuid) :
    Tx Unit := do
  statement wrap (fun s => .ok ((), s.db))
  modify (fun s => { s with setting := some (codec.uuidText workspaceId) })

def TxState.scoped (s : TxState) (codec : Codec) (workspaceId : Uuid) : TxState :=
  { s.next s.db with setting := some (codec.uuidText workspaceId) }

@[simp] theorem TxState.scoped_db (s : TxState) (codec : Codec) (workspaceId : Uuid) :
    (s.scoped codec workspaceId).db = s.db := rfl

@[simp] theorem TxState.scoped_setting (s : TxState) (codec : Codec) (workspaceId : Uuid) :
    (s.scoped codec workspaceId).setting = some (codec.uuidText workspaceId) := rfl

@[simp] theorem TxState.scoped_faults (s : TxState) (codec : Codec) (workspaceId : Uuid) :
    (s.scoped codec workspaceId).faults = s.faults.tail := rfl

theorem setWorkspaceContext_run (wrap : DbError → StoreError) (codec : Codec) (workspaceId : Uuid)
    (s : TxState) : setWorkspaceContext wrap codec workspaceId s =
      if s.fails then .error (wrap .fault) else .ok ((), s.scoped codec workspaceId) := by
  unfold setWorkspaceContext
  rw [Tx.bind_run]
  unfold statement
  cases s.fails <;> rfl

theorem setWorkspaceContext_eq_ok {wrap : DbError → StoreError} {codec : Codec}
    {workspaceId : Uuid} {s t : TxState} {u : Unit} :
    setWorkspaceContext wrap codec workspaceId s = .ok (u, t) ↔
      s.fails = false ∧ t = s.scoped codec workspaceId := by
  rw [setWorkspaceContext_run]
  cases s.fails with
  | true => simp
  | false => simp [eq_comm]

theorem setWorkspaceContext_eq_error {wrap : DbError → StoreError} {codec : Codec}
    {workspaceId : Uuid} {s : TxState} {e : StoreError}
    (h : setWorkspaceContext wrap codec workspaceId s = .error e) : ∃ d, e = wrap d := by
  rw [setWorkspaceContext_run] at h
  split at h
  · cases h
    exact ⟨_, rfl⟩
  · cases h

namespace TenantTable

variable {ρ κ : Type} [LinearOrder κ] (T : TenantTable ρ κ) (codec : Codec)
  (wrap : DbError → StoreError)

/-- The policies of every table: `workspace_id::text = current_setting('app.workspace_id', true)`. -/
def visible (s : TxState) (r : ρ) : Bool :=
  s.currentSetting = some (codec.uuidText (T.tenant r))

theorem visible_iff {s : TxState} {workspaceId : Uuid}
    (hs : s.setting = some (codec.uuidText workspaceId)) {r : ρ} :
    T.visible codec s r = true ↔ T.tenant r = workspaceId := by
  simp only [visible, TxState.currentSetting, hs, Option.some_or, Option.some.injEq,
    decide_eq_true_eq]
  exact ⟨fun h => (codec.uuidText_injective h).symm, fun h => by rw [h]⟩

/-- An UPDATE of columns outside the keys; the tenant of a row stays the same. -/
structure RowUpdate where
  apply : ρ → ρ
  key_apply : ∀ r, T.key (apply r) = T.key r
  tenant_apply : ∀ r, T.tenant (apply r) = T.tenant r
  conflicts_apply : ∀ r s, T.conflicts (apply r) s = T.conflicts r s

def select (p : ρ → Bool) : Tx (List ρ) :=
  statement wrap (fun s =>
    .ok ((T.get s.db).rows.filter (fun r => T.visible codec s r && p r), s.db))

def insertRow (r : ρ) (s : TxState) : Except DbError Db :=
  if T.visible codec s r = false then .error .rowLevelSecurity
  else if T.check r = false then .error .check
  else if (T.get s.db).rows.any (T.conflicts r) then .error .unique
  else match (T.get s.db).insert? r with
    | none => .error .unique
    | some t => if T.references s.db r then .ok (T.set s.db t) else .error .foreignKey

/-- `INSERT … RETURNING`. -/
def insert (r : ρ) : Tx ρ :=
  statement wrap (fun s => (T.insertRow codec r s).map (fun db => (r, db)))

def selected (p : ρ → Bool) (s : TxState) (r : ρ) : Bool := T.visible codec s r && p r

def updateRows (p : ρ → Bool) (u : T.RowUpdate) (s : TxState) : Except DbError (List ρ × Db) :=
  match (T.get s.db).update? (T.selected codec p s) u.apply u.key_apply with
  | none => .error .check
  | some t => .ok (((T.get s.db).rows.filter (T.selected codec p s)).map u.apply, T.set s.db t)

/-- `UPDATE … WHERE p RETURNING`. -/
def update (p : ρ → Bool) (u : T.RowUpdate) : Tx (List ρ) :=
  statement wrap (T.updateRows codec p u)

/-- `INSERT … ON CONFLICT (key) DO UPDATE … RETURNING (xmax = 0), …`. -/
def upsert (r : ρ) (u : T.RowUpdate) : Tx (Bool × ρ) :=
  statement wrap (fun s =>
    match (T.get s.db).find? (T.key r) with
    | none => (T.insertRow codec r s).map (fun db => ((true, r), db))
    | some old =>
        if T.visible codec s r = false ∨ T.visible codec s old = false then
          .error .rowLevelSecurity
        else if T.check r = false then .error .check
        else match (T.get s.db).update? (fun x => T.key x = T.key r) u.apply u.key_apply with
          | none => .error .check
          | some t => .ok ((false, u.apply old), T.set s.db t))

/-- `DELETE … WHERE p`, with the number of deleted rows. -/
def delete (p : ρ → Bool) : Tx ℕ :=
  statement wrap (fun s =>
    .ok (((T.get s.db).rows.filter (T.selected codec p s)).length,
      T.set s.db ((T.get s.db).filter (fun r => !T.selected codec p s r))))

/-! ## What a successful statement did -/

variable {T codec wrap} {s t : TxState} {p : ρ → Bool} {r : ρ}

theorem select_eq_ok {rows : List ρ} : T.select codec wrap p s = .ok (rows, t) ↔
    s.fails = false ∧ rows = (T.get s.db).rows.filter (T.selected codec p s) ∧
      t = s.next s.db := by
  unfold select
  rw [statement_eq_ok]
  constructor
  · rintro ⟨hs, db, h, rfl⟩
    cases h
    exact ⟨hs, rfl, rfl⟩
  · rintro ⟨hs, rfl, rfl⟩
    exact ⟨hs, s.db, rfl, rfl⟩

theorem insertRow_eq_ok {db : Db} : T.insertRow codec r s = .ok db ↔
    T.visible codec s r = true ∧ (T.get s.db).rows.any (T.conflicts r) = false ∧
      T.references s.db r = true ∧ ∃ u, (T.get s.db).insert? r = some u ∧ db = T.set s.db u := by
  unfold insertRow
  constructor
  · intro h
    cases hi : (T.get s.db).insert? r with
    | none =>
        rw [hi] at h
        split_ifs at h
    | some u =>
        rw [hi] at h
        split_ifs at h with hv hc hu href
        cases h
        exact ⟨by simpa using hv, by simpa using hu, href, u, rfl, rfl⟩
  · rintro ⟨hv, hu, href, u, hi, rfl⟩
    have hc : T.check r = true := (Table.insert?_eq_some hi).1
    simp [hv, hc, hu, href, hi]

theorem insert_eq_ok {r' : ρ} : T.insert codec wrap r s = .ok (r', t) ↔
    s.fails = false ∧ r' = r ∧ ∃ db, T.insertRow codec r s = .ok db ∧ t = s.next db := by
  unfold insert
  rw [statement_eq_ok]
  cases h : T.insertRow codec r s with
  | error e => simp [Except.map]
  | ok db =>
      simp only [Except.map, Except.ok.injEq, Prod.mk.injEq]
      constructor
      · rintro ⟨hs, _, ⟨rfl, rfl⟩, rfl⟩
        exact ⟨hs, rfl, _, rfl, rfl⟩
      · rintro ⟨hs, rfl, _, rfl, rfl⟩
        exact ⟨hs, _, ⟨rfl, rfl⟩, rfl⟩

/-- A row that has been inserted is new, and the rest of the database is as before. -/
theorem insert_db {r' : ρ} (h : T.insert codec wrap r s = .ok (r', t)) :
    r' = r ∧ t.setting = s.setting ∧
      ∃ u, (T.get s.db).insert? r = some u ∧ t.db = T.set s.db u := by
  obtain ⟨_, hr, db, hdb, rfl⟩ := insert_eq_ok.mp h
  obtain ⟨_, _, _, u, hu, rfl⟩ := insertRow_eq_ok.mp hdb
  exact ⟨hr, rfl, u, hu, rfl⟩

theorem updateRows_eq_ok {u : T.RowUpdate} {rows : List ρ} {db : Db} :
    T.updateRows codec p u s = .ok (rows, db) ↔
      rows = ((T.get s.db).rows.filter (T.selected codec p s)).map u.apply ∧
        ∃ v, (T.get s.db).update? (T.selected codec p s) u.apply u.key_apply = some v ∧
          db = T.set s.db v := by
  unfold updateRows
  cases h : (T.get s.db).update? (T.selected codec p s) u.apply u.key_apply with
  | none => simp
  | some v =>
      simp only [Except.ok.injEq, Prod.mk.injEq, Option.some.injEq]
      constructor
      · rintro ⟨rfl, rfl⟩
        exact ⟨rfl, v, rfl, rfl⟩
      · rintro ⟨rfl, _, rfl, rfl⟩
        exact ⟨rfl, rfl⟩

theorem update_eq_ok {u : T.RowUpdate} {rows : List ρ} :
    T.update codec wrap p u s = .ok (rows, t) ↔
      s.fails = false ∧ ∃ db, T.updateRows codec p u s = .ok (rows, db) ∧ t = s.next db := by
  unfold update
  exact statement_eq_ok

theorem delete_eq_ok {n : ℕ} : T.delete codec wrap p s = .ok (n, t) ↔
    s.fails = false ∧ n = ((T.get s.db).rows.filter (T.selected codec p s)).length ∧
      t = s.next (T.set s.db ((T.get s.db).filter (fun r => !T.selected codec p s r))) := by
  unfold delete
  rw [statement_eq_ok]
  constructor
  · rintro ⟨hs, db, h, rfl⟩
    cases h
    exact ⟨hs, rfl, rfl⟩
  · rintro ⟨hs, rfl, rfl⟩
    exact ⟨hs, _, rfl, rfl⟩

/-- An upsert either inserts a row under a free key or rewrites the row that has the key. -/
theorem upsert_eq_ok {u : T.RowUpdate} {inserted : Bool} {r' : ρ}
    (h : T.upsert codec wrap r u s = .ok ((inserted, r'), t)) :
    s.fails = false ∧ T.visible codec s r = true ∧ T.check r = true ∧
      (((T.get s.db).find? (T.key r) = none ∧ inserted = true ∧ r' = r ∧
        ∃ db, T.insertRow codec r s = .ok db ∧ t = s.next db) ∨
      ∃ old v, (T.get s.db).find? (T.key r) = some old ∧ inserted = false ∧ r' = u.apply old ∧
        (T.get s.db).update? (fun x => T.key x = T.key r) u.apply u.key_apply = some v ∧
        t = s.next (T.set s.db v)) := by
  unfold upsert at h
  obtain ⟨hs, db, hdb, rfl⟩ := statement_eq_ok.mp h
  refine ⟨hs, ?_⟩
  cases hf : (T.get s.db).find? (T.key r) with
  | none =>
      simp only [hf] at hdb
      cases hi : T.insertRow codec r s with
      | error e => simp [hi, Except.map] at hdb
      | ok db' =>
          simp only [hi, Except.map, Except.ok.injEq, Prod.mk.injEq] at hdb
          obtain ⟨⟨rfl, rfl⟩, rfl⟩ := hdb
          obtain ⟨hv, _, _, w, hw, _⟩ := insertRow_eq_ok.mp hi
          exact ⟨hv, (Table.insert?_eq_some hw).1, Or.inl ⟨rfl, rfl, rfl, _, rfl, rfl⟩⟩
  | some old =>
      simp only [hf] at hdb
      split_ifs at hdb with hv hc
      cases hu : (T.get s.db).update? (fun x => T.key x = T.key r) u.apply u.key_apply with
      | none => simp [hu] at hdb
      | some v =>
          simp only [hu, Except.ok.injEq, Prod.mk.injEq] at hdb
          obtain ⟨⟨rfl, rfl⟩, rfl⟩ := hdb
          simp only [not_or, Bool.not_eq_false] at hv
          exact ⟨hv.1, by simpa using hc, Or.inr ⟨old, v, rfl, rfl, rfl, rfl, rfl⟩⟩

/-- Under the setting of `workspaceId`, a statement that asks for rows of `workspaceId` is not
narrowed further by the policy. -/
theorem selected_of_tenant {workspaceId : Uuid}
    (hs : s.setting = some (codec.uuidText workspaceId))
    (hp : ∀ r, p r = true → T.tenant r = workspaceId) : T.selected codec p s = p := by
  funext r
  cases hr : p r with
  | false => simp [selected, hr]
  | true =>
      have hv : T.visible codec s r = true := (T.visible_iff codec hs).mpr (hp r hr)
      simp [selected, hr, hv]

theorem selected_iff {workspaceId : Uuid} (hs : s.setting = some (codec.uuidText workspaceId)) :
    T.selected codec p s r = true ↔ T.tenant r = workspaceId ∧ p r = true := by
  unfold selected
  rw [Bool.and_eq_true, T.visible_iff codec hs]

end TenantTable

/-- What one call meets at the database: the setting left on the pooled connection and the
statements that fail. -/
structure Env where
  session : Option String
  faults : List Bool

namespace Env

def quiet : Env := ⟨none, []⟩

def begins (env : Env) : Bool := !env.faults.head?.getD false

def start (env : Env) (db : Db) : TxState := ⟨db, env.session, none, env.faults.tail⟩

@[simp] theorem start_db (env : Env) (db : Db) : (env.start db).db = db := rfl

@[simp] theorem start_faults (env : Env) (db : Db) : (env.start db).faults = env.faults.tail := rfl

end Env

/-- The first `n` statements reach the database. -/
def allowed (faults : List Bool) (n : ℕ) : Bool := (faults.take n).all (!·)

theorem allowed_succ (faults : List Bool) (n : ℕ) :
    allowed faults (n + 1) = (!faults.head?.getD false && allowed faults.tail n) := by
  cases faults <;> simp [allowed]

/-- `BEGIN`, the setting of the workspace, one further statement and `COMMIT`. -/
theorem allowed_four_iff (codec : Codec) (workspaceId : Uuid) (env : Env) (db : Db) :
    allowed env.faults 4 = true ↔ env.begins = true ∧
    (env.start db).fails = false ∧ ((env.start db).scoped codec workspaceId).fails = false ∧
      (((env.start db).scoped codec workspaceId).next db).fails = false := by
  simp only [allowed_succ, Bool.and_eq_true, Bool.not_eq_true', Env.begins, TxState.fails,
    TxState.scoped_faults, TxState.next_faults, Env.start_faults]
  simp [allowed]

def beginTransaction (wrap : DbError → StoreError) : Tx Unit :=
  statement wrap (fun s => .ok ((), s.db))

def commit (wrap : DbError → StoreError) : Tx Unit := statement wrap (fun s => .ok ((), s.db))

theorem commit_eq_ok {wrap : DbError → StoreError} {s t : TxState} {u : Unit} :
    commit wrap s = .ok (u, t) ↔ s.fails = false ∧ t = s.next s.db := by
  unfold commit
  rw [statement_eq_ok]
  constructor
  · rintro ⟨hs, db, h, rfl⟩
    cases h
    exact ⟨hs, rfl⟩
  · rintro ⟨hs, rfl⟩
    exact ⟨hs, s.db, rfl, rfl⟩

def inTransaction {α : Type} (wrap : DbError → StoreError) (body : Tx α) : Tx α := do
  beginTransaction wrap
  let a ← body
  commit wrap
  return a

/-- `BEGIN`, the body and `COMMIT` on a pooled connection; every failure rolls back. -/
def transaction {α : Type} (wrap : DbError → StoreError) (env : Env) (body : Tx α) (db : Db) :
    Except StoreError α × Db :=
  let (result, s) := Tx.atomically (inTransaction wrap body) ⟨db, env.session, none, env.faults⟩
  (result, s.db)

section Transaction

variable {α : Type} {wrap : DbError → StoreError} {env : Env} {body : Tx α} {db db' : Db} {a : α}

theorem beginTransaction_run (wrap : DbError → StoreError) (env : Env) (db : Db) :
    beginTransaction wrap ⟨db, env.session, none, env.faults⟩ =
      if env.begins then .ok ((), env.start db) else .error (wrap .fault) := by
  unfold beginTransaction statement Env.begins TxState.fails
  cases env.faults.head?.getD false <;> rfl

theorem inTransaction_eq_ok {t : TxState} :
    inTransaction wrap body ⟨db, env.session, none, env.faults⟩ = .ok (a, t) ↔
      env.begins = true ∧ ∃ u, body (env.start db) = .ok (a, u) ∧ u.fails = false ∧
        t = u.next u.db := by
  unfold inTransaction
  simp only [Tx.bind_eq_ok, beginTransaction_run, commit_eq_ok, Tx.pure_run]
  cases env.begins with
  | false => simp
  | true =>
      simp only [if_true, Except.ok.injEq, Prod.mk.injEq, true_and]
      constructor
      · rintro ⟨_, _, rfl, b, u, hb, _, _, ⟨hu, rfl⟩, rfl, rfl⟩
        exact ⟨u, hb, hu, rfl⟩
      · rintro ⟨u, hb, hu, rfl⟩
        exact ⟨(), _, rfl, a, u, hb, (), _, ⟨hu, rfl⟩, rfl, rfl⟩

theorem inTransaction_eq_error {e : StoreError}
    (h : inTransaction wrap body ⟨db, env.session, none, env.faults⟩ = .error e) :
    (∃ d, e = wrap d) ∨ body (env.start db) = .error e := by
  unfold inTransaction at h
  rcases Tx.bind_eq_error.mp h with hb | ⟨_, s, hb, h⟩
  · exact Or.inl (statement_eq_error hb)
  · rw [beginTransaction_run] at hb
    split_ifs at hb
    cases hb
    rcases Tx.bind_eq_error.mp h with hbody | ⟨a, t, _, h⟩
    · exact Or.inr hbody
    · rcases Tx.bind_eq_error.mp h with hc | ⟨_, _, _, hp⟩
      · exact Or.inl (statement_eq_error hc)
      · cases hp

theorem transaction_of_ok {t : TxState}
    (h : inTransaction wrap body ⟨db, env.session, none, env.faults⟩ = .ok (a, t)) :
    transaction wrap env body db = (.ok a, t.db) := by
  simp only [transaction, Tx.atomically, h]

theorem transaction_of_body {t : TxState} (hbegin : env.begins = true)
    (hbody : body (env.start db) = .ok (a, t)) (ht : t.fails = false) :
    transaction wrap env body db = (.ok a, t.db) := by
  rw [transaction_of_ok (inTransaction_eq_ok.mpr ⟨hbegin, t, hbody, ht, rfl⟩), TxState.next_db]

theorem transaction_of_error {e : StoreError}
    (h : inTransaction wrap body ⟨db, env.session, none, env.faults⟩ = .error e) :
    transaction wrap env body db = (.error e, db) := by
  simp only [transaction, Tx.atomically, h]

/-- A transaction commits what its body did or leaves the database alone. -/
theorem transaction_cases (wrap : DbError → StoreError) (env : Env) (body : Tx α) (db : Db) :
    (∃ e, transaction wrap env body db = (.error e, db) ∧
      ((∃ d, e = wrap d) ∨ body (env.start db) = .error e)) ∨
    ∃ a t, env.begins = true ∧ body (env.start db) = .ok (a, t) ∧ t.fails = false ∧
      transaction wrap env body db = (.ok a, t.db) := by
  cases h : inTransaction wrap body ⟨db, env.session, none, env.faults⟩ with
  | error e => exact Or.inl ⟨e, transaction_of_error h, inTransaction_eq_error h⟩
  | ok p =>
      obtain ⟨a, t⟩ := p
      obtain ⟨hbegin, u, hbody, hu, rfl⟩ := inTransaction_eq_ok.mp h
      exact Or.inr ⟨a, u, hbegin, hbody, hu, transaction_of_body hbegin hbody hu⟩

theorem transaction_eq_ok : transaction wrap env body db = (.ok a, db') ↔
    env.begins = true ∧ ∃ t, body (env.start db) = .ok (a, t) ∧ t.fails = false ∧ t.db = db' := by
  constructor
  · intro h
    rcases transaction_cases wrap env body db with ⟨e, he, _⟩ | ⟨b, t, hbegin, hbody, ht, he⟩
    · rw [h] at he
      cases he
    · rw [h] at he
      cases he
      exact ⟨hbegin, t, hbody, ht, rfl⟩
  · rintro ⟨hbegin, t, hbody, ht, rfl⟩
    exact transaction_of_body hbegin hbody ht

end Transaction
end Dandori
