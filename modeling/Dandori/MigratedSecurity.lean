import Dandori.MigrationRollback

/-!
# Row-level security after the migrations

What the first four migrations make of each tenant table is computed from the statements that concern it:
row-level security is on and forced, with the one policy on the column of the tenant. The fifth migration
leaves that alone and adds a table without row-level security. So a session that does not bypass the
policies sees in a tenant table exactly the rows that the statements of the store see.
-/

namespace Dandori.Migrator

open Ddl (exec Statement Catalog)

section Shapes

variable {ν V S : Type} [DecidableEq ν] {name : ν} {t : Ddl.Table ν V S}

def single (name : ν) (t : Ddl.Table ν V S) : Catalog ν V S := ⟨[], [(name, t.emptied)], []⟩

theorem reshape_single {role : Ddl.Role S} {s : Statement ν V S}
    (f : Ddl.Table ν V S → Ddl.Table ν V S) (hs : ∀ d, Catalog.apply role d s = d.modify name f)
    (hf : ∀ t, (f t.emptied).emptied = (f t).emptied) :
    Statement.reshape name role (single name t) s = single name (f t) := by
  rw [Statement.reshape, hs]
  simp [single, Catalog.modify, Catalog.mapTables, Catalog.shape, hf]

theorem foldl_createIndexes {role : Ddl.Role S} {is : List (ν × Ddl.Index ν)}
    (his : ∀ i ∈ is, i.1 = name) :
    (is.map fun i => Statement.createIndex i.1 i.2).foldl (Statement.reshape name role)
      (single name t) = single name { t with indexes := t.indexes ++ is.map Prod.snd } := by
  induction is generalizing t with
  | nil => simp
  | cons i is ih =>
      have hstep : Statement.reshape name role (single name t) (.createIndex i.1 i.2) =
          single name (t.addIndex i.2) := by
        rw [his i List.mem_cons_self]
        exact reshape_single _ (fun _ => rfl) fun _ => rfl
      rw [List.map_cons, List.foldl_cons, hstep, ih fun j hj => his j (List.mem_cons_of_mem _ hj)]
      simp [Ddl.Table.addIndex]

end Shapes

variable {role : Ddl.Role (Option String)} {env : Setup} {c c' c₂ : Schema}

def tenantDefs (env : Setup) : List TableDef :=
  [workspace env, workflowVersion env, project env, milestone env, issue env, activity env, outbox env,
    idempotencyRecord env]

/-- A tenant table after the first four migrations, up to its rows. -/
def TableDef.secured (env : Setup) (d : TableDef) (p : String × String × String) :
    Ddl.Table String Cell (Option String) :=
  { columns := d.columns
    keys := d.keys
    foreignKeys := d.foreignKeys
    checks := d.checks
    indexes := (indexes.filter fun i => i.1 = p.1).map Prod.snd
    rowSecurity := true
    forced := true
    policies := [tenantPolicy env p.2.1 p.2.2]
    rows := [] }

theorem concerning_tenantTable : ∀ q ∈ (tenantDefs env).zip tenantTables, q.1.name = q.2.1 ∧
    (up ((migrations env).take 4)).filter (Statement.concerns q.2.1) =
      q.1.create :: ((indexes.filter fun i => i.1 = q.2.1).map (fun i => .createIndex i.1 i.2) ++
        [.setRowSecurity q.2.1 true, .forceRowSecurity q.2.1 true,
          .createPolicy q.2.1 (tenantPolicy env q.2.2.1 q.2.2.2)]) := by
  simp [tenantDefs, tenantTables, up, migrations, createEnumsAndCoreTables,
    createActivityOutboxAndIdempotency, createIndexes, indexes, enableRlsAndPolicies,
    Statement.concerns, TableDef.create, workspace, workflowVersion, project, milestone, issue,
    activity, outbox, idempotencyRecord]

theorem shape_tenantTable (hc : Untouched c) {d : TableDef} {p : String × String × String}
    (hq : (d, p) ∈ (tenantDefs env).zip tenantTables)
    (h : Run (exec role) c (up ((migrations env).take 4)) c') :
    c'.shape p.1 = single p.1 (d.secured env p) := by
  obtain ⟨hname, hstatements⟩ := concerning_tenantTable (d, p) hq
  have hcreate : Statement.reshape p.1 role ⟨[], [], []⟩ d.create =
      single p.1 (Ddl.Table.create d.columns d.keys d.foreignKeys d.checks) := by
    change d.name = p.1 at hname
    simp [Statement.reshape, TableDef.create, Catalog.apply, Catalog.shape, single, hname]
  have hnew : p.1 ∉ c.tableNames :=
    hc.tables p.1 (tenantTables_owned p (List.of_mem_zip hq).2)
  rw [Ddl.shape_of_run h, hstatements, Ddl.shape_eq_empty hnew, List.foldl_cons, hcreate,
    List.foldl_append,
    foldl_createIndexes fun i hi => of_decide_eq_true (List.mem_filter.mp hi).2, List.foldl_cons,
    reshape_single (Ddl.Table.setRowSecurity true) (fun _ => rfl) (fun _ => rfl), List.foldl_cons,
    reshape_single (Ddl.Table.setForced true) (fun _ => rfl) (fun _ => rfl), List.foldl_cons,
    reshape_single (Ddl.Table.addPolicy (tenantPolicy env p.2.1 p.2.2)) (fun _ => rfl) (fun _ => rfl),
    List.foldl_nil]
  rfl

def Secured (env : Setup) (p : String × String × String) (rowSecurity forced : Bool)
    (policies : List (Ddl.Policy String Cell (Option String))) : Prop :=
  rowSecurity = true ∧ forced = true ∧ policies = [tenantPolicy env p.2.1 p.2.2]

theorem secured_of_four (hc : Untouched c)
    (h : Run (exec role) c (up ((migrations env).take 4)) c') {p : String × String × String}
    (hp : p ∈ tenantTables) : Catalog.Security c' p.1 (Secured env p) := by
  have hzip : p ∈ ((tenantDefs env).zip tenantTables).map Prod.snd := hp
  obtain ⟨⟨d, q⟩, hq, rfl⟩ := List.mem_map.mp hzip
  intro t ht
  have heq := Ddl.emptied_of_shape (shape_tenantTable hc hq h) ht
  exact ⟨congrArg Ddl.Table.rowSecurity heq, congrArg Ddl.Table.forced heq,
    congrArg Ddl.Table.policies heq⟩

/-- The fifth migration leaves row-level security of the tenant tables alone. -/
theorem secured_of_up (hc : Untouched c) (h : Run (exec role) c (up (migrations env)) c')
    {p : String × String × String} (hp : p ∈ tenantTables) :
    Catalog.Security c' p.1 (Secured env p) := by
  have hsplit : up (migrations env) =
      up ((migrations env).take 4) ++ (createWorkerPartitionLease env).up := by
    simp [up, migrations]
  rw [hsplit, Run.append_iff] at h
  obtain ⟨d, hd, h⟩ := h
  have hother : "worker_partition_lease" ≠ p.1 := by
    revert p
    simp [tenantTables]
  refine Ddl.security_of_run ?_ h (secured_of_four hc hd hp)
  cases hg : grantedRole env <;>
    simp [createWorkerPartitionLease, TableDef.create, workerPartitionLease, Statement.onSecurity,
      Statement.creates, hother, hg]

theorem tenantPolicy_passes {p : String × String × String} {setting : Option String} {r : Row} :
    (tenantPolicy env p.2.1 p.2.2).passes setting ([p.2.2].map r) =
      (r p.2.2).any (fun v => setting = some (v.text env.codec)) := by
  simp [tenantPolicy]

/-- After the migrations, whatever has been written since, a session sees in a tenant table the rows that
the statements of the store see, and all of them if it bypasses row-level security. -/
theorem sees_eq_visible {ρ κ : Type} [LinearOrder κ] (T : TenantTable ρ κ) (x : ρ) (s : TxState)
    {p : String × String × String} {t : Ddl.Table String Cell (Option String)}
    {reader : Ddl.Role (Option String)} {r : Row} (hc : Untouched c)
    (h : Run (exec role) c (up (migrations env)) c') (hrows : c₂.emptied owned = c'.emptied owned)
    (hp : p ∈ tenantTables) (ht : (p.1, t) ∈ c₂.tables)
    (hsession : reader.session = s.currentSetting)
    (hcell : r p.2.2 = some (.uuid (T.tenant x))) :
    t.sees reader r = (reader.bypass || T.visible env.codec s x) := by
  obtain ⟨hrow, hforced, hpolicies⟩ :=
    Ddl.security_of_emptied_eq hrows (secured_of_up hc h hp) t ht
  have hvisible : T.visible env.codec s x =
      (tenantPolicy env p.2.1 p.2.2).passes reader.session ([p.2.2].map r) := by
    rw [tenantPolicy_passes, hcell, hsession]
    rfl
  have hpolicy : (tenantPolicy env p.2.1 p.2.2).columns = [p.2.2] := rfl
  rw [Ddl.Table.sees, hrow, hforced, hpolicies, List.any_cons, List.any_nil, hpolicy, ← hvisible]
  cases reader.bypass <;> cases reader.owner <;> simp

/-- The owner of the tables, in a session of another workspace, is not shown the workspace. -/
theorem sees_otherWorkspace : ∃ t : Ddl.Table String Cell (Option String),
    ("workspace", t) ∈ (migrated 5).tables ∧
    t.sees ⟨some (Codec.unary.uuidText 2), true, false⟩
      (fun n => if n = "id" then some (.uuid 1) else none) = false := by
  have hthere : "workspace" ∈ (migrated 5).tableNames := by decide +kernel
  obtain ⟨⟨n, t⟩, ht, rfl⟩ := List.mem_map.mp hthere
  refine ⟨t, ht, ?_⟩
  rw [sees_eq_visible TenantTable.workspace ⟨1, "", 0, 0, 0, 0⟩
    ⟨.empty, some (Codec.unary.uuidText 2), none, []⟩
    (p := ("workspace", "tenant_workspace_policy", "id")) untouched_emptyDatabase
    (run_migrated (k := 5) (by decide +kernel)) rfl List.mem_cons_self ht rfl rfl]
  decide

end Dandori.Migrator
