import Dandori.MigratedSecurity
import Dandori.SchemaGrowth

/-!
# Giving old workspaces a bucket

The fifth migration adds the bucket column to a `workspace` table that may hold rows already. Its UPDATE
runs under the row-level security that the fourth migration has forced on the owner, and its NOT NULL does
not. So it goes through exactly when the role that migrates is shown every workspace and no id hashes to the
least integer, and then every workspace has the bucket of its hash.
-/

namespace Dandori.Migrator

open Ddl (exec Statement Catalog)

variable {role : Ddl.Role (Option String)} {env : Setup} {c c' : Schema}

/-- The rows meet the NOT NULL and CHECK constraints of their table. -/
def Valid (t : Ddl.Table String Cell (Option String)) : Prop :=
  ∀ r ∈ t.rows, (∀ k ∈ t.columns, k.notNull = true → (r k.name).isSome = true) ∧
    ∀ k ∈ t.checks, k.meets r = true

/-- The row is shown to the role, and the hash of its id has an absolute value. -/
def Bucketable (env : Setup) (role : Ddl.Role (Option String)) (r : Row) : Prop :=
  ∃ v, r "id" = some v ∧ (role.bypass = true ∨ role.session = some (v.text env.codec)) ∧
    env.hashtext (v.text env.codec) ≠ Int32.minValue

def bucketOf (env : Setup) (v : Cell) : ℕ :=
  (env.hashtext (v.text env.codec)).toInt.natAbs % 1024

/-- What the fourth migration leaves of `workspace`, with its rows. -/
def Old (env : Setup) (t : Ddl.Table String Cell (Option String)) : Prop :=
  t.emptied = ((workspace env).secured env ("workspace", "tenant_workspace_policy", "id")).emptied

theorem backfilledBucket_eq {r : Row} {v : Cell} (hid : r "id" = some v) :
    backfilledBucket env r =
      if env.hashtext (v.text env.codec) = Int32.minValue then none
      else some (some (.smallint (bucketOf env v))) := by
  rw [backfilledBucket, hid]
  rfl

section Rows

variable {t : Ddl.Table String Cell (Option String)} {r : Row} {v : Cell}

theorem sees_addColumn (ht : Old env t) (hid : r "id" = some v) :
    (t.addColumn (nullable "shard_bucket" "smallint")).sees role r = true ↔
      role.bypass = true ∨ role.session = some (v.text env.codec) := by
  have hrow : t.rowSecurity = true := congrArg Ddl.Table.rowSecurity ht
  have hforced : t.forced = true := congrArg Ddl.Table.forced ht
  have hpolicies : t.policies = [tenantPolicy env "tenant_workspace_policy" "id"] :=
    congrArg Ddl.Table.policies ht
  simp [Ddl.Table.sees, Ddl.Table.addColumn, hrow, hforced, hpolicies, tenantPolicy, hid]

/-- The new cell has no part in what the old constraints say about the row. -/
theorem accepts_addColumn (ht : Old env t) (hvalid : Valid t) (hr : r ∈ t.rows) {cell : Option Cell} :
    (t.addColumn (nullable "shard_bucket" "smallint")).accepts role
        (Function.update r "shard_bucket" cell) =
      (t.addColumn (nullable "shard_bucket" "smallint")).sees role
        (Function.update r "shard_bucket" cell) := by
  have hcolumns : t.columns = (workspace env).columns := congrArg Ddl.Table.columns ht
  have hchecks : t.checks = (workspace env).checks := congrArg Ddl.Table.checks ht
  obtain ⟨hfull, hmeets⟩ := hvalid r hr
  rw [hcolumns] at hfull
  rw [hchecks] at hmeets
  simp only [workspace, required, List.mem_cons, List.not_mem_nil, or_false, forall_eq_or_imp,
    forall_eq, lengthCheck, Ddl.Check.meets, List.map_cons, List.map_nil] at hfull hmeets
  simp [Ddl.Table.accepts, Ddl.Table.addColumn, hcolumns, hchecks, workspace, required, nullable,
    lengthCheck, Ddl.Check.meets, hfull, hmeets]

theorem id_of_valid (ht : Old env t) (hvalid : Valid t) (hr : r ∈ t.rows) : ∃ v, r "id" = some v := by
  have hcolumns : t.columns = (workspace env).columns := congrArg Ddl.Table.columns ht
  have hid : required "id" "uuid" ∈ t.columns := hcolumns ▸ List.mem_cons_self
  exact Option.isSome_iff_exists.mp ((hvalid r hr).1 _ hid rfl)

theorem fillable_iff (ht : Old env t) (hvalid : Valid t) :
    (t.addColumn (nullable "shard_bucket" "smallint")).Fillable role "shard_bucket"
      (backfilledBucket env) ↔ ∀ r ∈ t.rows, Bucketable env role r := by
  have hcell : ∀ (r : Row) cell, Function.update r "shard_bucket" cell "id" = r "id" :=
    fun r cell => Function.update_of_ne (by decide) _ _
  constructor
  · intro h r hr
    obtain ⟨v, hid⟩ := id_of_valid ht hvalid hr
    have hid' := (hcell r none).trans hid
    obtain ⟨hsees, w, hw, _⟩ := h _ (List.mem_map_of_mem hr) (Function.update_self _ _ _)
    refine ⟨v, hid, (sees_addColumn ht hid').mp hsees, fun hmin => ?_⟩
    have hnone : some (some w) = none := hw.symm.trans ((backfilledBucket_eq hid').trans (if_pos hmin))
    cases hnone
  · intro h r hr _
    obtain ⟨q, hq, rfl⟩ := List.mem_map.mp hr
    obtain ⟨v, hid, hvisible, hmin⟩ := h q hq
    have hid' : Function.update q "shard_bucket" none "id" = some v := (hcell q none).trans hid
    refine ⟨(sees_addColumn ht hid').mpr hvisible, .smallint (bucketOf env v), ?_, ?_⟩
    · exact (backfilledBucket_eq hid').trans (if_neg hmin)
    · change (t.addColumn (nullable "shard_bucket" "smallint")).accepts role (Function.update
        (Function.update q "shard_bucket" none) "shard_bucket" _) = true
      rw [Function.update_idem, accepts_addColumn ht hvalid hq]
      exact (sees_addColumn ht ((hcell q _).trans hid)).mpr hvisible

end Rows

def leaseNames : List String :=
  ["idx_workspace_shard_bucket", "worker_partition_lease", "idx_worker_partition_lease_owner_until",
    "idx_worker_partition_lease_until", "idx_worker_partition_lease_bucket_until"]

/-- The types that the fifth migration uses are there, and its names are free. -/
structure Ready (c : Schema) : Prop where
  types : ["uuid", "timestamptz", "integer", "smallint"] ⊆ c.typeNames
  free : ∀ n ∈ leaseNames, n ∉ c.names

theorem Ready.of_run (hc : Ready c) {ss : List Sql} (hdrops : ∀ s ∈ ss, s.drops = false)
    (hmakes : ∀ n ∈ leaseNames, ∀ s ∈ ss, s.makes n = false) (h : Run (exec role) c ss c') :
    Ready c' where
  types := List.Subset.trans hc.types (Ddl.typeNames_of_run hdrops h)
  free := fun n hn => Ddl.free_of_run (hmakes n hn) h (hc.free n hn)

/-- The state after the backfill: one `workspace` table, each of whose rows has a bucket. -/
structure Filled (c : Schema) : Prop where
  there : "workspace" ∈ c.tableNames
  columns : ∀ t, ("workspace", t) ∈ c.tables → ["shard_bucket", "id"] ⊆ t.columnNames
  keys : ∀ t, ("workspace", t) ∈ c.tables → ["id"] ∈ t.keys
  checks : ∀ t, ("workspace", t) ∈ c.tables →
    "workspace_shard_bucket_range_check" ∉ t.checks.map Ddl.Check.name
  rows : ∀ t, ("workspace", t) ∈ c.tables → ∀ r ∈ t.rows, ∃ n : ℕ, n < 1024 ∧
    r "shard_bucket" = some (.smallint n)

theorem run_bucketCheck (hc : Filled c) (hready : Ready c) : ∃ d, Run (exec role) c
    [.addCheck "workspace" (bucketCheck "workspace_shard_bucket_range_check"),
      .createIndex "workspace" ⟨"idx_workspace_shard_bucket", ["shard_bucket", "id"]⟩] d ∧
    ∃ t, ("workspace", t) ∈ d.tables ∧ ["id"] ∈ t.keys := by
  have hcheck : c.permits role
      (.addCheck "workspace" (bucketCheck "workspace_shard_bucket_range_check")) = true := by
    simp only [Catalog.permits, Ddl.onTable_iff, Bool.and_eq_true, decide_eq_true_eq,
      List.all_eq_true]
    refine ⟨hc.there, fun t ht => ⟨⟨hc.checks t ht, ?_⟩, fun r hr => ?_⟩⟩
    · exact fun n hn => hc.columns t ht (List.mem_singleton.mp hn ▸ List.mem_cons_self)
    · obtain ⟨n, hn, hcell⟩ := hc.rows t ht r hr
      have hle : (n : Int) ≤ 1023 := by omega
      simp [Ddl.Check.meets, bucketCheck, hcell, hle]
  have hexec := Ddl.exec_eq_some.mpr ⟨hcheck, rfl⟩
  have hindex : (c.modify "workspace"
      (Ddl.Table.addCheck (bucketCheck "workspace_shard_bucket_range_check"))).permits role
      (.createIndex "workspace" ⟨"idx_workspace_shard_bucket", ["shard_bucket", "id"]⟩) = true := by
    refine Ddl.permits_createIndex (Ddl.free_of_exec rfl hexec (hready.free _ List.mem_cons_self))
      (by rw [Ddl.tableNames_modify]; exact hc.there) fun t ht => ?_
    obtain ⟨u, hu, rfl⟩ := Ddl.mem_modify ht
    exact hc.columns u hu
  obtain ⟨⟨n, t⟩, ht, hn⟩ := List.mem_map.mp hc.there
  obtain rfl : n = "workspace" := hn
  exact ⟨_, .cons hexec (.single (Ddl.exec_eq_some.mpr ⟨hindex, rfl⟩)), _,
    Ddl.mem_modify_self _ (Ddl.mem_modify_self _ ht), hc.keys t ht⟩

def leaseIndexes : List (Ddl.Index String) :=
  [⟨"idx_worker_partition_lease_owner_until", ["lease_owner", "leased_until"]⟩,
    ⟨"idx_worker_partition_lease_until", ["leased_until"]⟩,
    ⟨"idx_worker_partition_lease_bucket_until", ["shard_bucket", "leased_until"]⟩]

theorem run_leaseTable (htypes : ["uuid", "timestamptz", "integer", "smallint"] ⊆ c.typeNames)
    (hfree : ∀ n ∈ leaseNames.tail, n ∉ c.names)
    (hworkspace : ∃ t, ("workspace", t) ∈ c.tables ∧ ["id"] ∈ t.keys) : ∃ d, Run (exec role) c
    (workerPartitionLease.create ::
      leaseIndexes.map fun i => .createIndex "worker_partition_lease" i) d := by
  have hp : c.permits role workerPartitionLease.create = true := by
    obtain ⟨t, ht, hkey⟩ := hworkspace
    have htarget : c.hasTarget "worker_partition_lease" [["workspace_id"]] referencesWorkspace = true := by
      rw [Catalog.hasTarget, Bool.or_eq_true, List.any_eq_true]
      refine Or.inr ⟨_, ht, ?_⟩
      simp [referencesWorkspace, references, hkey]
    have hcolumns : referencesWorkspace.columns ⊆ ["workspace_id", "shard_bucket", "lease_owner",
        "leased_at", "leased_until", "updated_at"] := by decide
    have hname := hfree "worker_partition_lease" List.mem_cons_self
    rw [Catalog.names, List.mem_append, not_or] at hname
    simp only [List.cons_subset] at htypes
    simp [TableDef.create, Catalog.permits, workerPartitionLease, required, hname, htypes, htarget,
      hcolumns, bucketCheck]
  have hindexes : ∀ i ∈ leaseIndexes, i.name ≠ "worker_partition_lease" ∧
      i.name ∈ leaseNames.tail := by
    simp [leaseIndexes, leaseNames]
  exact Ddl.run_createTable hp (by decide)
    (fun i hi => ⟨(hindexes i hi).1, hfree i.name (hindexes i hi).2⟩) (by decide)

theorem run_listingFunction (htypes : ["uuid", "timestamptz", "integer", "smallint"] ⊆ c.typeNames)
    (hunlisted : Unlisted c) : ∃ d, Run (exec role) c
    ([.replaceFunction listingFunction listingArguments ["uuid", "smallint"],
      .revokeFromPublic listingFunction listingArguments] ++
      (grantedRole env).toList.map
        (fun grantee => .grantExecute listingFunction listingArguments grantee)) d := by
  have hused : listingArguments ++ ["uuid", "smallint"] ⊆
      ["uuid", "timestamptz", "integer", "smallint"] := by decide
  exact Ddl.run_createFunction _ (List.Subset.trans hused htypes) hunlisted

/-- After the backfill the rest of the migration goes through. -/
theorem run_afterBackfill (hc : Filled c) (hready : Ready c) (hunlisted : Unlisted c) :
    ∃ d, Run (exec role) c ((createWorkerPartitionLease env).up.drop 3) d := by
  obtain ⟨d, hd, hworkspace⟩ : ∃ d, Run (exec role) c _ d ∧ _ := run_bucketCheck hc hready
  have htypes := List.Subset.trans hready.types
    (Ddl.typeNames_of_run (by simp [Statement.drops]) hd)
  have hfree : ∀ n ∈ leaseNames.tail, n ∉ d.names := by
    intro n hn
    refine Ddl.free_of_run ?_ hd (hready.free n (List.mem_of_mem_tail hn))
    revert n
    simp [leaseNames, Statement.makes]
  obtain ⟨e, he⟩ : ∃ e, Run (exec role) d _ e := run_leaseTable htypes hfree hworkspace
  have hsame := Ddl.functions_of_run (by simp [Statement.onFunctions, TableDef.create]) (hd.append he)
  have hlist : Unlisted e := by
    rw [Unlisted, hsame]
    exact hunlisted
  have htypes' := List.Subset.trans htypes
    (Ddl.typeNames_of_run (by simp [Statement.drops, TableDef.create]) he)
  obtain ⟨g, hg⟩ := run_listingFunction htypes' hlist
  exact ⟨g, (hd.append he).append hg⟩

/-! ## The migration -/

/-- The columns and constraints that the fourth migration left, with rows that meet them. -/
structure Upgradable (env : Setup) (c : Schema) (t : Ddl.Table String Cell (Option String)) : Prop where
  there : ("workspace", t) ∈ c.tables
  only : ∀ u, ("workspace", u) ∈ c.tables → u = t
  old : Old env t
  valid : Valid t
  ready : Ready c
  unlisted : Unlisted c

section Upgrade

variable {t u : Ddl.Table String Cell (Option String)}

theorem exec_addBucket (hc : Upgradable env c t) :
    exec role c (.addColumn "workspace" (nullable "shard_bucket" "smallint")) =
      some (c.modify "workspace" (Ddl.Table.addColumn (nullable "shard_bucket" "smallint"))) := by
  refine Ddl.exec_eq_some.mpr ⟨?_, rfl⟩
  have htype : "smallint" ∈ c.typeNames := hc.ready.types (by simp)
  have hnames : t.columnNames = (workspace env).columns.map Ddl.Column.name :=
    congrArg Ddl.Table.columnNames hc.old
  simp only [Catalog.permits, Bool.and_eq_true, decide_eq_true_eq, Ddl.onTable_iff]
  refine ⟨htype, List.mem_map_of_mem hc.there, fun u hu => ?_⟩
  rw [hc.only u hu, hnames]
  simp [workspace, required, nullable]

/-- The first three statements: the column, its values and its NOT NULL. -/
theorem run_backfill_iff (hc : Upgradable env c t) :
    (∃ d, Run (exec role) c ((createWorkerPartitionLease env).up.take 3) d) ↔
      ∀ r ∈ t.rows, Bucketable env role r := by
  have hmem := Ddl.mem_modify_self
    (Ddl.Table.addColumn (nullable "shard_bucket" "smallint")) hc.there
  rw [← fillable_iff hc.old hc.valid]
  constructor
  · rintro ⟨d, hd⟩
    obtain ⟨c₁, hadd, hd⟩ := Run.cons_iff.mp hd
    obtain ⟨c₂, hfill, hd⟩ := Run.cons_iff.mp hd
    obtain ⟨c₃, hset, hd⟩ := Run.cons_iff.mp hd
    rw [exec_addBucket hc] at hadd
    cases hadd
    exact ((Ddl.backfill_iff.mp ⟨c₂, c₃, hfill, hset⟩).2 _ hmem).2
  · intro hfill
    have hfillable : ∀ u, ("workspace", u) ∈
        (c.modify "workspace" (Ddl.Table.addColumn (nullable "shard_bucket" "smallint"))).tables →
        "shard_bucket" ∈ u.columnNames ∧
          u.Fillable role "shard_bucket" (backfilledBucket env) := by
      intro u hu
      obtain ⟨v, hv, rfl⟩ := Ddl.mem_modify hu
      rw [hc.only v hv, if_pos rfl]
      refine ⟨?_, hfill⟩
      rw [Ddl.Table.columnNames_addColumn]
      simp [nullable]
    obtain ⟨c₂, c₃, hfill, hset⟩ := Ddl.backfill_iff.mpr ⟨List.mem_map_of_mem hmem, hfillable⟩
    exact ⟨c₃, .cons (exec_addBucket hc) (.cons hfill (.single hset))⟩

/-- The `workspace` table after the first three statements. -/
def backfilled (env : Setup) (role : Ddl.Role (Option String))
    (t : Ddl.Table String Cell (Option String)) : Ddl.Table String Cell (Option String) :=
  ((t.addColumn (nullable "shard_bucket" "smallint")).fill role "shard_bucket"
    (backfilledBucket env)).setNotNull "shard_bucket"

theorem eq_of_backfill (h : Run (exec role) c ((createWorkerPartitionLease env).up.take 3) c') :
    c' = c.modify "workspace" (backfilled env role) := by
  obtain ⟨c₁, hadd, h⟩ := Run.cons_iff.mp h
  obtain ⟨c₂, hfill, h⟩ := Run.cons_iff.mp h
  obtain ⟨c₃, hset, h⟩ := Run.cons_iff.mp h
  obtain rfl := Run.nil_iff.mp h
  obtain ⟨_, rfl⟩ := Ddl.exec_eq_some.mp hadd
  obtain ⟨_, rfl⟩ := Ddl.exec_eq_some.mp hfill
  obtain ⟨_, rfl⟩ := Ddl.exec_eq_some.mp hset
  rw [Catalog.apply, Catalog.apply, Catalog.apply, Ddl.modify_modify, Ddl.modify_modify]
  rfl

theorem rows_backfilled (hc : Upgradable env c t) (h : ∀ r ∈ t.rows, Bucketable env role r) :
    (backfilled env role t).rows = t.rows.map fun r => Function.update r "shard_bucket"
      ((r "id").map fun v => .smallint (bucketOf env v)) := by
  change ((t.addColumn (nullable "shard_bucket" "smallint")).fill role "shard_bucket"
    (backfilledBucket env)).rows = _
  rw [Ddl.rows_fill ((fillable_iff hc.old hc.valid).mpr h), Ddl.Table.addColumn, List.map_map]
  refine List.map_congr_left fun r hr => ?_
  obtain ⟨v, hid, _, hmin⟩ := h r hr
  have hid' : Function.update r "shard_bucket" none "id" = some v := by
    rwa [Function.update_of_ne (by decide)]
  have hvalue := (backfilledBucket_eq hid').trans (if_neg hmin)
  change (if Function.update r "shard_bucket" none "shard_bucket" = none then
    Function.update (Function.update r "shard_bucket" none) "shard_bucket"
      ((backfilledBucket env (Function.update r "shard_bucket" none)).getD none)
    else Function.update r "shard_bucket" none) = _
  rw [if_pos (Function.update_self _ _ _), hvalue, Function.update_idem, hid]
  rfl

theorem filled_of_backfill (hc : Upgradable env c t) (h : ∀ r ∈ t.rows, Bucketable env role r) :
    Filled (c.modify "workspace" (backfilled env role)) := by
  have hcolumns : t.columnNames = (workspace env).columns.map Ddl.Column.name :=
    congrArg Ddl.Table.columnNames hc.old
  have hkeys : t.keys = (workspace env).keys := congrArg Ddl.Table.keys hc.old
  have hchecks : t.checks = (workspace env).checks := congrArg Ddl.Table.checks hc.old
  have honly : ∀ u, ("workspace", u) ∈ (c.modify "workspace" (backfilled env role)).tables →
      u = backfilled env role t := by
    intro u hu
    obtain ⟨v, hv, rfl⟩ := Ddl.mem_modify hu
    rw [hc.only v hv, if_pos rfl]
  constructor
  · rw [Ddl.tableNames_modify]
    exact List.mem_map_of_mem hc.there
  · intro u hu
    rw [honly u hu, backfilled, Ddl.Table.columnNames_setNotNull]
    change _ ⊆ (t.addColumn (nullable "shard_bucket" "smallint")).columnNames
    rw [Ddl.Table.columnNames_addColumn, hcolumns]
    simp [workspace, required, nullable]
  · intro u hu
    rw [honly u hu]
    exact hkeys ▸ List.mem_cons_self
  · intro u hu
    rw [honly u hu]
    change _ ∉ t.checks.map Ddl.Check.name
    rw [hchecks]
    simp [workspace, lengthCheck]
  · intro u hu r hr
    rw [honly u hu, rows_backfilled hc h] at hr
    obtain ⟨q, hq, rfl⟩ := List.mem_map.mp hr
    obtain ⟨v, hid, _⟩ := h q hq
    refine ⟨bucketOf env v, Nat.mod_lt _ (by decide), ?_⟩
    rw [Function.update_self, hid]
    rfl

theorem run_upgrade_iff (hc : Upgradable env c t) :
    (∃ d, Run (exec role) c (createWorkerPartitionLease env).up d) ↔
      ∀ r ∈ t.rows, Bucketable env role r := by
  have hsplit := List.take_append_drop 3 (createWorkerPartitionLease env).up
  constructor
  · rintro ⟨d, hd⟩
    rw [← hsplit, Run.append_iff] at hd
    obtain ⟨c₃, hfill, _⟩ := hd
    exact (run_backfill_iff hc).mp ⟨c₃, hfill⟩
  · intro h
    obtain ⟨c₃, hfill⟩ := (run_backfill_iff hc).mpr h
    have hready : Ready c₃ := hc.ready.of_run (by simp [createWorkerPartitionLease, Statement.drops])
      (by simp [createWorkerPartitionLease, Statement.makes]) hfill
    have hunlisted : Unlisted c₃ := by
      rw [Unlisted, Ddl.functions_of_run
        (by simp [createWorkerPartitionLease, Statement.onFunctions]) hfill]
      exact hc.unlisted
    have hfilled : Filled c₃ := eq_of_backfill hfill ▸ filled_of_backfill hc h
    obtain ⟨d, hd⟩ := run_afterBackfill hfilled hready hunlisted
    exact ⟨d, hsplit ▸ hfill.append hd⟩

theorem rows_of_upgrade (hc : Upgradable env c t)
    (h : Run (exec role) c (createWorkerPartitionLease env).up c')
    (hu : ("workspace", u) ∈ c'.tables) :
    u.rows = t.rows.map fun r => Function.update r "shard_bucket"
      ((r "id").map fun v => .smallint (bucketOf env v)) := by
  have hbuckets := (run_upgrade_iff hc).mp ⟨c', h⟩
  rw [← List.take_append_drop 3 (createWorkerPartitionLease env).up, Run.append_iff] at h
  obtain ⟨c₃, hfill, hrest⟩ := h
  have hother : ∀ s ∈ (createWorkerPartitionLease env).up.drop 3, s.onRows "workspace" = false := by
    cases hg : grantedRole env <;>
      simp [createWorkerPartitionLease, Statement.onRows, TableDef.create, workerPartitionLease, hg]
  obtain ⟨v, hv, hrows⟩ := Ddl.rows_of_run hother hrest hu
  rw [eq_of_backfill hfill] at hv
  obtain ⟨w, hw, rfl⟩ := Ddl.mem_modify hv
  rw [hrows, if_pos rfl, hc.only w hw, rows_backfilled hc hbuckets]

theorem upgradable_of_up {role₀ : Ddl.Role (Option String)} {c₀ c₄ : Schema} (hc : Untouched c₀)
    (hready : Ready c₀) (h : Run (exec role₀) c₀ (up ((migrations env).take 4)) c₄)
    (hrows : c.emptied owned = c₄.emptied owned) (ht : ("workspace", t) ∈ c.tables)
    (hvalid : Valid t) : Upgradable env c t := by
  have hshape := shape_tenantTable (d := workspace env)
    (p := ("workspace", "tenant_workspace_policy", "id")) hc (List.mem_cons_self) h
  rw [← Ddl.shape_of_emptied_eq hrows] at hshape
  have hready₄ : Ready c₄ := by
    refine hready.of_run ?_ ?_ h
    · simp [up, migrations, createEnumsAndCoreTables, createActivityOutboxAndIdempotency,
        createIndexes, indexes, enableRlsAndPolicies, tenantTables, TableDef.create, Statement.drops]
    · simp [leaseNames, up, migrations, createEnumsAndCoreTables, createActivityOutboxAndIdempotency,
        createIndexes, indexes, enableRlsAndPolicies, tenantTables, TableDef.create, workspace,
        workflowVersion, project, milestone, issue, activity, outbox, idempotencyRecord,
        Statement.makes]
  have hunlisted : Unlisted c₄ := (applied_of_up hc h).unlisted le_rfl
  have hfunctions := congrArg Catalog.functions hrows
  have htypes := congrArg Catalog.types hrows
  change c.functions = c₄.functions at hfunctions
  change c.types = c₄.types at htypes
  have htypeNames : c.typeNames = c₄.typeNames :=
    congrArg₂ List.append htypes (Ddl.tableNames_of_emptied_eq hrows)
  exact {
    there := ht
    only := fun u hu => Ddl.eq_of_shape hshape hu ht
    old := Ddl.emptied_of_shape hshape ht
    valid := hvalid
    ready := ⟨htypeNames ▸ hready₄.types, Ddl.names_of_emptied_eq hrows ▸ hready₄.free⟩
    unlisted := fun f hf => hunlisted f (hfunctions ▸ hf) }

/-- The fifth migration goes through exactly when every workspace is shown to the role that migrates and
its id has a bucket, and then every workspace has the bucket of its id. -/
theorem upgrade {role₀ : Ddl.Role (Option String)} {c₀ c₄ : Schema} (hc : Untouched c₀)
    (hready : Ready c₀) (h : Run (exec role₀) c₀ (up ((migrations env).take 4)) c₄)
    (hrows : c.emptied owned = c₄.emptied owned) (ht : ("workspace", t) ∈ c.tables)
    (hvalid : Valid t) :
    ((∃ d, Run (exec role) c (createWorkerPartitionLease env).up d) ↔
      ∀ r ∈ t.rows, Bucketable env role r) ∧
    ∀ d u, Run (exec role) c (createWorkerPartitionLease env).up d → ("workspace", u) ∈ d.tables →
      u.rows = t.rows.map fun r => Function.update r "shard_bucket"
        ((r "id").map fun v => .smallint (bucketOf env v)) := by
  have hupgradable := upgradable_of_up hc hready h hrows ht hvalid
  exact ⟨run_upgrade_iff hupgradable, fun d u hd hu => rows_of_upgrade hupgradable hd hu⟩

/-! ## One workspace in an otherwise empty store -/

def oneWorkspace : Row := fun n =>
  if n = "id" then some (.uuid 7)
  else if n = "name" then some (.value "name")
  else some (.value "")

theorem ready_emptyDatabase : Ready emptyDatabase where
  types := by simp [emptyDatabase, Catalog.typeNames]
  free := by simp [leaseNames, emptyDatabase, Catalog.names, Catalog.typeNames, Catalog.tableNames,
    Catalog.indexNames]

theorem valid_oneWorkspace (ht : Old plainSetup t) : Valid { t with rows := [oneWorkspace] } := by
  have hcolumns : t.columns = (workspace plainSetup).columns := congrArg Ddl.Table.columns ht
  have hchecks : t.checks = (workspace plainSetup).checks := congrArg Ddl.Table.checks ht
  intro r hr
  obtain rfl := List.mem_singleton.mp hr
  change (∀ k ∈ t.columns, _) ∧ ∀ k ∈ t.checks, _
  rw [hcolumns, hchecks]
  decide

/-- A role that is shown the workspace takes the store over, and the owner of the tables without a
workspace of its own does not. -/
theorem upgrade_oneWorkspace :
    (∃ d, Run (exec superuser) ((migrated 4).writeRows "workspace" [oneWorkspace])
      (createWorkerPartitionLease plainSetup).up d) ∧
    ¬ ∃ d, Run (exec ⟨none, true, false⟩) ((migrated 4).writeRows "workspace" [oneWorkspace])
      (createWorkerPartitionLease plainSetup).up d := by
  have hrun := run_migrated (k := 4) (by decide +kernel)
  have hthere : "workspace" ∈ (migrated 4).tableNames := by decide +kernel
  obtain ⟨⟨n, t⟩, ht, hn⟩ := List.mem_map.mp hthere
  obtain rfl : n = "workspace" := hn
  have hold : Old plainSetup t := Ddl.emptied_of_shape (shape_tenantTable (d := workspace plainSetup)
    (p := ("workspace", "tenant_workspace_policy", "id")) untouched_emptyDatabase
    List.mem_cons_self hrun) ht
  have hmem := Ddl.mem_modify_self (fun t => { t with rows := [oneWorkspace] }) ht
  have hupgrade : ∀ role, (∃ d, Run (exec role) ((migrated 4).writeRows "workspace" [oneWorkspace])
      (createWorkerPartitionLease plainSetup).up d) ↔
        ∀ r ∈ [oneWorkspace], Bucketable plainSetup role r := fun role =>
    (upgrade untouched_emptyDatabase ready_emptyDatabase hrun
      (Ddl.emptied_writeRows List.mem_cons_self) hmem (valid_oneWorkspace hold)).1
  rw [hupgrade superuser, hupgrade ⟨none, true, false⟩]
  constructor
  · intro r hr
    obtain rfl := List.mem_singleton.mp hr
    exact ⟨.uuid 7, rfl, Or.inl rfl, by decide⟩
  · intro h
    obtain ⟨v, hid, hshown, _⟩ := h oneWorkspace (List.mem_singleton.mpr rfl)
    simp at hshown

end Upgrade

end Dandori.Migrator
