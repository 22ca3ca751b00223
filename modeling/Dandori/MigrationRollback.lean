import Dandori.Migrations

/-!
# Rolling the migrations back

Each migration is undone by its own `down` on a closed catalog, so every stretch of migrations is undone by
the `down` of the stretch, back to the tables, columns, types, indexes, policies, flags and functions that
were there. Rows written in between do not get in the way: they go with their tables or stay in tables that
remain.
-/

namespace Dandori.Migrator

open Ddl (exec Statement Catalog)

variable {role : Ddl.Role (Option String)} {env : Setup} {c c' : Schema}

abbrev Closed (c : Schema) : Prop := Catalog.Closed c

theorem undone_all {κ : Type} {xs : List κ} {up down : κ → Sql}
    (hdrops : ∀ x ∈ xs, (up x).drops = false)
    (hone : ∀ x ∈ xs, ∀ d d' : Schema, Closed d → exec role d (up x) = some d' →
      exec role d' (down x) = some d) :
    Undone (exec role) Closed (xs.map up) (xs.reverse.map down) := by
  have hfamily : Undone (exec role) (fun d => Closed d ∧ ∀ x ∈ xs, True)
      (xs.map up) (xs.reverse.map down) :=
    Undone.family (R := fun _ _ => True) (fun x hx d d' hd _ h => hone x hx d d' hd h)
      (fun x hx d d' hd h => Ddl.exec_closed (hdrops x hx) hd h)
      (List.pairwise_of_forall fun _ _ _ _ _ _ => trivial)
  exact hfamily.mono fun d hd => ⟨hd, fun _ _ => trivial⟩

theorem undone_types (names : List String) :
    Undone (exec role) Closed
      (names.map fun n => .createType n) (names.reverse.map fun n => .dropType n) :=
  undone_all (fun _ _ => rfl) fun _ _ _ _ hd h => Ddl.undo_createType hd h

theorem undone_tables (tables : List TableDef) :
    Undone (exec role) Closed (tables.map TableDef.create)
      (tables.reverse.map fun t => .dropTable t.name) :=
  undone_all (fun _ _ => rfl) fun _ _ _ _ hd h => Ddl.undo_createTable hd h

theorem undone_indexes (is : List (String × Ddl.Index String)) :
    Undone (exec role) Closed
      (is.map fun p => .createIndex p.1 p.2) (is.reverse.map fun p => .dropIndex p.2.name) :=
  undone_all (fun _ _ => rfl) fun _ _ _ _ _ h => Ddl.undo_createIndex h

theorem undone_createEnumsAndCoreTables :
    Undone (exec role) Closed (createEnumsAndCoreTables env).up
      (createEnumsAndCoreTables env).down := by
  refine (undone_types ["issue_state_category", "issue_priority", "outbox_status"]).append
    (undone_tables [workspace env, workflowVersion env, project env, milestone env, issue env]) ?_
  exact fun d d' hd h => Ddl.closed_of_run (by simp [Statement.drops]) hd h

theorem undone_createActivityOutboxAndIdempotency :
    Undone (exec role) Closed (createActivityOutboxAndIdempotency env).up
      (createActivityOutboxAndIdempotency env).down :=
  undone_tables [activity env, outbox env, idempotencyRecord env]

/-- The indexes are dropped in an order that is not quite the reverse one. -/
theorem undone_createIndexes :
    Undone (exec role) Closed createIndexes.up createIndexes.down := by
  intro d d' hd h
  have hback : Run (exec role) d' _ d := undone_indexes indexes d d' hd h
  have hperm : (indexes.reverse.map fun p => p.2.name).Perm droppedIndexes := List.Perm.swap _ _ _
  apply Ddl.run_dropIndexes_perm hperm
  rwa [List.map_map]

/-- No table of the store has row-level security. -/
def Unsecured (c : Schema) : Prop :=
  ∀ p ∈ tenantTables, Catalog.Security c p.1 fun rowSecurity forced _ =>
    rowSecurity = false ∧ forced = false

theorem tenantTables_pairwise : tenantTables.Pairwise fun p q => p.1 ≠ q.1 := by
  simp [tenantTables]

/-- A statement about another table leaves the tables of the name as they are. -/
theorem tables_of_modify {f : Ddl.Table String Cell (Option String) →
    Ddl.Table String Cell (Option String)} {m n : String} (hne : m ≠ n)
    {t : Ddl.Table String Cell (Option String)} (h : (n, t) ∈ (c.modify m f).tables) :
    (n, t) ∈ c.tables := by
  obtain ⟨u, hu, rfl⟩ := Ddl.mem_modify h
  rwa [if_neg (Ne.symm hne)]

/-- Enabling row-level security does not force it. -/
theorem forced_of_run {names : List (String × String × String)} (hoff : Unsecured c)
    (h : Run (exec role) c (names.map fun p => .setRowSecurity p.1 true) c') :
    ∀ p ∈ tenantTables, ∀ t, (p.1, t) ∈ c'.tables → t.forced = false := by
  refine Run.invariant_of (P := fun d => ∀ p ∈ tenantTables, ∀ t, (p.1, t) ∈ d.tables → t.forced = false)
    (C := fun s => ∃ n, s = .setRowSecurity n true) ?_ h ?_ fun p hp t ht => (hoff p hp t ht).2
  · rintro d _ d' hd ⟨n, rfl⟩ h p hp t ht
    obtain ⟨_, rfl⟩ := Ddl.exec_eq_some.mp h
    obtain ⟨u, hu, rfl⟩ := Ddl.mem_modify ht
    split
    · exact hd p hp u hu
    · exact hd p hp u hu
  · intro s hs
    obtain ⟨p, _, rfl⟩ := List.mem_map.mp hs
    exact ⟨p.1, rfl⟩

theorem undone_enableRlsAndPolicies :
    Undone (exec role) (fun d => Closed d ∧ Unsecured d) (enableRlsAndPolicies env).up
      (enableRlsAndPolicies env).down := by
  have hshow : Undone (exec role) (fun d : Schema => Closed d ∧ ∀ p ∈ tenantTables,
      ∀ t, (p.1, t) ∈ d.tables → t.rowSecurity = false)
      (tenantTables.map fun p => .setRowSecurity p.1 true)
      (tenantTables.reverse.map fun p => .setRowSecurity p.1 false) := by
    refine Undone.family (fun p _ d d' _ hoff h => Ddl.undo_setRowSecurity hoff h)
      (fun p _ d d' hd h => Ddl.exec_closed rfl hd h) (tenantTables_pairwise.imp ?_)
    intro p q hne d d' hoff h t ht
    obtain ⟨_, rfl⟩ := Ddl.exec_eq_some.mp h
    exact hoff t (tables_of_modify hne ht)
  have hforce : Undone (exec role) (fun d : Schema => Closed d ∧ ∀ p ∈ tenantTables,
      ∀ t, (p.1, t) ∈ d.tables → t.forced = false)
      (tenantTables.map fun p => .forceRowSecurity p.1 true)
      (tenantTables.reverse.map fun p => .forceRowSecurity p.1 false) := by
    refine Undone.family (fun p _ d d' _ hoff h => Ddl.undo_forceRowSecurity hoff h)
      (fun p _ d d' hd h => Ddl.exec_closed rfl hd h) (tenantTables_pairwise.imp ?_)
    intro p q hne d d' hoff h t ht
    obtain ⟨_, rfl⟩ := Ddl.exec_eq_some.mp h
    exact hoff t (tables_of_modify hne ht)
  have hpolicies : Undone (exec role) Closed
      (tenantTables.map fun p => .createPolicy p.1 (tenantPolicy env p.2.1 p.2.2))
      (tenantTables.reverse.map fun p => .dropPolicy p.1 p.2.1) :=
    undone_all (fun _ _ => rfl) fun _ _ _ _ _ h => Ddl.undo_createPolicy h
  have hfirst := (hshow.mono fun d (hd : Closed d ∧ Unsecured d) =>
    ⟨hd.1, fun p hp t ht => (hd.2 p hp t ht).1⟩).append hforce fun d d' hd h =>
      ⟨Ddl.closed_of_run (by simp [Statement.drops, tenantTables]) hd.1 h, forced_of_run hd.2 h⟩
  have hall := hfirst.append hpolicies fun d d' hd h =>
    Ddl.closed_of_run (by simp [Statement.drops, tenantTables]) hd.1 h
  rwa [← List.append_assoc] at hall

/-- The listing function is not there under the name and the arguments of the migration. -/
def Unlisted (c : Schema) : Prop :=
  ∀ f ∈ c.functions, f.called listingFunction listingArguments = false

/-- The bucket column goes with what the backfill wrote into it. -/
theorem undone_bucketColumn :
    Undone (exec role) Closed
      [.addColumn "workspace" (nullable "shard_bucket" "smallint"),
        .fill "workspace" "shard_bucket" (backfilledBucket env),
        .setNotNull "workspace" "shard_bucket"]
      [.dropColumn "workspace" "shard_bucket"] := by
  have hadd : Undone (exec role) Closed
      [.addColumn "workspace" (nullable "shard_bucket" "smallint")]
      [.dropColumn "workspace" "shard_bucket"] :=
    Undone.of_step fun _ _ hd h => Ddl.undo_addColumn hd h
  have hfill := hadd.absorb (a := .fill "workspace" "shard_bucket" (backfilledBucket env))
    fun _ _ h => Ddl.dropColumn_fill h
  exact hfill.absorb fun _ _ h => Ddl.dropColumn_setNotNull h

theorem undone_bucketCheck :
    Undone (exec role) Closed
      [.addCheck "workspace" (bucketCheck "workspace_shard_bucket_range_check")]
      [.dropCheck "workspace" "workspace_shard_bucket_range_check"] :=
  Undone.of_step fun _ _ _ h => Ddl.undo_addCheck h

theorem undone_listingFunction :
    Undone (exec role) Unlisted
      ([.replaceFunction listingFunction listingArguments ["uuid", "smallint"],
        .revokeFromPublic listingFunction listingArguments] ++
        (grantedRole env).toList.map
          (fun grantee => .grantExecute listingFunction listingArguments grantee))
      [.dropFunction listingFunction listingArguments] := by
  have hreplace : Undone (exec role) Unlisted
      [.replaceFunction listingFunction listingArguments ["uuid", "smallint"]]
      [.dropFunction listingFunction listingArguments] :=
    Undone.of_step fun _ _ hd h => Ddl.undo_replaceFunction hd h
  have hrevoke := hreplace.absorb (a := .revokeFromPublic listingFunction listingArguments)
    fun d d' h => by
      obtain ⟨_, rfl⟩ := Ddl.exec_eq_some.mp h
      exact Ddl.dropFunction_mapFunction fun _ => rfl
  cases grantedRole env with
  | none => exact hrevoke
  | some grantee =>
      refine hrevoke.absorb (a := .grantExecute listingFunction listingArguments grantee)
        fun d d' h => ?_
      obtain ⟨_, rfl⟩ := Ddl.exec_eq_some.mp h
      exact Ddl.dropFunction_mapFunction fun _ => rfl

theorem undone_createWorkerPartitionLease :
    Undone (exec role) (fun d => Closed d ∧ Unlisted d) (createWorkerPartitionLease env).up
      (createWorkerPartitionLease env).down := by
  have hclosed : ∀ {d d' : Schema} {ss : List Sql}, (∀ s ∈ ss, s.drops = false) → Closed d →
      Run (exec role) d ss d' → Closed d' := fun hss hd h => Ddl.closed_of_run hss hd h
  have hbucket := @undone_bucketColumn role env
  have hcolumn := hbucket.append undone_bucketCheck
    fun _ _ hd h => hclosed (by simp [Statement.drops]) hd h
  have hindex := hcolumn.append
    (undone_indexes [("workspace", ⟨"idx_workspace_shard_bucket", ["shard_bucket", "id"]⟩)])
    fun _ _ hd h => hclosed (by simp [Statement.drops]) hd h
  have htable := hindex.append (undone_tables [workerPartitionLease])
    fun _ _ hd h => hclosed (by simp [Statement.drops]) hd h
  have hindexes := htable.append
    (undone_indexes [("worker_partition_lease",
        ⟨"idx_worker_partition_lease_owner_until", ["lease_owner", "leased_until"]⟩),
      ("worker_partition_lease", ⟨"idx_worker_partition_lease_until", ["leased_until"]⟩),
      ("worker_partition_lease",
        ⟨"idx_worker_partition_lease_bucket_until", ["shard_bucket", "leased_until"]⟩)])
    fun _ _ hd h => hclosed (by simp [Statement.drops, TableDef.create]) hd h
  refine (hindexes.mono fun d (hd : Closed d ∧ Unlisted d) => hd.1).append
    undone_listingFunction fun d d' hd h => ?_
  have hfunctions := Ddl.functions_of_run (by simp [Statement.onFunctions, TableDef.create]) h
  intro f hf
  exact hd.2 f (hfunctions ▸ hf)

/-! ## Stretches of migrations -/

theorem up_builds {m : Migration} (hm : m ∈ migrations env) : ∀ s ∈ m.up, s.drops = false := by
  simp only [migrations, List.mem_cons, List.not_mem_nil, or_false] at hm
  rcases hm with rfl | rfl | rfl | rfl | rfl
  · simp [createEnumsAndCoreTables, TableDef.create, Statement.drops]
  · simp [createActivityOutboxAndIdempotency, TableDef.create, Statement.drops]
  · simp [createIndexes, indexes, Statement.drops]
  · simp [enableRlsAndPolicies, tenantTables, Statement.drops]
  · cases hg : grantedRole env <;>
      simp [createWorkerPartitionLease, TableDef.create, Statement.drops, hg]

theorem down_drops {m : Migration} (hm : m ∈ migrations env) : ∀ s ∈ m.down, s.drops = true := by
  simp only [migrations, List.mem_cons, List.not_mem_nil, or_false] at hm
  rcases hm with rfl | rfl | rfl | rfl | rfl
  · simp [createEnumsAndCoreTables, Statement.drops]
  · simp [createActivityOutboxAndIdempotency, Statement.drops]
  · simp [createIndexes, droppedIndexes, Statement.drops]
  · simp [enableRlsAndPolicies, tenantTables, Statement.drops]
  · simp [createWorkerPartitionLease, Statement.drops]

/-- What the migrations after the first `j` rely on. -/
structure Applied (j : ℕ) (c : Schema) : Prop where
  closed : Closed c
  unsecured : j ≤ 3 → Unsecured c
  unlisted : j ≤ 4 → Unlisted c

theorem applied_next {j : ℕ} {m : Migration} (hm : (migrations env)[j]? = some m)
    (hc : Applied j c) (h : Run (exec role) c m.up c') : Applied (j + 1) c' := by
  have hmem : m ∈ migrations env := List.mem_of_getElem? hm
  refine ⟨Ddl.closed_of_run (up_builds hmem) hc.closed h, fun hj p hp => ?_, fun hj f hf => ?_⟩
  · refine Ddl.security_of_run (fun s hs => ⟨?_, fun _ => ⟨rfl, rfl⟩⟩) h
      (hc.unsecured (by omega) p hp)
    revert s
    rcases j with _ | _ | _ | j
    · cases hm
      simp [createEnumsAndCoreTables, TableDef.create, Statement.onSecurity]
    · cases hm
      simp [createActivityOutboxAndIdempotency, TableDef.create, Statement.onSecurity]
    · cases hm
      simp [createIndexes, indexes, Statement.onSecurity]
    · omega
  · refine hc.unlisted (by omega) f ?_
    rwa [← Ddl.functions_of_run ?_ h]
    rcases j with _ | _ | _ | _ | j
    · cases hm
      simp [createEnumsAndCoreTables, TableDef.create, Statement.onFunctions]
    · cases hm
      simp [createActivityOutboxAndIdempotency, TableDef.create, Statement.onFunctions]
    · cases hm
      simp [createIndexes, indexes, Statement.onFunctions]
    · cases hm
      simp [enableRlsAndPolicies, tenantTables, Statement.onFunctions]
    · omega

theorem undone_migration {j : ℕ} {m : Migration} (hm : (migrations env)[j]? = some m) :
    Undone (exec role) (Applied j) m.up m.down := by
  rcases j with _ | _ | _ | _ | _ | j
  · cases hm
    exact undone_createEnumsAndCoreTables.mono fun d hd => hd.closed
  · cases hm
    exact undone_createActivityOutboxAndIdempotency.mono fun d hd => hd.closed
  · cases hm
    exact undone_createIndexes.mono fun d hd => hd.closed
  · cases hm
    exact undone_enableRlsAndPolicies.mono fun d hd => ⟨hd.closed, hd.unsecured le_rfl⟩
  · cases hm
    exact undone_createWorkerPartitionLease.mono fun d hd => ⟨hd.closed, hd.unlisted le_rfl⟩
  · cases hm

/-- The tables that the migrations create. -/
def owned : List String :=
  ["workspace", "workflow_version", "project", "milestone", "issue", "activity", "outbox",
    "idempotency_record", "worker_partition_lease"]

theorem tenantTables_owned : ∀ p ∈ tenantTables, p.1 ∈ owned := by
  simp [tenantTables, owned]

/-- A database that no migration has been applied to, whatever else is in it. -/
structure Untouched (c : Schema) : Prop where
  closed : Closed c
  tables : ∀ n ∈ owned, n ∉ c.tableNames
  unlisted : Unlisted c

theorem Untouched.applied (hc : Untouched c) : Applied 0 c where
  closed := hc.closed
  unsecured := by
    intro _ p hp t ht
    exact absurd (List.mem_map_of_mem ht) (hc.tables p.1 (tenantTables_owned p hp))
  unlisted := fun _ => hc.unlisted

theorem Applied.mono {i j : ℕ} (h : Applied i c) (hij : i ≤ j) : Applied j c :=
  ⟨h.closed, fun hj => h.unsecured (hij.trans hj), fun hj => h.unlisted (hij.trans hj)⟩

/-- What is at a place of a stretch is at the same place of the whole list. -/
theorem getElem?_stretch {i j k : ℕ} {m : Migration}
    (hm : (((migrations env).take k).drop i)[j]? = some m) : (migrations env)[i + j]? = some m := by
  rw [List.getElem?_drop, List.getElem?_take] at hm
  split at hm
  · exact hm
  · cases hm

theorem applied_of_up {i : ℕ} (hc : Untouched c)
    (h : Run (exec role) c (up ((migrations env).take i)) c') : Applied i c' := by
  have hlast : Applied (0 + ((migrations env).take i).length) c' := by
    refine Run.parts (I := Applied) (fun j m d d' hm hd hr => ?_) hc.applied h
    have hplace : (migrations env)[0 + j]? = some m := getElem?_stretch (i := 0) hm
    exact applied_next hplace hd hr
  refine hlast.mono ?_
  rw [Nat.zero_add, List.length_take]
  exact Nat.min_le_left _ _

theorem undone_stretch (i k : ℕ) :
    Undone (exec role) (Applied i) (up (((migrations env).take k).drop i))
      (down (((migrations env).take k).drop i)) :=
  Undone.parts (I := Applied) (fun _ _ hm => undone_migration (getElem?_stretch hm))
    fun _ _ _ _ hm hd hr => applied_next (getElem?_stretch hm) hd hr

/-- After the first `i` migrations and then those up to `k`, the `down` scripts from `k` back to `i` lead
to the catalog as it was after the first `i`, whatever rows have been written, updated or deleted since,
and the tables that stay keep their rows. -/
theorem rollback {i k : ℕ} {cᵢ cₖ c₂ : Schema} (hc : Untouched c)
    (hi : Run (exec role) c (up ((migrations env).take i)) cᵢ)
    (hk : Run (exec role) cᵢ (up (((migrations env).take k).drop i)) cₖ)
    (hrows : c₂.emptied owned = cₖ.emptied owned) :
    ∃ c₃, Run (exec role) c₂ (down (((migrations env).take k).drop i)) c₃ ∧
      c₃.emptied owned = cᵢ.emptied owned ∧ (c₂ = cₖ → c₃ = cᵢ) ∧ (i = 0 → c₃ = c) ∧
      ∀ n t, (n, t) ∈ c₃.tables → ∃ u, (n, u) ∈ c₂.tables ∧ u.Keeps t := by
  have hback := undone_stretch i k cᵢ cₖ (applied_of_up hc hi) hk
  have hdrops : ∀ s ∈ down (((migrations env).take k).drop i), s.drops = true := by
    intro s hs
    obtain ⟨m, hm, hs⟩ := List.mem_flatMap.mp hs
    exact down_drops (List.mem_of_mem_take (List.mem_of_mem_drop (List.mem_reverse.mp hm))) s hs
  obtain ⟨c₃, hrun, hsame⟩ := Ddl.run_of_emptied_eq hdrops hback hrows
  refine ⟨c₃, hrun, hsame, ?_, ?_, fun n t ht => Ddl.keeps_of_run hdrops hrun ht⟩
  · rintro rfl
    exact hrun.deterministic hback
  · rintro rfl
    cases hi
    have hnames := Ddl.tableNames_of_emptied_eq hsame
    have hclean : ∀ n ∈ owned, n ∉ c₃.tableNames := hnames ▸ hc.tables
    rwa [Ddl.emptied_eq_self hclean, Ddl.emptied_eq_self hc.tables] at hsame

/-! ## A database with nothing in it -/

def emptyDatabase : Schema :=
  ⟨["uuid", "text", "bigint", "integer", "smallint", "timestamptz", "jsonb"], [], []⟩

def superuser : Ddl.Role (Option String) := ⟨none, true, true⟩

def plainSetup : Setup := ⟨.unary, fun _ => 5, none, []⟩

/-- The empty database after the first `k` migrations. -/
def migrated (k : ℕ) : Schema :=
  ((up ((migrations plainSetup).take k)).foldlM (exec superuser) emptyDatabase).getD emptyDatabase

theorem untouched_emptyDatabase : Untouched emptyDatabase where
  closed := by
    constructor <;> simp [emptyDatabase]
  tables := by
    simp [emptyDatabase, Catalog.tableNames]
  unlisted := by
    simp [Unlisted, emptyDatabase]

theorem run_migrated {k : ℕ}
    (hk : ((up ((migrations plainSetup).take k)).foldlM (exec superuser) emptyDatabase).isSome = true) :
    Run (exec superuser) emptyDatabase (up ((migrations plainSetup).take k)) (migrated k) := by
  obtain ⟨d, hd⟩ := Option.isSome_iff_exists.mp hk
  rw [migrated, hd]
  exact Run.of_foldlM hd

/-- All five migrations, a workspace, and all the way back. -/
theorem rollback_emptyDatabase :
    Run (exec superuser)
      ((migrated 5).writeRows "workspace" [fun n => if n = "id" then some (.uuid 7) else none])
      (down (migrations plainSetup)) emptyDatabase := by
  obtain ⟨c₃, hrun, _, _, hback, _⟩ := rollback (i := 0) (k := 5) untouched_emptyDatabase
    (.nil emptyDatabase) (run_migrated (by decide +kernel))
    (Ddl.emptied_writeRows List.mem_cons_self)
  exact hback rfl ▸ hrun

end Dandori.Migrator
