import Dandori.SchemaScript
import Dandori.UndoneRun

/-!
# Scripts that undo each other

A catalog is closed when the columns, types and tables that its objects mention are in it; statements
that create keep a catalog closed. On closed catalogs each CREATE is undone by the DROP of the same
object, and a new column by its DROP even after it has been filled.
-/

namespace Dandori.Ddl

variable {ν V S : Type*}

/-- What the parts of the table mention is there. -/
structure Table.Closed (types : List ν) (t : Table ν V S) : Prop where
  types : ∀ k ∈ t.columns, k.type ∈ types
  keys : ∀ ks ∈ t.keys, ks ⊆ t.columnNames
  foreignKeys : ∀ f ∈ t.foreignKeys, f.columns ⊆ t.columnNames
  checks : ∀ k ∈ t.checks, k.columns ⊆ t.columnNames
  indexes : ∀ i ∈ t.indexes, i.columns ⊆ t.columnNames
  policies : ∀ p ∈ t.policies, p.columns ⊆ t.columnNames
  rows : ∀ r ∈ t.rows, ∀ n ∉ t.columnNames, r n = none

structure Catalog.Closed (c : Catalog ν V S) : Prop where
  tables : ∀ p ∈ c.tables, p.2.Closed c.typeNames
  targets : ∀ p ∈ c.tables, ∀ f ∈ p.2.foreignKeys,
    ∃ t, (f.target, t) ∈ c.tables ∧ f.targetColumns ⊆ t.columnNames
  functions : ∀ f ∈ c.functions, f.arguments ++ f.results ⊆ c.typeNames

theorem Table.Closed.mono {types types' : List ν} {t : Table ν V S} (h : t.Closed types)
    (hsub : types ⊆ types') : t.Closed types' where
  types := fun k hk => hsub (h.types k hk)
  keys := h.keys
  foreignKeys := h.foreignKeys
  checks := h.checks
  indexes := h.indexes
  policies := h.policies
  rows := h.rows

theorem Table.Closed.create {types : List ν} {columns : List (Column ν)} {keys : List (List ν)}
    {foreignKeys : List (ForeignKey ν)} {checks : List (Check ν V)}
    (htypes : ∀ k ∈ columns, k.type ∈ types) (hkeys : ∀ ks ∈ keys, ks ⊆ columns.map Column.name)
    (hforeign : ∀ f ∈ foreignKeys, f.columns ⊆ columns.map Column.name)
    (hchecks : ∀ k ∈ checks, k.columns ⊆ columns.map Column.name) :
    (Table.create columns keys foreignKeys checks : Table ν V S).Closed types where
  types := htypes
  keys := hkeys
  foreignKeys := hforeign
  checks := hchecks
  indexes := by simp [Table.create]
  policies := by simp [Table.create]
  rows := by simp [Table.create]

/-- Statements that take away from the catalog; the others only add to it. -/
def Statement.drops : Statement ν V S → Bool
  | .dropType _ | .dropTable _ | .dropIndex _ | .dropPolicy .. => true
  | .setRowSecurity _ on | .forceRowSecurity _ on => !on
  | .dropColumn .. | .dropCheck .. | .dropFunction .. => true
  | _ => false

/-! ## Changing tables -/

section

variable {c : Catalog ν V S} {f g : ν → Table ν V S → Table ν V S}

theorem tableNames_mapTables : (c.mapTables f).tableNames = c.tableNames := by
  unfold Catalog.tableNames Catalog.mapTables
  rw [List.map_map]
  rfl

theorem mapTables_mapTables :
    (c.mapTables f).mapTables g = c.mapTables (fun n t => g n (f n t)) := by
  unfold Catalog.mapTables
  rw [List.map_map]
  rfl

theorem mapTables_congr (h : ∀ n t, (n, t) ∈ c.tables → f n t = g n t) :
    c.mapTables f = c.mapTables g := by
  have hmap : c.tables.map (fun p => (p.1, f p.1 p.2)) = c.tables.map (fun p => (p.1, g p.1 p.2)) :=
    List.map_congr_left fun p hp => by rw [h p.1 p.2 hp]
  unfold Catalog.mapTables
  rw [hmap]

theorem mapTables_eq_self (h : ∀ n t, (n, t) ∈ c.tables → f n t = t) : c.mapTables f = c := by
  rw [mapTables_congr (g := fun _ t => t) h]
  unfold Catalog.mapTables
  rw [List.map_id'' (fun _ => rfl)]

end

section

variable [DecidableEq ν] {role : Role S} {c c' : Catalog ν V S} {name : ν} {types : List ν}

theorem mem_modify {f : Table ν V S → Table ν V S} {n : ν} {t : Table ν V S}
    (h : (n, t) ∈ (c.modify name f).tables) :
    ∃ u, (n, u) ∈ c.tables ∧ t = if n = name then f u else u := by
  obtain ⟨p, hp, heq⟩ := List.mem_map.mp h
  obtain ⟨rfl, rfl⟩ := Prod.mk.inj heq
  exact ⟨p.2, hp, rfl⟩

theorem mem_modify_of_mem {f : Table ν V S → Table ν V S} {n : ν} {t : Table ν V S}
    (h : (n, t) ∈ c.tables) : (n, if n = name then f t else t) ∈ (c.modify name f).tables :=
  List.mem_map.mpr ⟨(n, t), h, rfl⟩

theorem mem_modify_self (f : Table ν V S → Table ν V S) {t : Table ν V S}
    (h : (name, t) ∈ c.tables) : (name, f t) ∈ (c.modify name f).tables := by
  have hmem : (name, if name = name then f t else t) ∈ (c.modify name f).tables := mem_modify_of_mem h
  rwa [if_pos rfl] at hmem

@[simp] theorem tableNames_modify {f : Table ν V S → Table ν V S} :
    (c.modify name f).tableNames = c.tableNames := tableNames_mapTables

@[simp] theorem typeNames_modify {f : Table ν V S → Table ν V S} :
    (c.modify name f).typeNames = c.typeNames := by
  unfold Catalog.typeNames
  rw [tableNames_modify]
  rfl

theorem modify_modify {f g : Table ν V S → Table ν V S} :
    (c.modify name f).modify name g = c.modify name (fun t => g (f t)) := by
  unfold Catalog.modify
  rw [mapTables_mapTables]
  refine mapTables_congr fun n t _ => ?_
  by_cases hn : n = name
  · simp only [if_pos hn]
  · simp only [if_neg hn]

theorem modify_eq_self {f : Table ν V S → Table ν V S}
    (h : ∀ t, (name, t) ∈ c.tables → f t = t) : c.modify name f = c := by
  refine mapTables_eq_self fun n t ht => ?_
  by_cases hn : n = name
  · rw [if_pos hn, h t (hn ▸ ht)]
  · rw [if_neg hn]

theorem onTable_iff {ok : Table ν V S → Bool} : c.onTable name ok = true ↔
    name ∈ c.tableNames ∧ ∀ t, (name, t) ∈ c.tables → ok t = true := by
  unfold Catalog.onTable
  simp only [Bool.and_eq_true, decide_eq_true_eq, List.all_eq_true, Bool.or_eq_true, ne_eq,
    decide_not, Bool.not_eq_true', decide_eq_false_iff_not]
  refine and_congr_right fun _ => ⟨fun h t ht => ?_, fun h p hp => ?_⟩
  · exact (h (name, t) ht).resolve_left (fun hne => hne rfl)
  · by_cases hn : p.1 = name
    · exact Or.inr (h p.2 (hn ▸ hp))
    · exact Or.inl hn

/-! ## Closed catalogs -/

theorem Table.columnNames_addColumn {t : Table ν V S} {k : Column ν} :
    (t.addColumn k).columnNames = t.columnNames ++ [k.name] := List.map_append

theorem Table.columnNames_setNotNull {t : Table ν V S} {column : ν} :
    (t.setNotNull column).columnNames = t.columnNames := by
  unfold Table.columnNames Table.setNotNull
  rw [List.map_map]
  refine List.map_congr_left fun k _ => ?_
  by_cases hk : k.name = column
  · simp [hk]
  · simp [hk]

namespace Table.Closed

variable {t : Table ν V S} {column : ν}

theorem addColumn (h : t.Closed types) {k : Column ν} (hk : k.type ∈ types) :
    (t.addColumn k).Closed types := by
  have hsub : t.columnNames ⊆ (t.addColumn k).columnNames :=
    Table.columnNames_addColumn (t := t) ▸ List.subset_append_left _ _
  constructor
  · intro j hj
    rcases List.mem_append.mp hj with hj | hj
    · exact h.types j hj
    · rwa [List.mem_singleton.mp hj]
  · exact fun ks hks => List.Subset.trans (h.keys ks hks) hsub
  · exact fun f hf => List.Subset.trans (h.foreignKeys f hf) hsub
  · exact fun i hi => List.Subset.trans (h.checks i hi) hsub
  · exact fun i hi => List.Subset.trans (h.indexes i hi) hsub
  · exact fun i hi => List.Subset.trans (h.policies i hi) hsub
  · intro r hr n hn
    obtain ⟨q, hq, rfl⟩ := List.mem_map.mp hr
    rw [Function.update_apply]
    split
    · rfl
    · exact h.rows q hq n (fun hmem => hn (hsub hmem))

theorem fill (h : t.Closed types) (hcolumn : column ∈ t.columnNames)
    {value : (ν → Option V) → Option (Option V)} : (t.fill role column value).Closed types := by
  refine ⟨h.types, h.keys, h.foreignKeys, h.checks, h.indexes, h.policies, ?_⟩
  intro r hr n hn
  obtain ⟨q, hq, rfl⟩ := List.mem_map.mp hr
  have hne : n ≠ column := fun heq => hn (heq ▸ hcolumn)
  split
  · rw [Function.update_of_ne hne]
    exact h.rows q hq n hn
  · exact h.rows q hq n hn

theorem setNotNull (h : t.Closed types) : (t.setNotNull column).Closed types := by
  have hnames : (t.setNotNull column).columnNames = t.columnNames := Table.columnNames_setNotNull
  constructor
  · intro k hk
    obtain ⟨j, hj, rfl⟩ := List.mem_map.mp hk
    have hj' := h.types j hj
    split
    · exact hj'
    · exact hj'
  · exact hnames ▸ h.keys
  · exact hnames ▸ h.foreignKeys
  · exact hnames ▸ h.checks
  · exact hnames ▸ h.indexes
  · exact hnames ▸ h.policies
  · exact hnames ▸ h.rows

end Table.Closed

namespace Catalog.Closed

theorem modify (hc : c.Closed) {f : Table ν V S → Table ν V S}
    (hf : ∀ t, (name, t) ∈ c.tables → (f t).Closed c.typeNames ∧
      t.columnNames ⊆ (f t).columnNames ∧ (f t).foreignKeys = t.foreignKeys) :
    (c.modify name f).Closed := by
  constructor
  · intro p hp
    obtain ⟨t, ht, hpt⟩ := mem_modify (t := p.2) hp
    rw [typeNames_modify, hpt]
    split
    · rename_i hn
      exact (hf t (hn ▸ ht)).1
    · exact hc.tables _ ht
  · intro p hp g hg
    obtain ⟨t, ht, hpt⟩ := mem_modify (t := p.2) hp
    have hkey : g ∈ t.foreignKeys := by
      rw [hpt] at hg
      split at hg
      · rename_i hn
        rwa [(hf t (hn ▸ ht)).2.2] at hg
      · exact hg
    obtain ⟨u, hu, hsub⟩ := hc.targets _ ht g hkey
    refine ⟨_, mem_modify_of_mem hu, ?_⟩
    split
    · rename_i hn
      exact List.Subset.trans hsub (hf u (hn ▸ hu)).2.1
    · exact hsub
  · rw [typeNames_modify]
    exact hc.functions

theorem createTable (hc : c.Closed) {columns : List (Column ν)} {keys : List (List ν)}
    {foreignKeys : List (ForeignKey ν)} {checks : List (Check ν V)}
    (h : c.permits role (.createTable name columns keys foreignKeys checks) = true) :
    (c.apply role (.createTable name columns keys foreignKeys checks)).Closed := by
  simp only [Catalog.permits, Bool.and_eq_true, List.all_eq_true, decide_eq_true_eq] at h
  obtain ⟨⟨⟨⟨⟨⟨_, _⟩, _⟩, htypes⟩, hkeys⟩, hforeign⟩, hchecks⟩ := h
  set d := c.apply role (.createTable name columns keys foreignKeys checks) with hd
  have hsub : c.typeNames ⊆ d.typeNames := by
    intro n hn
    rcases List.mem_append.mp hn with hn | hn
    · exact List.mem_append_left _ hn
    · refine List.mem_append_right _ ?_
      rw [hd, Catalog.tableNames, Catalog.apply, List.map_append]
      exact List.mem_append_left _ hn
  constructor
  · intro p hp
    rcases List.mem_append.mp hp with hp | hp
    · exact (hc.tables p hp).mono hsub
    · rw [List.mem_singleton.mp hp]
      exact .create (fun k hk => hsub (htypes k hk)) hkeys (fun f hf => (hforeign f hf).1) hchecks
  · intro p hp f hf
    rcases List.mem_append.mp hp with hp | hp
    · obtain ⟨t, ht, hcols⟩ := hc.targets p hp f hf
      exact ⟨t, List.mem_append_left _ ht, hcols⟩
    · rw [List.mem_singleton.mp hp] at hf
      have htarget := (hforeign f hf).2
      simp only [Catalog.hasTarget, Bool.or_eq_true, Bool.and_eq_true, decide_eq_true_eq,
        List.any_eq_true] at htarget
      rcases htarget with ⟨hself, hmem⟩ | ⟨q, hq, hname, hmem⟩
      · have hnew : (f.target, Table.create columns keys foreignKeys checks) ∈ d.tables := by
          rw [hself]
          exact List.mem_append_right _ (List.mem_singleton_self _)
        exact ⟨_, hnew, hkeys _ hmem⟩
      · exact ⟨q.2, List.mem_append_left _ (hname ▸ hq), (hc.tables q hq).keys _ hmem⟩
  · exact fun f hf => List.Subset.trans (hc.functions f hf) hsub

theorem mapFunction (hc : c.Closed) {arguments : List ν} {f : Function ν → Function ν}
    (hf : ∀ g, (f g).arguments ++ (f g).results = g.arguments ++ g.results) :
    (c.mapFunction name arguments f).Closed := by
  refine ⟨hc.tables, hc.targets, fun g hg => ?_⟩
  obtain ⟨h, hh, rfl⟩ := List.mem_map.mp hg
  split
  · rw [hf]
    exact hc.functions h hh
  · exact hc.functions h hh

end Catalog.Closed

/-- Statements that add to a catalog keep it closed. -/
theorem exec_closed {s : Statement ν V S} (hs : s.drops = false) (hc : c.Closed)
    (h : exec role c s = some c') : c'.Closed := by
  obtain ⟨hp, rfl⟩ := exec_eq_some.mp h
  cases s with
  | createType name =>
      have hsub : c.typeNames ⊆ (c.apply role (.createType name)).typeNames := by
        intro n hn
        rcases List.mem_append.mp hn with hn | hn
        · exact List.mem_append_left _ (List.mem_append_left _ hn)
        · exact List.mem_append_right _ hn
      exact ⟨fun p hp => (hc.tables p hp).mono hsub, hc.targets,
        fun f hf => List.Subset.trans (hc.functions f hf) hsub⟩
  | createTable name columns keys foreignKeys checks => exact hc.createTable hp
  | createIndex table index =>
      simp only [Catalog.permits, Bool.and_eq_true, onTable_iff, decide_eq_true_eq] at hp
      rw [Catalog.apply]
      apply hc.modify
      intro t ht
      have htc := hc.tables _ ht
      refine ⟨{ htc with indexes := fun i hi => ?_ }, List.Subset.refl _, rfl⟩
      rcases List.mem_append.mp hi with hi | hi
      · exact htc.indexes i hi
      · rw [List.mem_singleton.mp hi]
        exact hp.2.2 t ht
  | createPolicy table policy =>
      simp only [Catalog.permits, Bool.and_eq_true, onTable_iff, decide_eq_true_eq] at hp
      rw [Catalog.apply]
      apply hc.modify
      intro t ht
      have htc := hc.tables _ ht
      refine ⟨{ htc with policies := fun i hi => ?_ }, List.Subset.refl _, rfl⟩
      rcases List.mem_append.mp hi with hi | hi
      · exact htc.policies i hi
      · rw [List.mem_singleton.mp hi]
        exact (hp.2 t ht).2
  | addCheck table check =>
      simp only [Catalog.permits, Bool.and_eq_true, onTable_iff, decide_eq_true_eq] at hp
      rw [Catalog.apply]
      apply hc.modify
      intro t ht
      have htc := hc.tables _ ht
      refine ⟨{ htc with checks := fun i hi => ?_ }, List.Subset.refl _, rfl⟩
      rcases List.mem_append.mp hi with hi | hi
      · exact htc.checks i hi
      · rw [List.mem_singleton.mp hi]
        exact (hp.2 t ht).1.2
  | setRowSecurity table on =>
      rw [Catalog.apply]
      apply hc.modify
      intro t ht
      exact ⟨{ hc.tables _ ht with }, List.Subset.refl _, rfl⟩
  | forceRowSecurity table on =>
      rw [Catalog.apply]
      apply hc.modify
      intro t ht
      exact ⟨{ hc.tables _ ht with }, List.Subset.refl _, rfl⟩
  | addColumn table column =>
      simp only [Catalog.permits, Bool.and_eq_true, decide_eq_true_eq] at hp
      rw [Catalog.apply]
      apply hc.modify
      intro t ht
      refine ⟨(hc.tables _ ht).addColumn hp.1, ?_, rfl⟩
      rw [Table.columnNames_addColumn]
      exact List.subset_append_left _ _
  | fill table column value =>
      simp only [Catalog.permits, onTable_iff, Bool.and_eq_true, decide_eq_true_eq] at hp
      rw [Catalog.apply]
      apply hc.modify
      intro t ht
      exact ⟨(hc.tables _ ht).fill (hp.2 t ht).1, List.Subset.refl _, rfl⟩
  | setNotNull table column =>
      rw [Catalog.apply]
      apply hc.modify
      intro t ht
      refine ⟨(hc.tables _ ht).setNotNull, ?_, rfl⟩
      rw [Table.columnNames_setNotNull]
      exact List.Subset.refl _
  | replaceFunction name arguments results =>
      simp only [Catalog.permits, Bool.and_eq_true, List.all_eq_true, decide_eq_true_eq] at hp
      simp only [Catalog.apply]
      split
      · exact hc
      · refine ⟨hc.tables, hc.targets, fun f hf => ?_⟩
        rcases List.mem_append.mp hf with hf | hf
        · exact hc.functions f hf
        · rw [List.mem_singleton.mp hf]
          exact hp.1
  | revokeFromPublic name arguments => exact hc.mapFunction (fun _ => rfl)
  | grantExecute name arguments grantee => exact hc.mapFunction (fun _ => rfl)
  | _ => simp [Statement.drops] at hs

theorem closed_of_run {ss : List (Statement ν V S)} (hss : ∀ s ∈ ss, s.drops = false)
    (hc : c.Closed) (h : Run (exec role) c ss c') : c'.Closed :=
  Run.invariant_of (C := fun s => s.drops = false)
    (fun _ _ _ hc hs h => exec_closed hs hc h) h hss hc

/-- Statements about functions. -/
def Statement.onFunctions : Statement ν V S → Bool
  | .replaceFunction .. | .dropFunction .. | .revokeFromPublic .. | .grantExecute .. => true
  | _ => false

theorem functions_of_exec {s : Statement ν V S} (hs : s.onFunctions = false)
    (h : exec role c s = some c') : c'.functions = c.functions := by
  obtain ⟨_, rfl⟩ := exec_eq_some.mp h
  cases s with
  | replaceFunction _ _ _ => simp [Statement.onFunctions] at hs
  | dropFunction _ _ => simp [Statement.onFunctions] at hs
  | revokeFromPublic _ _ => simp [Statement.onFunctions] at hs
  | grantExecute _ _ _ => simp [Statement.onFunctions] at hs
  | _ => rfl

theorem functions_of_run {ss : List (Statement ν V S)} (hss : ∀ s ∈ ss, s.onFunctions = false)
    (h : Run (exec role) c ss c') : c'.functions = c.functions :=
  Run.invariant_of (P := fun d => d.functions = c.functions) (C := fun s => s.onFunctions = false)
    (fun _ _ _ hd hs h => (functions_of_exec hs h).trans hd) h hss rfl

/-- Statements about the row-level security of a table. -/
def Statement.onSecurity : Statement ν V S → Bool
  | .setRowSecurity .. | .forceRowSecurity .. | .createPolicy .. | .dropPolicy .. => true
  | _ => false

/-- What the row-level security of every table of the name is like. -/
def Catalog.Security (c : Catalog ν V S) (name : ν) (Q : Bool → Bool → List (Policy ν V S) → Prop) :
    Prop := ∀ t, (name, t) ∈ c.tables → Q t.rowSecurity t.forced t.policies

/-- The statement creates a table of the name. -/
def Statement.creates (name : ν) : Statement ν V S → Bool
  | .createTable n .. => n = name
  | _ => false

section

variable {Q : Bool → Bool → List (Policy ν V S) → Prop}

theorem security_modify {table : ν} {f : Table ν V S → Table ν V S}
    (hf : ∀ t, (f t).rowSecurity = t.rowSecurity ∧ (f t).forced = t.forced ∧
      (f t).policies = t.policies)
    (hc : c.Security name Q) : (c.modify table f).Security name Q := by
  intro t ht
  obtain ⟨u, hu, rfl⟩ := mem_modify ht
  split
  · obtain ⟨hrow, hforced, hpolicies⟩ := hf u
    rw [hrow, hforced, hpolicies]
    exact hc u hu
  · exact hc u hu

/-- Other statements keep the row-level security of a table; a new table has none. -/
theorem security_of_exec {s : Statement ν V S} (hs : s.onSecurity = false)
    (hnew : s.creates name = true → Q false false []) (h : exec role c s = some c')
    (hc : c.Security name Q) : c'.Security name Q := by
  obtain ⟨_, rfl⟩ := exec_eq_some.mp h
  cases s with
  | createTable n columns keys foreignKeys checks =>
      intro t ht
      rcases List.mem_append.mp ht with ht | ht
      · exact hc t ht
      · obtain ⟨rfl, rfl⟩ := Prod.mk.inj (List.mem_singleton.mp ht)
        exact hnew (decide_eq_true rfl)
  | dropTable n => exact fun t ht => hc t (List.mem_filter.mp ht).1
  | dropIndex n =>
      intro t ht
      obtain ⟨p, hp, heq⟩ := List.mem_map.mp ht
      obtain ⟨rfl, rfl⟩ := Prod.mk.inj heq
      exact hc p.2 hp
  | replaceFunction n arguments results =>
      rw [Catalog.apply]
      split
      · exact hc
      · exact hc
  | setRowSecurity _ _ => simp [Statement.onSecurity] at hs
  | forceRowSecurity _ _ => simp [Statement.onSecurity] at hs
  | createPolicy _ _ => simp [Statement.onSecurity] at hs
  | dropPolicy _ _ => simp [Statement.onSecurity] at hs
  | createType _ => exact hc
  | dropType _ => exact hc
  | dropFunction _ _ => exact hc
  | revokeFromPublic _ _ => exact hc
  | grantExecute _ _ _ => exact hc
  | _ => exact security_modify (fun _ => ⟨rfl, rfl, rfl⟩) hc

theorem security_of_run {ss : List (Statement ν V S)}
    (hss : ∀ s ∈ ss, s.onSecurity = false ∧ (s.creates name = true → Q false false []))
    (h : Run (exec role) c ss c') (hc : c.Security name Q) : c'.Security name Q :=
  Run.invariant_of (P := fun d => d.Security name Q)
    (C := fun s => s.onSecurity = false ∧ (s.creates name = true → Q false false []))
    (fun _ _ _ hd hs h => security_of_exec hs.1 hs.2 h hd) h hss hc

end

/-! ## What each CREATE leaves behind is gone after the DROP -/

theorem filter_of_notMem {β : Type*} {key : β → ν} {xs : List β} {n : ν} (h : n ∉ xs.map key) :
    xs.filter (fun x => key x ≠ n) = xs := by
  refine List.filter_eq_self.mpr fun x hx => ?_
  have hne : key x ≠ n := fun heq => h (heq ▸ List.mem_map_of_mem hx)
  simpa using hne

theorem filter_append_new {β : Type*} (key : β → ν) {xs : List β} {y : β}
    (h : key y ∉ xs.map key) : (xs ++ [y]).filter (fun x => key x ≠ key y) = xs := by
  rw [List.filter_append, filter_of_notMem h]
  simp

theorem usesType_eq_false (hc : c.Closed) (hname : name ∉ c.typeNames) (counts : ν → Bool) :
    c.usesType name counts = false := by
  unfold Catalog.usesType
  rw [Bool.or_eq_false_iff]
  constructor
  · rw [List.any_eq_false]
    intro p hp huse
    rw [Bool.and_eq_true, List.any_eq_true] at huse
    obtain ⟨_, k, hk, heq⟩ := huse
    exact hname (of_decide_eq_true heq ▸ (hc.tables p hp).types k hk)
  · rw [List.any_eq_false]
    intro f hf huse
    exact hname (hc.functions f hf (of_decide_eq_true huse))

theorem undo_createType (hc : c.Closed) (h : exec role c (.createType name) = some c') :
    exec role c' (.dropType name) = some c := by
  obtain ⟨hp, rfl⟩ := exec_eq_some.mp h
  simp only [Catalog.permits, decide_eq_true_eq] at hp
  have huse := usesType_eq_false hc hp (fun _ => true)
  have htable : name ∉ c.tableNames := fun hmem => hp (List.mem_append_right _ hmem)
  have htype : name ∉ c.types.map id := by
    rw [List.map_id]
    exact fun hmem => hp (List.mem_append_left _ hmem)
  refine exec_eq_some.mpr ⟨?_, ?_⟩
  · change (decide (name ∉ c.tableNames) && !c.usesType name (fun _ => true)) = true
    simp [huse, htable]
  · have hfilter := filter_append_new id htype
    simp only [Catalog.apply]
    exact congrArg (fun types => Catalog.mk types c.tables c.functions) hfilter.symm

section

variable {columns : List (Column ν)} {keys : List (List ν)} {foreignKeys : List (ForeignKey ν)}
  {checks : List (Check ν V)}

theorem indexNames_createTable :
    (c.apply role (.createTable name columns keys foreignKeys checks)).indexNames = c.indexNames := by
  simp [Catalog.indexNames, Catalog.apply, Table.create]

theorem referencedByOther_createTable :
    (c.apply role (.createTable name columns keys foreignKeys checks)).referencedByOther name =
      c.referencedByOther name := by
  rw [Catalog.referencedByOther, Catalog.apply, List.any_append, List.any_cons]
  simp [Catalog.referencedByOther]

theorem usesType_createTable :
    (c.apply role (.createTable name columns keys foreignKeys checks)).usesType name
      (fun n => n ≠ name) = c.usesType name (fun n => n ≠ name) := by
  rw [Catalog.usesType, Catalog.apply, List.any_append, List.any_cons]
  simp [Catalog.usesType]

theorem undo_createTable (hc : c.Closed)
    (h : exec role c (.createTable name columns keys foreignKeys checks) = some c') :
    exec role c' (.dropTable name) = some c := by
  obtain ⟨hp, rfl⟩ := exec_eq_some.mp h
  simp only [Catalog.permits, Bool.and_eq_true, decide_eq_true_eq] at hp
  obtain ⟨⟨⟨⟨⟨⟨hname, hindex⟩, _⟩, _⟩, _⟩, _⟩, _⟩ := hp
  have htable : name ∉ c.tables.map Prod.fst := fun hmem => hname (List.mem_append_right _ hmem)
  refine exec_eq_some.mpr ⟨?_, ?_⟩
  · have huse := usesType_eq_false hc hname (fun n => n ≠ name)
    have href : c.referencedByOther name = false := by
      unfold Catalog.referencedByOther
      rw [List.any_eq_false]
      intro p hp href
      rw [Bool.and_eq_true, List.any_eq_true] at href
      obtain ⟨_, f, hf, heq⟩ := href
      obtain ⟨t, ht, _⟩ := hc.targets p hp f hf
      exact htable (of_decide_eq_true heq ▸ List.mem_map_of_mem ht)
    simp only [Catalog.permits, indexNames_createTable, referencedByOther_createTable,
      usesType_createTable, huse, href, hindex]
    rfl
  · have hfilter := filter_append_new Prod.fst
      (y := (name, Table.create (V := V) (S := S) columns keys foreignKeys checks)) htable
    simp only [Catalog.apply]
    exact congrArg (fun tables => Catalog.mk c.types tables c.functions) hfilter.symm

end

theorem undo_createIndex {table : ν} {index : Index ν}
    (h : exec role c (.createIndex table index) = some c') :
    exec role c' (.dropIndex index.name) = some c := by
  obtain ⟨hp, rfl⟩ := exec_eq_some.mp h
  simp only [Catalog.permits, Bool.and_eq_true, decide_eq_true_eq] at hp
  have hnew : ∀ p ∈ c.tables, index.name ∉ p.2.indexes.map Index.name := fun p hp' hmem =>
    hp.1.2 (List.mem_flatMap.mpr ⟨p, hp', hmem⟩)
  refine exec_eq_some.mpr ⟨?_, ?_⟩
  · simp only [Catalog.permits, Catalog.apply, tableNames_modify, hp.1.1, not_false_eq_true,
      decide_true]
  · have hback : ∀ n t, (n, t) ∈ c.tables →
        (if n = table then t.addIndex index else t).dropIndex index.name = t := by
      intro n t ht
      split
      · rw [Table.dropIndex, Table.addIndex, filter_append_new Index.name (hnew _ ht)]
      · rw [Table.dropIndex, filter_of_notMem (hnew _ ht)]
    rw [Catalog.apply, Catalog.apply, Catalog.modify, mapTables_mapTables, mapTables_eq_self hback]

/-- A change of one table is undone where its inverse is permitted. -/
theorem undo_modify {f g : Table ν V S → Table ν V S} {s : Statement ν V S}
    (hs : ∀ d, Catalog.apply role d s = d.modify name g)
    (hp : (c.modify name f).permits role s = true)
    (hgf : ∀ t, (name, t) ∈ c.tables → g (f t) = t) : exec role (c.modify name f) s = some c := by
  refine exec_eq_some.mpr ⟨hp, ?_⟩
  rw [hs, modify_modify, modify_eq_self hgf]

section

variable {table : ν}

theorem undo_setRowSecurity (hoff : ∀ t, (table, t) ∈ c.tables → t.rowSecurity = false)
    (h : exec role c (.setRowSecurity table true) = some c') :
    exec role c' (.setRowSecurity table false) = some c := by
  obtain ⟨hp, rfl⟩ := exec_eq_some.mp h
  apply undo_modify (g := Table.setRowSecurity false) (fun _ => rfl)
  · simpa only [Catalog.permits, tableNames_modify] using hp
  · intro t ht
    rw [Table.setRowSecurity, ← hoff t ht]
    rfl

theorem undo_forceRowSecurity (hoff : ∀ t, (table, t) ∈ c.tables → t.forced = false)
    (h : exec role c (.forceRowSecurity table true) = some c') :
    exec role c' (.forceRowSecurity table false) = some c := by
  obtain ⟨hp, rfl⟩ := exec_eq_some.mp h
  apply undo_modify (g := Table.setForced false) (fun _ => rfl)
  · simpa only [Catalog.permits, tableNames_modify] using hp
  · intro t ht
    rw [Table.setForced, ← hoff t ht]
    rfl

theorem undo_createPolicy {policy : Policy ν V S}
    (h : exec role c (.createPolicy table policy) = some c') :
    exec role c' (.dropPolicy table policy.name) = some c := by
  obtain ⟨hp, rfl⟩ := exec_eq_some.mp h
  simp only [Catalog.permits, onTable_iff, Bool.and_eq_true, decide_eq_true_eq] at hp
  apply undo_modify (g := Table.dropPolicy policy.name) (fun _ => rfl) rfl
  intro t ht
  rw [Table.dropPolicy, Table.addPolicy, filter_append_new Policy.name (hp.2 t ht).1]

theorem undo_addCheck {check : Check ν V}
    (h : exec role c (.addCheck table check) = some c') :
    exec role c' (.dropCheck table check.name) = some c := by
  obtain ⟨hp, rfl⟩ := exec_eq_some.mp h
  simp only [Catalog.permits, onTable_iff, Bool.and_eq_true, decide_eq_true_eq] at hp
  apply undo_modify (g := Table.dropCheck check.name) (fun _ => rfl)
  · simpa only [Catalog.permits, tableNames_modify, decide_eq_true_eq] using hp.1
  · intro t ht
    rw [Table.dropCheck, Table.addCheck, filter_append_new Check.name (hp.2 t ht).1.1]

theorem filter_of_subset {β : Type*} {names : β → List ν} {xs : List β} {ns : List ν} {n : ν}
    (hsub : ∀ x ∈ xs, names x ⊆ ns) (hn : n ∉ ns) : xs.filter (fun x => n ∉ names x) = xs :=
  List.filter_eq_self.mpr fun x hx => decide_eq_true fun hmem => hn (hsub x hx hmem)

theorem Table.Closed.dropColumn_addColumn {t : Table ν V S} (h : t.Closed types) {k : Column ν}
    (hk : k.name ∉ t.columnNames) : (t.addColumn k).dropColumn k.name = t := by
  have hcolumns : (t.columns ++ [k]).filter (fun j => j.name ≠ k.name) = t.columns :=
    filter_append_new Column.name hk
  have hkeys : t.keys.filter (fun ks => k.name ∉ ks) = t.keys :=
    filter_of_subset h.keys hk
  have hrows : ∀ r ∈ t.rows,
      ((fun q => Function.update q k.name none) ∘ fun q => Function.update q k.name none) r =
        id r := by
    intro r hr
    rw [Function.comp_apply, Function.update_idem]
    exact Function.update_eq_self_iff.mpr (h.rows r hr k.name hk).symm
  unfold Table.dropColumn Table.addColumn
  simp only [hcolumns, hkeys, List.map_map, (List.map_congr_left hrows).trans (List.map_id _),
    filter_of_subset h.foreignKeys hk, filter_of_subset h.checks hk, filter_of_subset h.indexes hk]

theorem undo_addColumn (hc : c.Closed) {column : Column ν}
    (h : exec role c (.addColumn table column) = some c') :
    exec role c' (.dropColumn table column.name) = some c := by
  obtain ⟨hp, rfl⟩ := exec_eq_some.mp h
  simp only [Catalog.permits, onTable_iff, Bool.and_eq_true, decide_eq_true_eq] at hp
  obtain ⟨_, htable, hnew⟩ := hp
  apply undo_modify (g := Table.dropColumn column.name) (fun _ => rfl)
  · simp only [Catalog.permits, Bool.and_eq_true, onTable_iff, tableNames_modify, List.all_eq_true,
      decide_eq_true_eq, Bool.or_eq_true]
    refine ⟨⟨htable, fun t ht p hpol hmem => ?_⟩, fun p hp => ?_⟩
    · obtain ⟨u, hu, htu⟩ := mem_modify ht
      rw [htu, if_pos rfl] at hpol
      exact (hnew u hu).1 ((hc.tables _ hu).policies p hpol hmem)
    · obtain ⟨u, hu, hpu⟩ := mem_modify (t := p.2) hp
      by_cases hn : p.1 = table
      · exact Or.inl hn
      · right
        intro f hf
        rw [hpu, if_neg hn] at hf
        by_cases htarget : f.target = table
        · right
          intro hmem
          obtain ⟨v, hv, hsub⟩ := hc.targets _ hu f hf
          exact (hnew v (htarget ▸ hv)).1 (hsub hmem)
        · exact Or.inl htarget
  · exact fun t ht => (hc.tables _ ht).dropColumn_addColumn (hnew t ht).1

theorem filter_map_of_fixed {β : Type*} {p : β → Bool} {g : β → β} (hp : ∀ x, p (g x) = p x)
    (hg : ∀ x, p x = true → g x = x) (xs : List β) : (xs.map g).filter p = xs.filter p := by
  have hcomp : p ∘ g = p := funext hp
  rw [List.filter_map, hcomp]
  exact (List.map_congr_left fun x hx => hg x (List.mem_filter.mp hx).2).trans (List.map_id _)

theorem dropColumn_modify {column : ν} {f : Table ν V S → Table ν V S}
    (hpolicies : ∀ t, (f t).policies = t.policies)
    (hdrop : ∀ t, (f t).dropColumn column = t.dropColumn column) :
    exec role (c.modify table f) (.dropColumn table column) =
      exec role c (.dropColumn table column) := by
  have hpermits : (c.modify table f).permits role (.dropColumn table column) =
      c.permits role (.dropColumn table column) := by
    simp only [Catalog.permits, Catalog.onTable, tableNames_modify]
    simp only [Catalog.modify, Catalog.mapTables, List.all_map]
    congr 2
    · congr 1
      funext p
      by_cases hn : p.1 = table
      · simp [hn, hpolicies]
      · simp [hn]
    · funext p
      by_cases hn : p.1 = table
      · simp [hn]
      · simp [hn]
  have happly : (c.modify table f).apply role (.dropColumn table column) =
      c.apply role (.dropColumn table column) := by
    simp only [Catalog.apply, modify_modify, hdrop]
  unfold exec
  rw [hpermits, happly]

/-- A column that is dropped takes what was filled into it along. -/
theorem dropColumn_fill {column : ν} {value : (ν → Option V) → Option (Option V)}
    (h : exec role c (.fill table column value) = some c') :
    exec role c' (.dropColumn table column) = exec role c (.dropColumn table column) := by
  obtain ⟨_, rfl⟩ := exec_eq_some.mp h
  refine dropColumn_modify (fun _ => rfl) fun t => ?_
  unfold Table.dropColumn Table.fill
  simp only [List.map_map, Table.mk.injEq, true_and]
  refine List.map_congr_left fun r _ => ?_
  rw [Function.comp_apply]
  split
  · rw [Function.update_idem]
  · rfl

theorem dropColumn_setNotNull {column : ν}
    (h : exec role c (.setNotNull table column) = some c') :
    exec role c' (.dropColumn table column) = exec role c (.dropColumn table column) := by
  obtain ⟨_, rfl⟩ := exec_eq_some.mp h
  refine dropColumn_modify (fun _ => rfl) fun t => ?_
  unfold Table.dropColumn Table.setNotNull
  simp only [Table.mk.injEq, and_true]
  refine filter_map_of_fixed (fun k => ?_) (fun k hk => ?_) t.columns
  · split
    · rfl
    · rfl
  · exact if_neg (of_decide_eq_true hk)

end

section

variable {arguments results : List ν}

theorem undo_replaceFunction (hnew : ∀ f ∈ c.functions, f.called name arguments = false)
    (h : exec role c (.replaceFunction name arguments results) = some c') :
    exec role c' (.dropFunction name arguments) = some c := by
  obtain ⟨_, rfl⟩ := exec_eq_some.mp h
  have hany : c.functions.any (Function.called name arguments) = false :=
    List.any_eq_false.mpr fun f hf => Bool.not_eq_true _ ▸ hnew f hf
  have hkeep : c.functions.filter (fun f => !f.called name arguments) = c.functions :=
    List.filter_eq_self.mpr fun f hf => by rw [hnew f hf]; rfl
  refine exec_eq_some.mpr ⟨rfl, ?_⟩
  simp only [Catalog.apply, hany, Bool.false_eq_true, if_false, List.filter_append, hkeep]
  simp [Function.called]

/-- The rights on a function go with it. -/
theorem dropFunction_mapFunction {f : Function ν → Function ν}
    (hf : ∀ g, (f g).called name arguments = g.called name arguments) :
    exec role (c.mapFunction name arguments f) (.dropFunction name arguments) =
      exec role c (.dropFunction name arguments) := by
  have hfilter : (c.mapFunction name arguments f).functions.filter
      (fun g => !g.called name arguments) =
      c.functions.filter (fun g => !g.called name arguments) := by
    refine filter_map_of_fixed (fun g => ?_) (fun g hg => ?_) c.functions
    · split
      · rw [hf]
      · rfl
    · rw [if_neg]
      simpa using hg
  unfold exec
  simp only [Catalog.permits, Catalog.apply, hfilter]
  rfl

end

theorem dropIndex_comm (m n : ν) (d : Catalog ν V S) :
    (exec role d (.dropIndex m)).bind (fun e => exec role e (.dropIndex n)) =
      (exec role d (.dropIndex n)).bind (fun e => exec role e (.dropIndex m)) := by
  have hboth : ∀ x y : ν, (exec role d (.dropIndex x)).bind (fun e => exec role e (.dropIndex y)) =
      if x ∉ d.tableNames ∧ y ∉ d.tableNames then
        some ((d.mapTables fun _ => Table.dropIndex x).mapTables fun _ => Table.dropIndex y)
      else none := by
    intro x y
    by_cases hx : x ∈ d.tableNames
    · simp [exec, Catalog.permits, hx]
    · simp [exec, Catalog.permits, Catalog.apply, tableNames_mapTables, hx]
  rw [hboth, hboth, mapTables_mapTables, mapTables_mapTables]
  simp only [Table.dropIndex, List.filter_filter, and_comm, Bool.and_comm]

/-- Dropping indexes in another order drops the same indexes. -/
theorem run_dropIndexes_perm {names names' : List ν} (hperm : names.Perm names')
    (h : Run (exec role) c (names.map fun n => .dropIndex n) c') :
    Run (exec role) c (names'.map fun n => .dropIndex n) c' := by
  refine Run.perm ?_ h (hperm.map _)
  intro a ha b hb d
  obtain ⟨m, _, rfl⟩ := List.mem_map.mp ha
  obtain ⟨n, _, rfl⟩ := List.mem_map.mp hb
  exact dropIndex_comm m n d

end
end Dandori.Ddl
