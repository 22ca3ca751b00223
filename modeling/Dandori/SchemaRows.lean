import Dandori.SchemaUndo

/-!
# Drops and rows

A DROP does not look at rows: what it does to a catalog whose tables of some names have been emptied is what
it does to the catalog. A table that stays keeps its rows, with the cells of the columns that stay.
-/

namespace Dandori.Ddl

variable {ν V S : Type*}

/-- `t` has the rows of `u`, with the cells of the columns that it still has. -/
def Table.Keeps (u t : Table ν V S) : Prop :=
  t.columnNames ⊆ u.columnNames ∧
    ∃ f, t.rows = u.rows.map f ∧ ∀ (q : ν → Option V), ∀ n ∈ t.columnNames, f q n = q n

theorem Table.Keeps.of_eq {t u : Table ν V S} (hcolumns : t.columnNames = u.columnNames)
    (hrows : t.rows = u.rows) : u.Keeps t :=
  ⟨hcolumns ▸ List.Subset.refl _, id, hrows.trans (List.map_id _).symm, fun _ _ _ => rfl⟩

theorem Table.Keeps.trans {t u v : Table ν V S} (h₁ : u.Keeps t) (h₂ : v.Keeps u) : v.Keeps t := by
  obtain ⟨hsub₁, f, hf, hcells₁⟩ := h₁
  obtain ⟨hsub₂, g, hg, hcells₂⟩ := h₂
  refine ⟨List.Subset.trans hsub₁ hsub₂, f ∘ g, by rw [hf, hg, List.map_map], fun q n hn => ?_⟩
  rw [Function.comp_apply, hcells₁ _ n hn, hcells₂ q n (hsub₁ hn)]

def Table.emptied (t : Table ν V S) : Table ν V S := { t with rows := [] }

variable [DecidableEq ν] {role : Role S} {c c' : Catalog ν V S} {name : ν}

/-- The catalog without the rows of the named tables. -/
def Catalog.emptied (c : Catalog ν V S) (names : List ν) : Catalog ν V S :=
  c.mapTables (fun n t => if n ∈ names then t.emptied else t)

theorem emptied_eq_self {names : List ν} (h : ∀ n ∈ names, n ∉ c.tableNames) :
    c.emptied names = c := by
  refine mapTables_eq_self fun n t ht => if_neg fun hn => ?_
  exact h n hn (List.mem_map.mpr ⟨(n, t), ht, rfl⟩)

theorem tableNames_of_emptied_eq {names : List ν} (h : c'.emptied names = c.emptied names) :
    c'.tableNames = c.tableNames := by
  have hnames := congrArg Catalog.tableNames h
  unfold Catalog.emptied at hnames
  rwa [tableNames_mapTables, tableNames_mapTables] at hnames

/-- Tables of catalogs that differ in rows differ in rows. -/
theorem mem_of_emptied_eq {names : List ν} (h : c'.emptied names = c.emptied names)
    {t : Table ν V S} (ht : (name, t) ∈ c'.tables) :
    ∃ u, (name, u) ∈ c.tables ∧ t.emptied = u.emptied := by
  have hmem : (name, if name ∈ names then t.emptied else t) ∈ (c'.emptied names).tables :=
    List.mem_map.mpr ⟨(name, t), ht, rfl⟩
  rw [h] at hmem
  obtain ⟨p, hp, heq⟩ := List.mem_map.mp hmem
  obtain ⟨rfl, heq⟩ := Prod.mk.inj heq
  refine ⟨p.2, hp, ?_⟩
  by_cases hn : p.1 ∈ names
  · simp only [if_pos hn] at heq
    exact heq.symm
  · simp only [if_neg hn] at heq
    rw [heq]

/-- What the catalog is after the rows of a table have been written. -/
def Catalog.writeRows (name : ν) (rows : List (ν → Option V)) (c : Catalog ν V S) : Catalog ν V S :=
  c.modify name (fun t => { t with rows := rows })

theorem emptied_writeRows {names : List ν} (hname : name ∈ names) {rows : List (ν → Option V)} :
    (c.writeRows name rows).emptied names = c.emptied names := by
  unfold Catalog.writeRows Catalog.modify Catalog.emptied
  rw [mapTables_mapTables]
  refine mapTables_congr fun n t _ => ?_
  by_cases hn : n = name
  · rw [if_pos hn, if_pos (hn ▸ hname), if_pos (hn ▸ hname)]
    rfl
  · rw [if_neg hn]

theorem security_of_emptied_eq {names : List ν} {Q : Bool → Bool → List (Policy ν V S) → Prop}
    (h : c'.emptied names = c.emptied names) (hc : c.Security name Q) : c'.Security name Q := by
  intro t ht
  obtain ⟨u, hu, heq⟩ := mem_of_emptied_eq h ht
  have hQ : Q u.emptied.rowSecurity u.emptied.forced u.emptied.policies := hc u hu
  rw [← heq] at hQ
  exact hQ

theorem permits_mapTables {s : Statement ν V S} (hs : s.drops = true)
    {f : ν → Table ν V S → Table ν V S} (hcolumns : ∀ n t, (f n t).columns = t.columns)
    (hforeign : ∀ n t, (f n t).foreignKeys = t.foreignKeys)
    (hindexes : ∀ n t, (f n t).indexes = t.indexes)
    (hpolicies : ∀ n t, (f n t).policies = t.policies) :
    (c.mapTables f).permits role s = c.permits role s := by
  have huse : ∀ name counts, (c.mapTables f).usesType name counts = c.usesType name counts := by
    intro name counts
    simp only [Catalog.usesType, Catalog.mapTables, List.any_map, Function.comp_def, hcolumns]
  have hother : ∀ name, (c.mapTables f).referencedByOther name = c.referencedByOther name := by
    intro name
    simp only [Catalog.referencedByOther, Catalog.mapTables, List.any_map, Function.comp_def,
      hforeign]
  have hindex : (c.mapTables f).indexNames = c.indexNames := by
    simp only [Catalog.indexNames, Catalog.mapTables, List.flatMap_map, hindexes]
  cases s with
  | dropType name => simp only [Catalog.permits, tableNames_mapTables, huse]
  | dropTable name => simp only [Catalog.permits, hindex, hother, huse]
  | dropIndex name => simp only [Catalog.permits, tableNames_mapTables]
  | dropPolicy table name => rfl
  | setRowSecurity table on => simp only [Catalog.permits, tableNames_mapTables]
  | forceRowSecurity table on => simp only [Catalog.permits, tableNames_mapTables]
  | dropCheck table name => simp only [Catalog.permits, tableNames_mapTables]
  | dropFunction name arguments => rfl
  | dropColumn table name =>
      simp only [Catalog.permits, Catalog.onTable, tableNames_mapTables]
      simp only [Catalog.mapTables, List.all_map, Function.comp_def, hpolicies, hforeign]
  | _ => simp [Statement.drops] at hs

theorem modify_emptied {names : List ν} {f : Table ν V S → Table ν V S}
    (hf : ∀ t : Table ν V S, f t.emptied = (f t).emptied) :
    (c.emptied names).modify name f = (c.modify name f).emptied names := by
  unfold Catalog.modify Catalog.emptied
  rw [mapTables_mapTables, mapTables_mapTables]
  refine mapTables_congr fun n t _ => ?_
  by_cases hn : n = name
  · simp only [if_pos hn]
    split
    · exact hf t
    · rfl
  · simp only [if_neg hn]

theorem exec_emptied {s : Statement ν V S} (hs : s.drops = true) (names : List ν)
    (c : Catalog ν V S) :
    exec role (c.emptied names) s = (exec role c s).map (fun d => d.emptied names) := by
  have hpermits : (c.emptied names).permits role s = c.permits role s := by
    refine permits_mapTables hs ?_ ?_ ?_ ?_
    all_goals
      intro n t
      split
      · rfl
      · rfl
  have happly : (c.emptied names).apply role s = (c.apply role s).emptied names := by
    cases s with
    | dropType name => rfl
    | dropTable name =>
        simp only [Catalog.apply, Catalog.emptied, Catalog.mapTables, List.filter_map]
        rfl
    | dropIndex name =>
        simp only [Catalog.apply, Catalog.emptied, mapTables_mapTables]
        refine mapTables_congr fun n t _ => ?_
        split
        · rfl
        · rfl
    | dropPolicy table name => exact modify_emptied fun _ => rfl
    | setRowSecurity table on => exact modify_emptied fun _ => rfl
    | forceRowSecurity table on => exact modify_emptied fun _ => rfl
    | dropCheck table name => exact modify_emptied fun _ => rfl
    | dropColumn table name => exact modify_emptied fun _ => rfl
    | dropFunction name arguments => rfl
    | _ => simp [Statement.drops] at hs
  unfold exec
  rw [hpermits, happly]
  split
  · rfl
  · rfl

theorem Table.keeps_dropColumn (t : Table ν V S) (column : ν) : t.Keeps (t.dropColumn column) := by
  have hmem : ∀ n ∈ (t.dropColumn column).columnNames, n ∈ t.columnNames ∧ n ≠ column := by
    intro n hn
    obtain ⟨k, hk, rfl⟩ := List.mem_map.mp hn
    obtain ⟨hk, hne⟩ := List.mem_filter.mp hk
    exact ⟨List.mem_map_of_mem hk, of_decide_eq_true hne⟩
  refine ⟨fun n hn => (hmem n hn).1, fun r => Function.update r column none, rfl, fun q n hn => ?_⟩
  exact Function.update_of_ne (hmem n hn).2 _ _

theorem keeps_modify {table : ν} {f : Table ν V S → Table ν V S} (hf : ∀ u : Table ν V S, u.Keeps (f u))
    {t : Table ν V S} (ht : (name, t) ∈ (c.modify table f).tables) :
    ∃ u, (name, u) ∈ c.tables ∧ u.Keeps t := by
  obtain ⟨u, hu, rfl⟩ := mem_modify ht
  refine ⟨u, hu, ?_⟩
  split
  · exact hf u
  · exact .of_eq rfl rfl

/-- A DROP leaves the rows of the tables that stay. -/
theorem keeps_of_exec {s : Statement ν V S} (hs : s.drops = true) (h : exec role c s = some c')
    {t : Table ν V S} (ht : (name, t) ∈ c'.tables) : ∃ u, (name, u) ∈ c.tables ∧ u.Keeps t := by
  obtain ⟨_, rfl⟩ := exec_eq_some.mp h
  cases s with
  | dropTable n => exact ⟨t, (List.mem_filter.mp ht).1, .of_eq rfl rfl⟩
  | dropIndex n =>
      obtain ⟨p, hp, heq⟩ := List.mem_map.mp ht
      obtain ⟨rfl, rfl⟩ := Prod.mk.inj heq
      exact ⟨p.2, hp, .of_eq rfl rfl⟩
  | dropColumn table column => exact keeps_modify (fun u => u.keeps_dropColumn column) ht
  | dropType n => exact ⟨t, ht, .of_eq rfl rfl⟩
  | dropFunction n arguments => exact ⟨t, ht, .of_eq rfl rfl⟩
  | setRowSecurity table on => exact keeps_modify (f := Table.setRowSecurity on) (fun _ => .of_eq rfl rfl) ht
  | forceRowSecurity table on => exact keeps_modify (f := Table.setForced on) (fun _ => .of_eq rfl rfl) ht
  | dropPolicy table n => exact keeps_modify (f := Table.dropPolicy n) (fun _ => .of_eq rfl rfl) ht
  | dropCheck table n => exact keeps_modify (f := Table.dropCheck n) (fun _ => .of_eq rfl rfl) ht
  | _ => simp [Statement.drops] at hs

theorem keeps_of_run {ss : List (Statement ν V S)} (hss : ∀ s ∈ ss, s.drops = true)
    (h : Run (exec role) c ss c') {t : Table ν V S} (ht : (name, t) ∈ c'.tables) :
    ∃ u, (name, u) ∈ c.tables ∧ u.Keeps t := by
  induction h with
  | nil _ => exact ⟨t, ht, .of_eq rfl rfl⟩
  | cons ha _ ih =>
      obtain ⟨u, hu, hkeeps⟩ := ih (fun s hs => hss s (List.mem_cons_of_mem _ hs)) ht
      obtain ⟨v, hv, hkeeps'⟩ := keeps_of_exec (hss _ List.mem_cons_self) ha hu
      exact ⟨v, hv, hkeeps.trans hkeeps'⟩

/-- A way back that works for a catalog works for each catalog that differs in rows of some tables, and
leads to a catalog that differs in rows of these tables. -/
theorem run_of_emptied_eq {names : List ν} {downs : List (Statement ν V S)} {c₀ c₁ c₂ : Catalog ν V S}
    (hdowns : ∀ s ∈ downs, s.drops = true) (h : Run (exec role) c₁ downs c₀)
    (hrows : c₂.emptied names = c₁.emptied names) :
    ∃ c₃, Run (exec role) c₂ downs c₃ ∧ c₃.emptied names = c₀.emptied names := by
  have hmap : ∀ d : Catalog ν V S, Run (exec role) (d.emptied names) downs (c₀.emptied names) ↔
      ∃ e, Run (exec role) d downs e ∧ e.emptied names = c₀.emptied names := fun d =>
    Run.map_iff (fun s a ha => exec_emptied ha names s) hdowns
  rw [← hmap, hrows, hmap]
  exact ⟨c₀, h, rfl⟩

end Dandori.Ddl
