import Dandori.SchemaRows

/-!
# When statements that add go through

An UPDATE that fills a column, followed by `SET NOT NULL`, goes through exactly when every row without a value
is visible to the role and gets a value that the table accepts. Indexes with new names on existing columns
can always be created.
-/

namespace Dandori.Ddl

variable {ν V S : Type*} [DecidableEq ν] {role : Role S} {c c' : Catalog ν V S} {name : ν}

section Backfill

variable {column : ν} {value : (ν → Option V) → Option (Option V)} {t : Table ν V S}

/-- The condition under which every row ends up with a value. -/
def Table.Fillable (role : Role S) (column : ν) (value : (ν → Option V) → Option (Option V))
    (t : Table ν V S) : Prop :=
  ∀ r ∈ t.rows, r column = none → t.sees role r = true ∧
    ∃ v, value r = some (some v) ∧ t.accepts role (Function.update r column (some v)) = true

theorem permits_fill : c.permits role (.fill name column value) = true ↔
    name ∈ c.tableNames ∧ ∀ t, (name, t) ∈ c.tables → column ∈ t.columnNames ∧
      ∀ r ∈ t.rows, t.fills role column r = true →
        ∃ v, value r = some v ∧ t.accepts role (Function.update r column v) = true := by
  simp only [Catalog.permits, onTable_iff, Bool.and_eq_true, decide_eq_true_eq, List.all_eq_true,
    Bool.or_eq_true, Bool.not_eq_true', Option.any_eq_true]
  refine and_congr_right fun _ => forall₂_congr fun t _ => and_congr_right fun _ => ?_
  refine forall₂_congr fun r _ => ?_
  cases t.fills role column r <;> simp

theorem permits_setNotNull : c.permits role (.setNotNull name column) = true ↔
    name ∈ c.tableNames ∧ ∀ t, (name, t) ∈ c.tables → column ∈ t.columnNames ∧
      ∀ r ∈ t.rows, (r column).isSome = true := by
  simp only [Catalog.permits, onTable_iff, Bool.and_eq_true, decide_eq_true_eq, List.all_eq_true]

/-- The rows after a fill that leaves no row without a value. -/
theorem rows_fill (h : t.Fillable role column value) :
    (t.fill role column value).rows = t.rows.map fun r =>
      if r column = none then Function.update r column ((value r).getD none) else r := by
  refine List.map_congr_left fun r hr => ?_
  cases hcell : r column with
  | none =>
      rw [if_pos, if_pos rfl]
      rw [Table.fills, (h r hr hcell).1, hcell]
      rfl
  | some v =>
      rw [if_neg, if_neg (by simp)]
      rw [Table.fills, hcell]
      simp

theorem backfill_iff :
    (∃ d e, exec role c (.fill name column value) = some d ∧
      exec role d (.setNotNull name column) = some e) ↔
    name ∈ c.tableNames ∧ ∀ t, (name, t) ∈ c.tables →
      column ∈ t.columnNames ∧ t.Fillable role column value := by
  have hfills : ∀ (t : Table ν V S) r, t.fills role column r = true ↔
      t.sees role r = true ∧ r column = none := by
    intro t r
    rw [Table.fills, Bool.and_eq_true, Option.isNone_iff_eq_none]
  constructor
  · rintro ⟨d, e, hfill, hset⟩
    obtain ⟨hp, rfl⟩ := exec_eq_some.mp hfill
    obtain ⟨htable, hcells⟩ := permits_fill.mp hp
    obtain ⟨_, hfull⟩ := permits_setNotNull.mp (exec_eq_some.mp hset).1
    refine ⟨htable, fun t ht => ⟨(hcells t ht).1, fun r hr hnone => ?_⟩⟩
    have hmem : (name, t.fill role column value) ∈ (c.apply role (.fill name column value)).tables :=
      mem_modify_self _ ht
    have hcell := (hfull _ hmem).2 _ (List.mem_map_of_mem hr)
    by_cases hf : t.fills role column r = true
    · obtain ⟨v, hv, haccepts⟩ := (hcells t ht).2 r hr hf
      rw [if_pos hf, hv, Function.update_self] at hcell
      obtain ⟨w, rfl⟩ := Option.isSome_iff_exists.mp hcell
      exact ⟨((hfills t r).mp hf).1, w, hv, haccepts⟩
    · rw [if_neg hf, hnone] at hcell
      cases hcell
  · rintro ⟨htable, hgood⟩
    have hp : c.permits role (.fill name column value) = true := by
      refine permits_fill.mpr ⟨htable, fun t ht => ⟨(hgood t ht).1, fun r hr hf => ?_⟩⟩
      obtain ⟨_, v, hv, haccepts⟩ := (hgood t ht).2 r hr ((hfills t r).mp hf).2
      exact ⟨some v, hv, haccepts⟩
    refine ⟨_, _, exec_eq_some.mpr ⟨hp, rfl⟩, exec_eq_some.mpr ⟨permits_setNotNull.mpr ?_, rfl⟩⟩
    refine ⟨by rwa [Catalog.apply, tableNames_modify], fun u hu => ?_⟩
    obtain ⟨t, ht, rfl⟩ := mem_modify hu
    rw [if_pos rfl]
    refine ⟨(hgood t ht).1, ?_⟩
    rw [rows_fill (hgood t ht).2]
    intro r hr
    obtain ⟨q, hq, rfl⟩ := List.mem_map.mp hr
    split
    · rename_i hnone
      obtain ⟨_, v, hv, _⟩ := (hgood t ht).2 q hq hnone
      rw [Function.update_self, hv]
      rfl
    · rename_i hsome
      exact Option.isSome_iff_ne_none.mpr hsome

end Backfill

/-! ## The statements after a backfill -/

/-- Statements that change rows or come with a table. -/
def Statement.onRows (name : ν) : Statement ν V S → Bool
  | .createTable n .. => n = name
  | .addColumn .. | .dropColumn .. | .fill .. => true
  | _ => false

theorem rows_of_exec {s : Statement ν V S} (hs : s.onRows name = false) (h : exec role c s = some c')
    {u : Table ν V S} (hu : (name, u) ∈ c'.tables) : ∃ t, (name, t) ∈ c.tables ∧ u.rows = t.rows := by
  have hmodify : ∀ {table : ν} {f : Table ν V S → Table ν V S}, (∀ t, (f t).rows = t.rows) →
      (name, u) ∈ (c.modify table f).tables → ∃ t, (name, t) ∈ c.tables ∧ u.rows = t.rows := by
    intro table f hf hu
    obtain ⟨t, ht, rfl⟩ := mem_modify hu
    refine ⟨t, ht, ?_⟩
    split
    · exact hf t
    · rfl
  obtain ⟨_, rfl⟩ := exec_eq_some.mp h
  cases s with
  | createTable n columns keys foreignKeys checks =>
      rcases List.mem_append.mp hu with hu | hu
      · exact ⟨u, hu, rfl⟩
      · have hn : name = n := (Prod.mk.inj (List.mem_singleton.mp hu)).1
        exact absurd hn.symm (of_decide_eq_false hs)
  | dropTable n => exact ⟨u, (List.mem_filter.mp hu).1, rfl⟩
  | dropIndex n =>
      obtain ⟨p, hp, heq⟩ := List.mem_map.mp hu
      obtain ⟨rfl, rfl⟩ := Prod.mk.inj heq
      exact ⟨p.2, hp, rfl⟩
  | replaceFunction n arguments results =>
      rw [Catalog.apply] at hu
      split at hu
      · exact ⟨u, hu, rfl⟩
      · exact ⟨u, hu, rfl⟩
  | addColumn _ _ => simp [Statement.onRows] at hs
  | dropColumn _ _ => simp [Statement.onRows] at hs
  | fill _ _ _ => simp [Statement.onRows] at hs
  | createType _ => exact ⟨u, hu, rfl⟩
  | dropType _ => exact ⟨u, hu, rfl⟩
  | dropFunction _ _ => exact ⟨u, hu, rfl⟩
  | revokeFromPublic _ _ => exact ⟨u, hu, rfl⟩
  | grantExecute _ _ _ => exact ⟨u, hu, rfl⟩
  | createIndex table index => exact hmodify (f := Table.addIndex index) (fun _ => rfl) hu
  | setRowSecurity table on => exact hmodify (f := Table.setRowSecurity on) (fun _ => rfl) hu
  | forceRowSecurity table on => exact hmodify (f := Table.setForced on) (fun _ => rfl) hu
  | createPolicy table policy => exact hmodify (f := Table.addPolicy policy) (fun _ => rfl) hu
  | dropPolicy table n => exact hmodify (f := Table.dropPolicy n) (fun _ => rfl) hu
  | setNotNull table column => exact hmodify (f := Table.setNotNull column) (fun _ => rfl) hu
  | addCheck table check => exact hmodify (f := Table.addCheck check) (fun _ => rfl) hu
  | dropCheck table n => exact hmodify (f := Table.dropCheck n) (fun _ => rfl) hu

theorem rows_of_run {ss : List (Statement ν V S)} (hss : ∀ s ∈ ss, s.onRows name = false)
    (h : Run (exec role) c ss c') {u : Table ν V S} (hu : (name, u) ∈ c'.tables) :
    ∃ t, (name, t) ∈ c.tables ∧ u.rows = t.rows := by
  induction h with
  | nil _ => exact ⟨u, hu, rfl⟩
  | cons ha _ ih =>
      obtain ⟨t, ht, hrows⟩ := ih (fun s hs => hss s (List.mem_cons_of_mem _ hs)) hu
      obtain ⟨v, hv, hrows'⟩ := rows_of_exec (hss _ List.mem_cons_self) ha ht
      exact ⟨v, hv, hrows.trans hrows'⟩

/-! ## Names that are free -/

section Names

variable {n : ν}

/-- The names of the types, tables and indexes. -/
def Catalog.names (c : Catalog ν V S) : List ν := c.typeNames ++ c.indexNames

/-- The statement creates a type, a table or an index of the name. -/
def Statement.makes (n : ν) : Statement ν V S → Bool
  | .createType m | .createTable m .. => m = n
  | .createIndex _ index => index.name = n
  | _ => false

omit [DecidableEq ν] in
theorem mem_names : n ∈ c.names ↔ n ∈ c.types ∨ n ∈ c.tableNames ∨
    ∃ p ∈ c.tables, n ∈ p.2.indexes.map Index.name := by
  rw [Catalog.names, Catalog.typeNames, Catalog.indexNames, List.mem_append, List.mem_append,
    List.mem_flatMap, or_assoc]

omit [DecidableEq ν] in
theorem free_mapTables {f : ν → Table ν V S → Table ν V S} (hn : n ∉ c.names)
    (hf : ∀ m t, n ∈ (f m t).indexes.map Index.name → n ∈ t.indexes.map Index.name) :
    n ∉ (c.mapTables f).names := by
  rw [mem_names] at hn ⊢
  rw [tableNames_mapTables]
  refine fun hmem => hn (hmem.imp_right (Or.imp_right ?_))
  rintro ⟨p, hp, hmem⟩
  obtain ⟨q, hq, rfl⟩ := List.mem_map.mp hp
  exact ⟨q, hq, hf _ _ hmem⟩

theorem free_modify {f : Table ν V S → Table ν V S} (hn : n ∉ c.names)
    (hf : ∀ t, n ∈ (f t).indexes.map Index.name → n ∈ t.indexes.map Index.name) :
    n ∉ (c.modify name f).names := by
  refine free_mapTables hn fun m t hmem => ?_
  split at hmem
  · exact hf t hmem
  · exact hmem

/-- A free name stays free until a statement makes it. -/
theorem free_of_exec {s : Statement ν V S} (hs : s.makes n = false) (h : exec role c s = some c')
    (hn : n ∉ c.names) : n ∉ c'.names := by
  obtain ⟨_, rfl⟩ := exec_eq_some.mp h
  cases s with
  | createType m =>
      rw [mem_names] at hn ⊢
      refine fun hmem => hn (hmem.imp_left fun hmem => ?_)
      rcases List.mem_append.mp hmem with hmem | hmem
      · exact hmem
      · exact absurd (List.mem_singleton.mp hmem).symm (of_decide_eq_false hs)
  | dropType m =>
      rw [mem_names] at hn ⊢
      exact fun hmem => hn (hmem.imp_left fun hmem => (List.mem_filter.mp hmem).1)
  | createTable m columns keys foreignKeys checks =>
      have hne : n ≠ m := fun heq => of_decide_eq_false hs heq.symm
      simpa [mem_names, Catalog.apply, Catalog.tableNames, Table.create, hne] using hn
  | dropTable m =>
      rw [mem_names] at hn ⊢
      refine fun hmem => hn (hmem.imp_right (Or.imp (fun hmem => ?_) ?_))
      · obtain ⟨p, hp, rfl⟩ := List.mem_map.mp hmem
        exact List.mem_map_of_mem (List.mem_filter.mp hp).1
      · rintro ⟨p, hp, hmem⟩
        exact ⟨p, (List.mem_filter.mp hp).1, hmem⟩
  | createIndex table index =>
      refine free_modify hn fun t hmem => ?_
      rw [Table.addIndex, List.map_append, List.mem_append] at hmem
      rcases hmem with hmem | hmem
      · exact hmem
      · exact absurd (List.mem_singleton.mp hmem).symm (of_decide_eq_false hs)
  | dropIndex m =>
      refine free_mapTables hn fun _ t hmem => ?_
      exact List.map_subset _ (List.filter_subset_self _) hmem
  | dropColumn table column =>
      refine free_modify hn fun t hmem => ?_
      exact List.map_subset _ (List.filter_subset_self _) hmem
  | replaceFunction m arguments results =>
      rw [Catalog.apply]
      split
      · exact hn
      · exact hn
  | dropFunction m arguments => exact hn
  | revokeFromPublic m arguments => exact hn
  | grantExecute m arguments grantee => exact hn
  | _ => exact free_modify hn fun _ hmem => hmem

theorem free_of_run {ss : List (Statement ν V S)} (hss : ∀ s ∈ ss, s.makes n = false)
    (h : Run (exec role) c ss c') (hn : n ∉ c.names) : n ∉ c'.names :=
  Run.invariant_of (P := fun d => n ∉ d.names) (C := fun s => s.makes n = false)
    (fun _ _ _ hd hs h => free_of_exec hs h hd) h hss hn

/-- Writing rows neither takes names nor frees them. -/
theorem names_of_emptied_eq {names : List ν} (h : c'.emptied names = c.emptied names) :
    c'.names = c.names := by
  have hempty : ∀ d : Catalog ν V S, (d.emptied names).names = d.names := by
    intro d
    have hindexes : (d.emptied names).indexNames = d.indexNames := by
      unfold Catalog.indexNames Catalog.emptied Catalog.mapTables
      rw [List.flatMap_map]
      refine List.flatMap_congr fun p _ => ?_
      dsimp only
      split
      · rfl
      · rfl
    rw [Catalog.names, hindexes, Catalog.typeNames, Catalog.emptied, tableNames_mapTables]
    rfl
  rw [← hempty c', h, hempty]

/-- Statements that add leave every type where it is. -/
theorem typeNames_of_exec {s : Statement ν V S} (hs : s.drops = false)
    (h : exec role c s = some c') : c.typeNames ⊆ c'.typeNames := by
  have hmodify : ∀ {table : ν} {f : Table ν V S → Table ν V S},
      c.typeNames ⊆ (c.modify table f).typeNames := by
    intro table f n hn
    rwa [typeNames_modify]
  obtain ⟨_, rfl⟩ := exec_eq_some.mp h
  cases s with
  | createType m =>
      intro n hn
      rcases List.mem_append.mp hn with hn | hn
      · exact List.mem_append_left _ (List.mem_append_left _ hn)
      · exact List.mem_append_right _ hn
  | createTable m columns keys foreignKeys checks =>
      intro n hn
      rcases List.mem_append.mp hn with hn | hn
      · exact List.mem_append_left _ hn
      · exact List.mem_append_right _ (List.map_subset _ (List.subset_append_left _ _) hn)
  | replaceFunction m arguments results =>
      rw [Catalog.apply]
      split
      · exact List.Subset.refl _
      · exact List.Subset.refl _
  | revokeFromPublic m arguments => exact List.Subset.refl _
  | grantExecute m arguments grantee => exact List.Subset.refl _
  | dropType _ => simp [Statement.drops] at hs
  | dropTable _ => simp [Statement.drops] at hs
  | dropIndex _ => simp [Statement.drops] at hs
  | dropFunction _ _ => simp [Statement.drops] at hs
  | _ => exact hmodify

theorem typeNames_of_run {ss : List (Statement ν V S)} (hss : ∀ s ∈ ss, s.drops = false)
    (h : Run (exec role) c ss c') : c.typeNames ⊆ c'.typeNames :=
  Run.invariant_of (P := fun d => c.typeNames ⊆ d.typeNames) (C := fun s => s.drops = false)
    (fun _ _ _ hd hs h => List.Subset.trans hd (typeNames_of_exec hs h)) h hss (List.Subset.refl _)

end Names

section Indexes

theorem permits_createIndex {index : Index ν} (hfree : index.name ∉ c.names)
    (hname : name ∈ c.tableNames)
    (hcolumns : ∀ t, (name, t) ∈ c.tables → index.columns ⊆ t.columnNames) :
    c.permits role (.createIndex name index) = true := by
  rw [Catalog.names, Catalog.typeNames, List.mem_append, List.mem_append, not_or, not_or] at hfree
  simp only [Catalog.permits, Bool.and_eq_true, decide_eq_true_eq, onTable_iff]
  exact ⟨⟨hfree.1.2, hfree.2⟩, hname, hcolumns⟩

/-- Indexes with names that are free and differ from each other, on columns that are there. -/
theorem run_createIndexes {is : List (Index ν)} (hnodup : (is.map Index.name).Nodup)
    (hfree : ∀ i ∈ is, i.name ∉ c.names) (hname : name ∈ c.tableNames)
    (hcolumns : ∀ i ∈ is, ∀ t, (name, t) ∈ c.tables → i.columns ⊆ t.columnNames) :
    ∃ d, Run (exec role) c (is.map fun i => .createIndex name i) d := by
  induction is generalizing c with
  | nil => exact ⟨c, .nil c⟩
  | cons i is ih =>
      obtain ⟨hi, hnodup⟩ := List.nodup_cons.mp hnodup
      have hp : c.permits role (.createIndex name i) = true :=
        permits_createIndex (hfree i List.mem_cons_self) hname (hcolumns i List.mem_cons_self)
      have hexec := exec_eq_some.mpr ⟨hp, rfl⟩
      have hfree' : ∀ j ∈ is, j.name ∉ (c.modify name (Table.addIndex i)).names := by
        intro j hj
        have hne : i.name ≠ j.name := fun heq => hi (heq ▸ List.mem_map_of_mem hj)
        have hmakes : Statement.makes j.name (V := V) (S := S) (.createIndex name i) = false :=
          decide_eq_false hne
        exact free_of_exec hmakes hexec (hfree j (List.mem_cons_of_mem _ hj))
      have hcolumns' : ∀ j ∈ is, ∀ t, (name, t) ∈ (c.modify name (Table.addIndex i)).tables →
          j.columns ⊆ t.columnNames := by
        intro j hj t ht
        obtain ⟨u, hu, rfl⟩ := mem_modify ht
        rw [if_pos rfl]
        exact hcolumns j (List.mem_cons_of_mem _ hj) u hu
      obtain ⟨d, hrun⟩ := ih hnodup hfree' (by rwa [tableNames_modify]) hcolumns'
      exact ⟨d, .cons hexec hrun⟩

/-- A table that may be created, with indexes on its columns. -/
theorem run_createTable {columns : List (Column ν)} {keys : List (List ν)}
    {foreignKeys : List (ForeignKey ν)} {checks : List (Check ν V)}
    (hp : c.permits role (.createTable name columns keys foreignKeys checks) = true)
    {is : List (Index ν)} (hnodup : (is.map Index.name).Nodup)
    (hfree : ∀ i ∈ is, i.name ≠ name ∧ i.name ∉ c.names)
    (hcolumns : ∀ i ∈ is, i.columns ⊆ columns.map Column.name) :
    ∃ d, Run (exec role) c (.createTable name columns keys foreignKeys checks ::
      is.map fun i => .createIndex name i) d := by
  have hexec := exec_eq_some.mpr ⟨hp, rfl⟩
  have hnew : name ∉ c.tableNames := by
    simp only [Catalog.permits, Bool.and_eq_true, decide_eq_true_eq] at hp
    obtain ⟨⟨⟨⟨⟨⟨hname, _⟩, _⟩, _⟩, _⟩, _⟩, _⟩ := hp
    exact fun hmem => hname (List.mem_append_right _ hmem)
  have hfree' : ∀ i ∈ is, i.name ∉ (c.apply role
      (.createTable name columns keys foreignKeys checks)).names := by
    intro i hi
    have hmakes : Statement.makes i.name (V := V) (S := S)
        (.createTable name columns keys foreignKeys checks) = false :=
      decide_eq_false (hfree i hi).1.symm
    exact free_of_exec hmakes hexec (hfree i hi).2
  have hcolumns' : ∀ i ∈ is, ∀ t, (name, t) ∈ (c.apply role
      (.createTable name columns keys foreignKeys checks)).tables → i.columns ⊆ t.columnNames := by
    intro i hi t ht
    rcases List.mem_append.mp ht with ht | ht
    · exact absurd (List.mem_map_of_mem ht) hnew
    · obtain ⟨_, rfl⟩ := Prod.mk.inj (List.mem_singleton.mp ht)
      exact hcolumns i hi
  have hthere : name ∈ (c.apply role
      (.createTable name columns keys foreignKeys checks)).tableNames := by
    simp [Catalog.apply, Catalog.tableNames]
  obtain ⟨d, hd⟩ : ∃ d, Run (exec role) _ _ d := run_createIndexes hnodup hfree' hthere hcolumns'
  exact ⟨d, .cons hexec hd⟩

end Indexes

section Functions

variable {arguments results : List ν}

theorem any_called_mapFunction {f : Function ν → Function ν}
    (hf : ∀ g, (f g).called name arguments = g.called name arguments) :
    (c.mapFunction name arguments f).functions.any (Function.called name arguments) =
      c.functions.any (Function.called name arguments) := by
  have hcalled : ∀ g : Function ν, (if g.called name arguments then f g else g).called name arguments =
      g.called name arguments := by
    intro g
    split
    · exact hf g
    · rfl
  rw [Catalog.mapFunction, List.any_map]
  exact congrArg c.functions.any (funext hcalled)

theorem run_grants (grantees : List ν)
    (hc : c.functions.any (Function.called name arguments) = true) :
    ∃ d, Run (exec role) c (grantees.map fun g => .grantExecute name arguments g) d := by
  induction grantees generalizing c with
  | nil => exact ⟨c, .nil c⟩
  | cons g grantees ih =>
      obtain ⟨d, hd⟩ := ih (c := c.apply role (.grantExecute name arguments g))
        ((any_called_mapFunction
          (f := fun f => { f with executors := f.executors ++ [g] }) fun _ => rfl).trans hc)
      exact ⟨d, .cons (exec_eq_some.mpr ⟨hc, rfl⟩) hd⟩

/-- A new function over types that are there, with its rights. -/
theorem run_createFunction (grantees : List ν) (htypes : arguments ++ results ⊆ c.typeNames)
    (hnew : ∀ f ∈ c.functions, f.called name arguments = false) :
    ∃ d, Run (exec role) c ([.replaceFunction name arguments results,
      .revokeFromPublic name arguments] ++ grantees.map fun g => .grantExecute name arguments g) d := by
  have hany : c.functions.any (Function.called name arguments) = false :=
    List.any_eq_false.mpr fun f hf => Bool.not_eq_true _ ▸ hnew f hf
  have hp : c.permits role (.replaceFunction name arguments results) = true := by
    simp only [Catalog.permits, Bool.and_eq_true, List.all_eq_true, decide_eq_true_eq]
    exact ⟨fun n hn => htypes hn, fun f hf => by rw [hnew f hf]; rfl⟩
  have hthere : (c.apply role (.replaceFunction name arguments results)).functions.any
      (Function.called name arguments) = true := by
    simp [Catalog.apply, hany, Function.called]
  obtain ⟨d, hd⟩ : ∃ d, Run (exec role) _ _ d := run_grants grantees
    ((any_called_mapFunction (f := fun g => { g with publicMayExecute := false }) fun _ => rfl).trans
      hthere)
  exact ⟨d, .cons (exec_eq_some.mpr ⟨hp, rfl⟩) (.cons (exec_eq_some.mpr ⟨hthere, rfl⟩) hd)⟩

end Functions

end Dandori.Ddl
