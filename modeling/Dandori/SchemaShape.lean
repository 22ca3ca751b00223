import Dandori.SchemaRows

/-!
# What a script makes of one table

The shape of a catalog at a name is its tables of that name without their rows. What a script does to the
shape depends on the shape alone, so the shape after a script is computed from the shape before it.
-/

namespace Dandori.Ddl

variable {ν V S : Type*}

variable [DecidableEq ν] {role : Role S} {c c' : Catalog ν V S} {name : ν}

def Catalog.shape (name : ν) (c : Catalog ν V S) : Catalog ν V S :=
  ⟨[], (c.tables.filter (fun p => p.1 = name)).map (fun p => (p.1, p.2.emptied)), []⟩

/-- The effect of a statement on a shape. -/
def Statement.reshape (name : ν) (role : Role S) (d : Catalog ν V S) (s : Statement ν V S) :
    Catalog ν V S :=
  (d.apply role s).shape name

theorem shape_append {n : ν} {t : Table ν V S} {types : List ν} {functions : List (Function ν)} :
    (Catalog.mk types (c.tables ++ [(n, t)]) functions).shape name =
      ⟨[], (c.shape name).tables ++ if n = name then [(n, t.emptied)] else [], []⟩ := by
  unfold Catalog.shape
  simp only [List.filter_append, List.map_append]
  by_cases hn : n = name
  · simp [hn]
  · simp [hn]

theorem shape_shape : (c.shape name).shape name = c.shape name := by
  simp only [Catalog.shape, List.filter_map, List.filter_filter, List.map_map]
  simp [Function.comp_def, Table.emptied]

theorem shape_mapTables {f : ν → Table ν V S → Table ν V S}
    (hf : ∀ n t, (f n t.emptied).emptied = (f n t).emptied) :
    ((c.shape name).mapTables f).shape name = (c.mapTables f).shape name := by
  simp only [Catalog.shape, Catalog.mapTables, List.filter_map, List.map_map, List.filter_filter]
  simp [Function.comp_def, hf]

theorem shape_modify {table : ν} {f : Table ν V S → Table ν V S}
    (hf : ∀ t, (f t.emptied).emptied = (f t).emptied) :
    ((c.shape name).modify table f).shape name = (c.modify table f).shape name := by
  refine shape_mapTables fun n t => ?_
  by_cases hn : n = table
  · simp only [if_pos hn, hf]
  · simp only [if_neg hn]
    rfl

theorem reshape_shape (s : Statement ν V S) :
    s.reshape name role (c.shape name) = (c.apply role s).shape name := by
  unfold Statement.reshape
  cases s with
  | createType n => exact shape_shape
  | dropType n => exact shape_shape
  | createTable n columns keys foreignKeys checks =>
      simp only [Catalog.apply]
      rw [shape_append, shape_append, shape_shape]
  | dropTable n =>
      simp only [Catalog.apply, Catalog.shape, List.filter_map, List.filter_filter, List.map_map,
        Catalog.mk.injEq, true_and, and_true]
      congr 1
      refine List.filter_congr fun p _ => ?_
      by_cases hp : p.1 = name
      · simp [hp]
      · simp [hp]
  | dropIndex n => exact shape_mapTables fun _ _ => rfl
  | replaceFunction n arguments results =>
      simp only [Catalog.apply]
      split
      · split
        · exact shape_shape
        · exact shape_shape
      · split
        · exact shape_shape
        · exact shape_shape
  | dropFunction n arguments => exact shape_shape
  | revokeFromPublic n arguments => exact shape_shape
  | grantExecute n arguments grantee => exact shape_shape
  | _ => exact shape_modify fun _ => rfl

/-- The statement may change the tables of the name. -/
def Statement.concerns (name : ν) : Statement ν V S → Bool
  | .createTable n .. | .dropTable n | .createIndex n _ | .setRowSecurity n _
  | .forceRowSecurity n _ | .createPolicy n _ | .dropPolicy n _ | .addColumn n _ | .dropColumn n _
  | .fill n .. | .setNotNull n _ | .addCheck n _ | .dropCheck n _ => n = name
  | .dropIndex _ => true
  | _ => false

theorem shape_modify_of_ne {table : ν} {f : Table ν V S → Table ν V S} (hne : table ≠ name) :
    (c.modify table f).shape name = c.shape name := by
  have hmap : ∀ p ∈ c.tables.filter (fun p => p.1 = name),
      ((fun p : ν × Table ν V S => (p.1, p.2.emptied)) ∘
        fun p => (p.1, if p.1 = table then f p.2 else p.2)) p = (p.1, p.2.emptied) := by
    intro p hp
    have hp' : p.1 ≠ table := fun heq => hne (heq ▸ of_decide_eq_true (List.mem_filter.mp hp).2)
    rw [Function.comp_apply, if_neg hp']
  unfold Catalog.shape Catalog.modify Catalog.mapTables
  simp only [List.filter_map, List.map_map, Catalog.mk.injEq, true_and, and_true]
  exact List.map_congr_left hmap

theorem reshape_of_not_concerns {s : Statement ν V S} (hs : s.concerns name = false) :
    (c.apply role s).shape name = c.shape name := by
  cases s with
  | createTable n columns keys foreignKeys checks =>
      have hne : n ≠ name := of_decide_eq_false hs
      rw [Catalog.apply, shape_append, if_neg hne, List.append_nil]
      rfl
  | dropTable n =>
      have hne : n ≠ name := of_decide_eq_false hs
      unfold Catalog.shape
      simp only [Catalog.apply, List.filter_filter, Catalog.mk.injEq, true_and, and_true]
      congr 1
      refine List.filter_congr fun p _ => ?_
      by_cases hp : p.1 = name
      · simp [hp, Ne.symm hne]
      · simp [hp]
  | dropIndex n => simp [Statement.concerns] at hs
  | replaceFunction n arguments results =>
      rw [Catalog.apply]
      split
      · rfl
      · rfl
  | createType n => rfl
  | dropType n => rfl
  | dropFunction n arguments => rfl
  | revokeFromPublic n arguments => rfl
  | grantExecute n arguments grantee => rfl
  | _ => exact shape_modify_of_ne (of_decide_eq_false hs)

/-- The shape after a script, computed from the statements that concern it. -/
theorem shape_of_run {ss : List (Statement ν V S)} (h : Run (exec role) c ss c') :
    c'.shape name =
      (ss.filter (Statement.concerns name)).foldl (Statement.reshape name role) (c.shape name) := by
  induction h with
  | nil _ => rfl
  | @cons d _ _ s _ ha _ ih =>
      obtain ⟨_, rfl⟩ := exec_eq_some.mp ha
      cases hs : s.concerns name with
      | true => rw [ih, List.filter_cons_of_pos hs, List.foldl_cons, reshape_shape]
      | false =>
          rw [ih, List.filter_cons_of_neg (by rw [hs]; exact Bool.false_ne_true),
            reshape_of_not_concerns hs]

/-- Catalogs that differ in rows of some tables have the same shapes. -/
theorem shape_of_emptied_eq {names : List ν} (h : c'.emptied names = c.emptied names) :
    c'.shape name = c.shape name := by
  have hempty : ∀ d : Catalog ν V S, (d.emptied names).shape name = d.shape name := by
    intro d
    unfold Catalog.emptied Catalog.shape Catalog.mapTables
    simp only [List.filter_map, List.map_map, Catalog.mk.injEq, true_and, and_true]
    refine List.map_congr_left fun p _ => ?_
    rw [Function.comp_apply]
    split
    · rfl
    · rfl
  rw [← hempty c', h, hempty]

theorem shape_eq_empty (h : name ∉ c.tableNames) : c.shape name = ⟨[], [], []⟩ := by
  have hnone : c.tables.filter (fun p => p.1 = name) = [] := by
    refine List.filter_eq_nil_iff.mpr fun p hp hn => h ?_
    exact List.mem_map.mpr ⟨p, hp, of_decide_eq_true hn⟩
  rw [Catalog.shape, hnone]
  rfl

/-- A shape with one table says what the table of that name is, up to its rows. -/
theorem emptied_of_shape {u t : Table ν V S} (h : c.shape name = ⟨[], [(name, u)], []⟩)
    (ht : (name, t) ∈ c.tables) : t.emptied = u := by
  have hmem : (name, t.emptied) ∈ (c.shape name).tables :=
    List.mem_map.mpr ⟨(name, t), List.mem_filter.mpr ⟨ht, decide_eq_true rfl⟩, rfl⟩
  rw [h] at hmem
  exact (Prod.mk.inj (List.mem_singleton.mp hmem)).2

/-- There is no second table of the name. -/
theorem eq_of_shape {u t t' : Table ν V S} (h : c.shape name = ⟨[], [(name, u)], []⟩)
    (ht : (name, t) ∈ c.tables) (ht' : (name, t') ∈ c.tables) : t = t' := by
  have hlength := congrArg (fun d : Catalog ν V S => d.tables.length) h
  rw [Catalog.shape, List.length_map] at hlength
  obtain ⟨p, hp⟩ := List.length_eq_one_iff.mp hlength
  have hmem : ∀ x, (name, x) ∈ c.tables → (name, x) = p := by
    intro x hx
    have hx' : (name, x) ∈ c.tables.filter (fun p => p.1 = name) :=
      List.mem_filter.mpr ⟨hx, decide_eq_true rfl⟩
    rw [hp] at hx'
    exact List.mem_singleton.mp hx'
  exact (Prod.mk.inj ((hmem t ht).trans (hmem t' ht').symm)).2

end Dandori.Ddl
