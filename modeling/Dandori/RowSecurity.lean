import Dandori.Session

/-!
# Row-level security, statement by statement

Under the setting of a tenant a statement leaves the rows of the other tenants alone, and it does
the same on the whole database as on the tenant's own rows. Only an INSERT can tell the two apart,
when a row of another tenant has the new key, since keys are checked across all tenants.
-/

namespace Dandori

def Db.own (tenant : Uuid) (db : Db) : Db := db.restrict (fun w => w = tenant)

def Db.others (tenant : Uuid) (db : Db) : Db := db.restrict (fun w => w ≠ tenant)

/-- Every tenant's own rows are among the rows that another tenant leaves alone. -/
theorem Db.own_eq_of_others_eq {tenant actor : Uuid} {db db' : Db} (hne : actor ≠ tenant)
    (h : db.others actor = db'.others actor) : db.own tenant = db'.own tenant := by
  have hown : ∀ db : Db, (db.others actor).own tenant = db.own tenant := fun db =>
    db.restrict_restrict_of_imp (fun w hw => by
      rw [of_decide_eq_true hw]
      simpa using hne.symm)
  rw [← hown db, h, hown db']

/-- The state of a transaction on a database with the rows of one tenant only. -/
def TxState.ownView (tenant : Uuid) (s : TxState) : TxState :=
  { s with db := s.db.own tenant, session := none }

/-- The setting is the tenant's, and `others` are the rows of the other tenants. -/
structure Scoped (codec : Codec) (tenant : Uuid) (others : Db) (s : TxState) : Prop where
  setting : s.setting = some (codec.uuidText tenant)
  others : s.db.others tenant = others

/-- Two states of a transaction under the setting of a tenant, equal on the rows of the others. -/
def KeepsOthers (codec : Codec) (tenant : Uuid) (s t : TxState) : Prop :=
  s.setting = some (codec.uuidText tenant) →
    t.setting = some (codec.uuidText tenant) ∧ t.db.others tenant = s.db.others tenant

/-- A computation that leaves the rows of other tenants alone. -/
abbrev Frames (codec : Codec) (tenant : Uuid) {α : Type} (x : Tx α) : Prop :=
  Tx.Ensures (KeepsOthers codec tenant) x

/-- A computation that does the same on the own rows of its tenant. -/
abbrev Isolated (codec : Codec) (tenant : Uuid) (others : Db) {α : Type} (x : Tx α) : Prop :=
  Tx.Mirrored (Scoped codec tenant others) (Scoped codec tenant others) (TxState.ownView tenant) x

section Rules

variable {codec : Codec} {tenant : Uuid} {others : Db} {α β : Type}

theorem Isolated.pure (a : α) : Isolated codec tenant others (pure a : Tx α) :=
  Tx.Mirrored.pure (fun _ hs => hs) a

theorem frames_statement {wrap : DbError → StoreError} {f : TxState → Except DbError (α × Db)}
    (hf : ∀ s a db, s.setting = some (codec.uuidText tenant) → f s = .ok (a, db) →
      db.others tenant = s.db.others tenant) : Frames codec tenant (statement wrap f) := by
  intro s a t h hs
  obtain ⟨_, db, hdb, rfl⟩ := statement_eq_ok.mp h
  exact ⟨hs, hf s a db hs hdb⟩

/-- A statement is isolated when it keeps the other rows and computes the same from the own rows. -/
theorem isolated_statement {wrap : DbError → StoreError} {f : TxState → Except DbError (α × Db)}
    (hframe : Frames codec tenant (statement wrap f))
    (hf : ∀ s, Scoped codec tenant others s →
      f (s.ownView tenant) = (f s).map (Prod.map id (Db.own tenant))) :
    Isolated codec tenant others (statement wrap f) := by
  intro s hs
  have hview := hf s hs
  have hfails : (s.ownView tenant).fails = s.fails := rfl
  cases h : statement wrap f s with
  | error e =>
      unfold statement at h ⊢
      rw [hfails, hview]
      cases hsf : s.fails with
      | true => simpa [hsf] using h
      | false =>
          cases hfs : f s with
          | error d => simpa [hsf, hfs, Except.map] using h
          | ok p => simp [hsf, hfs] at h
  | ok p =>
      obtain ⟨a, t⟩ := p
      obtain ⟨hset, hothers⟩ := hframe s a t h hs.setting
      refine ⟨⟨hset, hothers.trans hs.others⟩, ?_⟩
      obtain ⟨hsf, db, hdb, rfl⟩ := statement_eq_ok.mp h
      refine statement_eq_ok.mpr ⟨hfails.trans hsf, db.own tenant, ?_, rfl⟩
      rw [hview, hdb]
      rfl

end Rules

/-! ## The statements -/

namespace TenantTable

variable {ρ κ : Type} [LinearOrder κ] (T : TenantTable ρ κ) (codec : Codec) (tenant : Uuid)
  (wrap : DbError → StoreError)

/-- No row of `others` has the key of `r` or conflicts with it. -/
def FreshIn (others : Db) (r : ρ) : Prop :=
  ∀ x ∈ T.get others, T.key x ≠ T.key r ∧ T.conflicts r x = false

variable {T codec tenant wrap} {others : Db} {s : TxState} {p : ρ → Bool} {r : ρ} {db : Db}

theorem get_own : T.get (db.own tenant) = (T.get db).filter (fun r => T.tenant r = tenant) :=
  T.get_restrict db _

theorem mem_get_others {x : ρ} : x ∈ T.get (db.others tenant) ↔ x ∈ T.get db ∧ T.tenant x ≠ tenant := by
  unfold Db.others
  rw [T.get_restrict, Table.mem_filter, decide_eq_true_eq]

theorem own_set {t : Table T.key T.check} : (T.set db t).own tenant =
    T.set (db.own tenant) (t.filter (fun r => T.tenant r = tenant)) := T.set_restrict db t _

/-- Replacing a table keeps the rows of the others when it keeps those of this table. -/
theorem others_set {t : Table T.key T.check}
    (h : t.filter (fun r => T.tenant r ≠ tenant) = (T.get db).filter (fun r => T.tenant r ≠ tenant)) :
    (T.set db t).others tenant = db.others tenant := by
  have hget : T.get (db.others tenant) = (T.get db).filter (fun r => T.tenant r ≠ tenant) :=
    T.get_restrict db _
  have hset : (T.set db t).others tenant =
      T.set (db.others tenant) (t.filter (fun r => T.tenant r ≠ tenant)) := T.set_restrict db t _
  rw [hset, h, ← hget, T.set_get]

theorem visible_ownView (hs : s.setting = some (codec.uuidText tenant)) :
    T.visible codec (s.ownView tenant) = T.visible codec s := by
  funext r
  have hset : (s.ownView tenant).setting = some (codec.uuidText tenant) := hs
  rw [Bool.eq_iff_iff, T.visible_iff codec hset, T.visible_iff codec hs]

theorem selected_ownView (hs : s.setting = some (codec.uuidText tenant)) :
    T.selected codec p (s.ownView tenant) = T.selected codec p s := by
  funext r
  unfold selected
  rw [visible_ownView hs]

theorem tenant_of_selected (hs : s.setting = some (codec.uuidText tenant)) {x : ρ}
    (hx : T.selected codec p s x = true) : T.tenant x = tenant := (selected_iff hs).mp hx |>.1

theorem own_rows_filter_selected (hs : s.setting = some (codec.uuidText tenant)) :
    (T.get (s.db.own tenant)).rows.filter (T.selected codec p s) =
      (T.get s.db).rows.filter (T.selected codec p s) := by
  rw [get_own]
  change ((T.get s.db).rows.filter _).filter _ = _
  rw [List.filter_filter]
  refine List.filter_congr (fun x _ => ?_)
  cases hx : T.selected codec p s x with
  | false => rfl
  | true => simp [tenant_of_selected hs hx]

theorem frames_select : Frames codec tenant (T.select codec wrap p) := by
  refine frames_statement (fun s rows db hs h => ?_)
  cases h
  rfl

theorem isolated_select : Isolated codec tenant others (T.select codec wrap p) := by
  refine isolated_statement frames_select (fun s hs => ?_)
  have hrows := own_rows_filter_selected (T := T) (p := p) hs.setting
  rw [visible_ownView hs.setting]
  exact congrArg (fun rows => Except.ok (rows, s.db.own tenant)) hrows

theorem insertRow_others (hs : s.setting = some (codec.uuidText tenant))
    (h : T.insertRow codec r s = .ok db) : db.others tenant = s.db.others tenant := by
  obtain ⟨hv, _, _, t, ht, rfl⟩ := insertRow_eq_ok.mp h
  have htenant : T.tenant r = tenant := (T.visible_iff codec hs).mp hv
  exact others_set (Table.filter_of_insert? (by simp [htenant]) ht)

theorem frames_insert : Frames codec tenant (T.insert codec wrap r) := by
  refine frames_statement (fun s r' db hs h => ?_)
  cases hi : T.insertRow codec r s with
  | error e => simp [hi, Except.map] at h
  | ok db' =>
      simp only [hi, Except.map, Except.ok.injEq, Prod.mk.injEq] at h
      rw [← h.2]
      exact insertRow_others hs hi

/-- With a key that no other tenant uses, an INSERT looks at the own rows only. -/
theorem insertRow_ownView (hs : Scoped codec tenant others s) (hfresh : T.FreshIn others r) :
    T.insertRow codec r (s.ownView tenant) = (T.insertRow codec r s).map (Db.own tenant) := by
  unfold insertRow
  rw [visible_ownView hs.setting]
  by_cases hv : T.visible codec s r = false
  · rw [if_pos hv, if_pos hv]
    rfl
  rw [if_neg hv, if_neg hv]
  have htenant : T.tenant r = tenant :=
    (T.visible_iff codec hs.setting).mp (by simpa using hv)
  have hother : ∀ x ∈ T.get s.db, T.tenant x ≠ tenant → T.key x ≠ T.key r ∧ T.conflicts r x = false :=
    fun x hx hne => hfresh x (by rw [← hs.others]; exact mem_get_others.mpr ⟨hx, hne⟩)
  by_cases hc : T.check r = false
  · rw [if_pos hc, if_pos hc]
    rfl
  rw [if_neg hc, if_neg hc]
  have hconflicts : (T.get (s.ownView tenant).db).rows.any (T.conflicts r) =
      (T.get s.db).rows.any (T.conflicts r) := by
    change (T.get (s.db.own tenant)).rows.any _ = _
    rw [get_own, Bool.eq_iff_iff, List.any_eq_true, List.any_eq_true]
    constructor
    · rintro ⟨x, hx, hxr⟩
      exact ⟨x, (List.mem_filter.mp hx).1, hxr⟩
    · rintro ⟨x, hx, hxr⟩
      refine ⟨x, List.mem_filter.mpr ⟨hx, ?_⟩, hxr⟩
      by_contra hne
      rw [(hother x hx (by simpa using hne)).2] at hxr
      cases hxr
  rw [hconflicts]
  by_cases hu : (T.get s.db).rows.any (T.conflicts r) = true
  · rw [if_pos hu, if_pos hu]
    rfl
  rw [if_neg hu, if_neg hu]
  have hinsert : (T.get (s.ownView tenant).db).insert? r =
      ((T.get s.db).insert? r).map (fun u => u.filter (fun x => T.tenant x = tenant)) := by
    change (T.get (s.db.own tenant)).insert? r = _
    rw [get_own]
    exact Table.insert?_filter (by simp [htenant])
      (fun x hx hne => (hother x hx (by simpa using hne)).1)
  have hreferences : T.references (s.ownView tenant).db r = T.references s.db r :=
    T.references_restrict s.db (fun w => w = tenant) r (by simp [htenant])
  rw [hinsert, hreferences]
  cases (T.get s.db).insert? r with
  | none => rfl
  | some t =>
      simp only [Option.map_some]
      cases T.references s.db r with
      | false => rfl
      | true =>
          simp only [if_true, Except.map, own_set]
          rfl

theorem isolated_insert (hfresh : T.FreshIn others r) :
    Isolated codec tenant others (T.insert codec wrap r) := by
  refine isolated_statement frames_insert (fun s hs => ?_)
  rw [insertRow_ownView hs hfresh]
  cases T.insertRow codec r s <;> rfl

section Update

variable {u : T.RowUpdate}

theorem updateRows_others (hs : s.setting = some (codec.uuidText tenant)) {rows : List ρ}
    (h : T.updateRows codec p u s = .ok (rows, db)) : db.others tenant = s.db.others tenant := by
  obtain ⟨_, t, ht, rfl⟩ := updateRows_eq_ok.mp h
  refine others_set (Table.filter_of_update? (fun x hx => ?_) (fun x => ?_) ht)
  · simp [tenant_of_selected hs hx]
  · simp [u.tenant_apply]

theorem updateRows_ownView (hs : s.setting = some (codec.uuidText tenant)) :
    T.updateRows codec p u (s.ownView tenant) =
      (T.updateRows codec p u s).map (Prod.map id (Db.own tenant)) := by
  unfold updateRows
  rw [selected_ownView hs]
  have hupdate : (T.get (s.ownView tenant).db).update? (T.selected codec p s) u.apply u.key_apply =
      ((T.get s.db).update? (T.selected codec p s) u.apply u.key_apply).map
        (fun t => t.filter (fun x => T.tenant x = tenant)) := by
    change (T.get (s.db.own tenant)).update? _ _ _ = _
    rw [get_own]
    exact Table.update?_filter (fun x hx => by simp [tenant_of_selected hs hx])
      (fun x => by simp [u.tenant_apply])
  rw [hupdate]
  cases (T.get s.db).update? (T.selected codec p s) u.apply u.key_apply with
  | none => rfl
  | some t =>
      have hrows := own_rows_filter_selected (T := T) (p := p) hs
      have hset : (T.set s.db t).own tenant = T.set (s.db.own tenant) _ := own_set
      simp only [Option.map_some, Except.map, Prod.map_apply, id_eq, hset]
      change Except.ok (((T.get (s.db.own tenant)).rows.filter _).map _, _) = _
      rw [hrows]
      rfl

theorem frames_update : Frames codec tenant (T.update codec wrap p u) :=
  frames_statement (fun _ _ _ hs h => updateRows_others hs h)

theorem isolated_update : Isolated codec tenant others (T.update codec wrap p u) :=
  isolated_statement frames_update (fun _ hs => updateRows_ownView hs.setting)

end Update

theorem frames_delete : Frames codec tenant (T.delete codec wrap p) := by
  refine frames_statement (fun s n db hs h => ?_)
  cases h
  refine others_set ?_
  rw [Table.filter_comm]
  refine Table.filter_eq_self (fun x hx => ?_)
  have hne := (Table.mem_filter.mp hx).2
  by_contra hsel
  simp [tenant_of_selected hs (by simpa using hsel : T.selected codec p s x = true)] at hne

theorem isolated_delete : Isolated codec tenant others (T.delete codec wrap p) := by
  refine isolated_statement frames_delete (fun s hs => ?_)
  have hrows := own_rows_filter_selected (T := T) (p := p) hs.setting
  have hset : (T.set s.db ((T.get s.db).filter (fun r => !T.selected codec p s r))).own tenant =
      T.set (s.db.own tenant) _ := own_set
  simp only [selected_ownView hs.setting, Except.map, Prod.map_apply, id_eq, hset]
  rw [Table.filter_comm, ← get_own]
  exact congrArg (fun rows : List ρ => Except.ok (rows.length, _)) hrows

section Upsert

variable {u : T.RowUpdate}

theorem frames_upsert (hkey : ∀ x, T.key x = T.key r → T.tenant x = T.tenant r) :
    Frames codec tenant (T.upsert codec wrap r u) := by
  intro s a t h hs
  obtain ⟨inserted, r'⟩ := a
  obtain ⟨_, hv, _, hcases⟩ := upsert_eq_ok h
  have htenant : T.tenant r = tenant := (T.visible_iff codec hs).mp hv
  rcases hcases with ⟨_, _, _, db, hdb, rfl⟩ | ⟨old, v, _, _, _, hupdate, rfl⟩
  · exact ⟨hs, insertRow_others hs hdb⟩
  · refine ⟨hs, others_set (Table.filter_of_update? (fun x hx => ?_) (fun x => ?_) hupdate)⟩
    · simp [hkey x (of_decide_eq_true hx), htenant]
    · simp [u.tenant_apply]

/-- A key that names its tenant is looked up among the own rows. -/
theorem find?_own (hkey : ∀ x, T.key x = T.key r → T.tenant x = tenant) :
    (T.get (s.db.own tenant)).find? (T.key r) = (T.get s.db).find? (T.key r) := by
  rw [get_own, Table.find?_filter]
  cases hfind : (T.get s.db).find? (T.key r) with
  | none => rfl
  | some old =>
      have hold : T.tenant old = tenant := hkey old (Table.find?_eq_some.mp hfind).2
      simp [Option.filter, hold]

theorem isolated_upsert (hkey : ∀ x, T.key x = T.key r → T.tenant x = T.tenant r)
    (hconflicts : ∀ x, T.conflicts r x = false) :
    Isolated codec tenant others (T.upsert codec wrap r u) := by
  refine isolated_statement (frames_upsert hkey) (fun s hs => ?_)
  have hview : (T.get (s.ownView tenant).db).find? (T.key r) =
      (T.get (s.db.own tenant)).find? (T.key r) := rfl
  rw [visible_ownView hs.setting, hview]
  by_cases hv : T.visible codec s r = true
  · have htenant : T.tenant r = tenant := (T.visible_iff codec hs.setting).mp hv
    have hown : ∀ x, T.key x = T.key r → T.tenant x = tenant := fun x hx => (hkey x hx).trans htenant
    have hfresh : T.FreshIn others r := fun x hx => by
      rw [← hs.others, mem_get_others] at hx
      exact ⟨fun hx' => hx.2 (hown x hx'), hconflicts x⟩
    rw [find?_own hown]
    cases (T.get s.db).find? (T.key r) with
    | none =>
        simp only [insertRow_ownView hs hfresh]
        cases T.insertRow codec r s <;> rfl
    | some old =>
        simp only
        by_cases hrefused : T.visible codec s r = false ∨ T.visible codec s old = false
        · rw [if_pos hrefused, if_pos hrefused]
          rfl
        rw [if_neg hrefused, if_neg hrefused]
        by_cases hc : T.check r = false
        · rw [if_pos hc, if_pos hc]
          rfl
        rw [if_neg hc, if_neg hc]
        have hupdate : (T.get (s.ownView tenant).db).update? (fun x => T.key x = T.key r) u.apply
            u.key_apply = ((T.get s.db).update? (fun x => T.key x = T.key r) u.apply
              u.key_apply).map (fun t => t.filter (fun x => T.tenant x = tenant)) := by
          change (T.get (s.db.own tenant)).update? _ _ _ = _
          rw [get_own]
          exact Table.update?_filter (fun x hx => by simp [hown x (of_decide_eq_true hx)])
            (fun x => by simp [u.tenant_apply])
        rw [hupdate]
        cases (T.get s.db).update? (fun x => T.key x = T.key r) u.apply u.key_apply with
        | none => rfl
        | some t => exact congrArg (fun db => Except.ok ((false, u.apply old), db)) own_set.symm
  · have hv : T.visible codec s r = false := by simpa using hv
    have hrefused : T.insertRow codec r s = .error .rowLevelSecurity := if_pos hv
    have hrefused' : T.insertRow codec r (s.ownView tenant) = .error .rowLevelSecurity :=
      if_pos ((congrFun (visible_ownView hs.setting) r).trans hv)
    simp only [hrefused, hrefused', hv, true_or, if_true]
    cases (T.get (s.db.own tenant)).find? (T.key r) <;> cases (T.get s.db).find? (T.key r) <;> rfl

end Upsert
end TenantTable
end Dandori
