import Mathlib.Data.List.Pairwise
import Mathlib.Data.List.Sort

/-!
# Keyed tables

A table stores the rows of a relation in strictly increasing order of their key, and every stored
row passes the row check of the relation. Two tables with the same rows are therefore equal, a key
selects at most one row, and no operation can produce a row that fails the check.
-/

namespace Dandori

structure Table {ρ κ : Type*} [LinearOrder κ] (key : ρ → κ) (check : ρ → Bool) where
  rows : List ρ
  sorted : rows.Pairwise (fun r s => key r < key s)
  checked : ∀ r ∈ rows, check r = true

namespace Table

variable {ρ κ : Type*} [LinearOrder κ] {key : ρ → κ} {check : ρ → Bool}

instance : Membership ρ (Table key check) := ⟨fun t r => r ∈ t.rows⟩

theorem mem_def {t : Table key check} {r : ρ} : r ∈ t ↔ r ∈ t.rows := Iff.rfl

theorem check_of_mem {t : Table key check} {r : ρ} (hr : r ∈ t) : check r = true :=
  t.checked r hr

/-- A key selects at most one row. -/
theorem eq_of_key_eq {t : Table key check} {r s : ρ} (hr : r ∈ t) (hs : s ∈ t)
    (h : key r = key s) : r = s := by
  by_contra hne
  have hp : t.rows.Pairwise (fun r s => key r ≠ key s) := t.sorted.imp (fun h => h.ne)
  have : Std.Symm (fun r s : ρ => key r ≠ key s) := ⟨fun _ _ h => h.symm⟩
  exact hp.forall hr hs hne h

theorem nodup_keys (t : Table key check) : (t.rows.map key).Nodup :=
  List.pairwise_map.mpr (t.sorted.imp (fun h => h.ne))

theorem nodup_rows (t : Table key check) : t.rows.Nodup := t.nodup_keys.of_map key

/-- Tables are determined by their rows. -/
theorem ext_mem {t u : Table key check} (h : ∀ r, r ∈ t ↔ r ∈ u) : t = u := by
  have hrows : t.rows = u.rows := by
    have : Std.Antisymm (fun r s : ρ => key r < key s) := ⟨fun _ _ h h' => absurd h' h.asymm⟩
    have : Std.Irrefl (fun r s : ρ => key r < key s) := ⟨fun _ => lt_irrefl _⟩
    exact t.sorted.eq_of_mem_iff u.sorted h
  cases t
  cases u
  cases hrows
  rfl

protected def empty : Table key check := ⟨[], List.Pairwise.nil, by simp⟩

@[simp] theorem not_mem_empty (r : ρ) : r ∉ (Table.empty : Table key check) := by
  simp [mem_def, Table.empty]

def find? (t : Table key check) (k : κ) : Option ρ := t.rows.find? (fun r => key r = k)

@[simp] theorem find?_eq_some {t : Table key check} {k : κ} {r : ρ} :
    t.find? k = some r ↔ r ∈ t ∧ key r = k := by
  constructor
  · intro h
    exact ⟨List.mem_of_find?_eq_some h, by simpa using List.find?_some h⟩
  · rintro ⟨hr, hk⟩
    cases hf : t.find? k with
    | none =>
        have hn := List.find?_eq_none.mp hf r hr
        simp [hk] at hn
    | some s =>
        have hs : s ∈ t := List.mem_of_find?_eq_some hf
        have hks : key s = k := by simpa using List.find?_some hf
        rw [eq_of_key_eq hs hr (hks.trans hk.symm)]

theorem mem_iff_find? {t : Table key check} {r : ρ} : r ∈ t ↔ t.find? (key r) = some r := by
  rw [find?_eq_some, and_iff_left rfl]

theorem find?_eq_none {t : Table key check} {k : κ} :
    t.find? k = none ↔ ∀ r ∈ t, key r ≠ k := by
  simp [find?, List.find?_eq_none, mem_def]

/-- A condition that fixes the key selects the one row it holds of. -/
theorem rows_filter_eq_singleton {t : Table key check} {p : ρ → Bool} {k : κ} {r : ρ}
    (hk : ∀ s ∈ t, p s = true → key s = k) (hr : r ∈ t) (hp : p r = true) :
    t.rows.filter p = [r] := by
  have hsorted := t.sorted.sublist (List.filter_sublist (p := p))
  have hmem : r ∈ t.rows.filter p := List.mem_filter.mpr ⟨hr, hp⟩
  have hkey : ∀ s ∈ t.rows.filter p, key s = k := fun s hs =>
    hk s (List.mem_filter.mp hs).1 (List.mem_filter.mp hs).2
  match hl : t.rows.filter p with
  | [] => simp [hl] at hmem
  | [a] =>
      rw [hl, List.mem_singleton] at hmem
      rw [hmem]
  | a :: b :: l =>
      rw [hl] at hsorted hkey
      have hlt : key a < key b := List.rel_of_pairwise_cons hsorted (by simp)
      rw [hkey a (by simp), hkey b (by simp)] at hlt
      exact absurd hlt (lt_irrefl k)

theorem rows_find?_eq_some {t : Table key check} {p : ρ → Bool} {k : κ} {r : ρ}
    (hk : ∀ s ∈ t, p s = true → key s = k) : t.rows.find? p = some r ↔ r ∈ t ∧ p r = true := by
  constructor
  · intro h
    exact ⟨List.mem_of_find?_eq_some h, List.find?_some h⟩
  · rintro ⟨hr, hp⟩
    rw [← List.head?_filter, rows_filter_eq_singleton hk hr hp]
    rfl

def filter (t : Table key check) (p : ρ → Bool) : Table key check where
  rows := t.rows.filter p
  sorted := t.sorted.sublist List.filter_sublist
  checked r hr := t.checked r (List.mem_of_mem_filter hr)

@[simp] theorem mem_filter {t : Table key check} {p : ρ → Bool} {r : ρ} :
    r ∈ t.filter p ↔ r ∈ t ∧ p r = true := List.mem_filter

theorem filter_comm (t : Table key check) (p q : ρ → Bool) :
    (t.filter p).filter q = (t.filter q).filter p := by
  apply ext_mem
  intro r
  simp only [mem_filter, and_assoc, and_comm (a := p r = true)]

theorem filter_filter_of_imp (t : Table key check) {p q : ρ → Bool} (h : ∀ r, p r = true → q r = true) :
    (t.filter q).filter p = t.filter p := by
  apply ext_mem
  intro r
  simp only [mem_filter]
  exact ⟨fun hr => ⟨hr.1.1, hr.2⟩, fun hr => ⟨⟨hr.1, h r hr.2⟩, hr.2⟩⟩

theorem find?_filter (t : Table key check) (p : ρ → Bool) (k : κ) :
    (t.filter p).find? k = (t.find? k).filter p := by
  apply Option.ext
  intro r
  simp only [find?_eq_some, mem_filter, Option.filter_eq_some_iff]
  tauto

theorem filter_eq_self {t : Table key check} {p : ρ → Bool} (h : ∀ r ∈ t, p r = true) :
    t.filter p = t := by
  apply ext_mem
  intro r
  simpa only [mem_filter, and_iff_left_iff_imp] using h r

/-- Rewrite the rows selected by `p`, unless a rewritten row would fail the check. -/
def update? (t : Table key check) (p : ρ → Bool) (f : ρ → ρ) (hf : ∀ r, key (f r) = key r) :
    Option (Table key check) :=
  if h : ∀ r ∈ t.rows, p r = true → check (f r) = true then
    some {
      rows := t.rows.map (fun r => if p r then f r else r)
      sorted := by
        rw [List.pairwise_map]
        refine t.sorted.imp (fun {a b} hab => ?_)
        have hk (r : ρ) : key (if p r then f r else r) = key r := by
          split_ifs
          · exact hf r
          · rfl
        rwa [hk a, hk b]
      checked := by
        intro s hs
        obtain ⟨r, hr, rfl⟩ := List.mem_map.mp hs
        split_ifs with hp
        · exact h r hr hp
        · exact t.checked r hr }
  else none

theorem mem_of_update? {t u : Table key check} {p : ρ → Bool} {f : ρ → ρ}
    {hf : ∀ r, key (f r) = key r} (h : t.update? p f hf = some u) (s : ρ) :
    s ∈ u ↔ ∃ r ∈ t, (if p r then f r else r) = s := by
  unfold update? at h
  split_ifs at h with hc
  cases h
  exact List.mem_map

theorem update?_isSome {t : Table key check} {p : ρ → Bool} {f : ρ → ρ}
    {hf : ∀ r, key (f r) = key r} (h : ∀ r ∈ t, p r = true → check (f r) = true) :
    ∃ u, t.update? p f hf = some u := ⟨_, dif_pos h⟩

theorem update?_eq_none {t : Table key check} {p : ρ → Bool} {f : ρ → ρ}
    {hf : ∀ r, key (f r) = key r} :
    t.update? p f hf = none ↔ ∃ r ∈ t, p r = true ∧ check (f r) = false := by
  unfold update?
  split_ifs with h
  · simp only [false_iff, not_exists, not_and, Bool.not_eq_false]
    exact h
  · simp only [true_iff]
    push Not at h
    obtain ⟨r, hr, hp, hc⟩ := h
    exact ⟨r, hr, hp, by simpa using hc⟩

theorem find?_of_update? {t u : Table key check} {k : κ} {f : ρ → ρ}
    {hf : ∀ r, key (f r) = key r} (h : t.update? (fun r => key r = k) f hf = some u) (k' : κ) :
    u.find? k' = if k' = k then (t.find? k).map f else t.find? k' := by
  apply Option.ext
  intro s
  rw [find?_eq_some, mem_of_update? h]
  simp only [decide_eq_true_eq]
  by_cases hk : k' = k
  · subst hk
    rw [if_pos rfl]
    simp only [Option.map_eq_some_iff, find?_eq_some]
    constructor
    · rintro ⟨⟨r, hr, rfl⟩, hs⟩
      split_ifs at hs with hrk
      · exact ⟨r, ⟨hr, hrk⟩, (if_pos hrk).symm⟩
      · exact absurd hs hrk
    · rintro ⟨r, ⟨hr, hrk⟩, rfl⟩
      exact ⟨⟨r, hr, if_pos hrk⟩, by rw [hf, hrk]⟩
  · rw [if_neg hk, find?_eq_some]
    constructor
    · rintro ⟨⟨r, hr, rfl⟩, hs⟩
      split_ifs at hs ⊢ with hrk
      · rw [hf, hrk] at hs
        exact absurd hs.symm hk
      · exact ⟨hr, hs⟩
    · rintro ⟨hs, hsk⟩
      exact ⟨⟨s, hs, if_neg (fun h => hk (hsk.symm.trans h))⟩, hsk⟩

/-- Only the rows of the table decide what a rewrite does. -/
theorem update?_congr {t : Table key check} {p q : ρ → Bool} {f g : ρ → ρ}
    {hf : ∀ r, key (f r) = key r} {hg : ∀ r, key (g r) = key r} (hpq : ∀ r ∈ t, p r = q r)
    (hfg : ∀ r ∈ t, p r = true → f r = g r) : t.update? p f hf = t.update? q g hg := by
  cases h : t.update? p f hf with
  | none =>
      obtain ⟨r, hr, hp, hc⟩ := update?_eq_none.mp h
      refine (update?_eq_none.mpr ⟨r, hr, ?_, ?_⟩).symm
      · rw [← hpq r hr, hp]
      · rw [← hfg r hr hp, hc]
  | some u =>
      have hv : ∃ v, t.update? q g hg = some v := by
        apply update?_isSome
        intro r hr hq
        by_contra hc
        have hp : p r = true := by rw [hpq r hr, hq]
        have hnone : t.update? p f hf = none :=
          update?_eq_none.mpr ⟨r, hr, hp, by rw [hfg r hr hp]; simpa using hc⟩
        rw [h] at hnone
        cases hnone
      obtain ⟨v, hv⟩ := hv
      rw [hv]
      congr 1
      apply ext_mem
      intro s
      rw [mem_of_update? h, mem_of_update? hv]
      refine exists_congr (fun r => and_congr_right (fun hr => ?_))
      rw [← hpq r hr]
      by_cases hp : p r = true
      · rw [if_pos hp, if_pos hp, hfg r hr hp]
      · rw [if_neg hp, if_neg hp]

theorem update?_id {t : Table key check} {p : ρ → Bool} :
    t.update? p id (fun _ => rfl) = some t := by
  obtain ⟨u, hu⟩ : ∃ u, t.update? p id (fun _ => rfl) = some u :=
    update?_isSome (fun r hr _ => t.checked r hr)
  rw [hu]
  congr 1
  apply ext_mem
  intro s
  simp [mem_of_update? hu]

/-- A rewrite that only selects rows kept by the filter `q` is made on the filtered table alone. -/
theorem update?_filter {t : Table key check} {p q : ρ → Bool} {f : ρ → ρ}
    {hf : ∀ r, key (f r) = key r} (hpq : ∀ r, p r = true → q r = true)
    (hqf : ∀ r, q (f r) = q r) :
    (t.filter q).update? p f hf = (t.update? p f hf).map (fun u => u.filter q) := by
  cases h : t.update? p f hf with
  | none =>
      obtain ⟨r, hr, hp, hc⟩ := update?_eq_none.mp h
      exact update?_eq_none.mpr ⟨r, mem_filter.mpr ⟨hr, hpq r hp⟩, hp, hc⟩
  | some u =>
      obtain ⟨v, hv⟩ : ∃ v, (t.filter q).update? p f hf = some v := by
        apply update?_isSome
        intro r hr hp
        by_contra hc
        have hnone : t.update? p f hf = none :=
          update?_eq_none.mpr ⟨r, (mem_filter.mp hr).1, hp, by simpa using hc⟩
        rw [h] at hnone
        cases hnone
      rw [hv]
      simp only [Option.map_some, Option.some.injEq]
      apply ext_mem
      intro s
      rw [mem_of_update? hv, mem_filter, mem_of_update? h]
      have hq (r : ρ) : q (if p r then f r else r) = q r := by
        split_ifs
        · exact hqf r
        · rfl
      constructor
      · rintro ⟨r, hr, rfl⟩
        exact ⟨⟨r, (mem_filter.mp hr).1, rfl⟩, by rw [hq]; exact (mem_filter.mp hr).2⟩
      · rintro ⟨⟨r, hr, rfl⟩, hs⟩
        exact ⟨r, mem_filter.mpr ⟨hr, by rwa [hq] at hs⟩, rfl⟩

/-- A rewrite leaves the rows alone that a disjoint filter keeps. -/
theorem filter_of_update? {t u : Table key check} {p q : ρ → Bool} {f : ρ → ρ}
    {hf : ∀ r, key (f r) = key r} (hpq : ∀ r, p r = true → q r = false)
    (hqf : ∀ r, q (f r) = q r) (h : t.update? p f hf = some u) : u.filter q = t.filter q := by
  apply ext_mem
  intro s
  rw [mem_filter, mem_filter, mem_of_update? h]
  constructor
  · rintro ⟨⟨r, hr, rfl⟩, hs⟩
    by_cases hp : p r = true
    · rw [if_pos hp, hqf, hpq r hp] at hs
      cases hs
    · rw [if_neg hp] at hs ⊢
      exact ⟨hr, hs⟩
  · rintro ⟨hr, hs⟩
    have hp : p s = false := by
      by_contra hp
      rw [hpq s (by simpa using hp)] at hs
      cases hs
    exact ⟨⟨s, hr, if_neg (by simp [hp])⟩, hs⟩

/-- Add a row, unless its key is taken or it fails the check. -/
def insert? (t : Table key check) (r : ρ) : Option (Table key check) :=
  if h : check r = true ∧ ∀ s ∈ t.rows, key s ≠ key r then
    some {
      rows := t.rows.orderedInsert (fun a b => key a ≤ key b) r
      sorted := by
        have hperm := List.perm_orderedInsert (fun a b : ρ => key a ≤ key b) r t.rows
        have : Std.Total (fun a b : ρ => key a ≤ key b) := ⟨fun a b => le_total _ _⟩
        have : IsTrans ρ (fun a b : ρ => key a ≤ key b) := ⟨fun _ _ _ => le_trans⟩
        have hle : (t.rows.orderedInsert (fun a b => key a ≤ key b) r).Pairwise
            (fun a b => key a ≤ key b) :=
          List.Pairwise.orderedInsert r t.rows (t.sorted.imp (fun h => h.le))
        have hne : (t.rows.orderedInsert (fun a b => key a ≤ key b) r).Pairwise
            (fun a b => key a ≠ key b) := by
          refine (hperm.pairwise_iff (fun h => h.symm)).mpr ?_
          exact List.pairwise_cons.mpr
            ⟨fun s hs => (h.2 s hs).symm, t.sorted.imp (fun h => h.ne)⟩
        exact (hle.and hne).imp (fun h => lt_of_le_of_ne h.1 h.2)
      checked := by
        intro s hs
        rcases (List.mem_orderedInsert _).mp hs with rfl | hs
        · exact h.1
        · exact t.checked s hs }
  else none

theorem insert?_eq_some {t u : Table key check} {r : ρ} (h : t.insert? r = some u) :
    check r = true ∧ (∀ s ∈ t, key s ≠ key r) ∧ ∀ s, s ∈ u ↔ s = r ∨ s ∈ t := by
  unfold insert? at h
  split_ifs at h with hc
  cases h
  exact ⟨hc.1, hc.2, fun s => List.mem_orderedInsert _⟩

theorem find?_of_insert? {t u : Table key check} {r : ρ} (h : t.insert? r = some u) (k : κ) :
    u.find? k = if k = key r then some r else t.find? k := by
  obtain ⟨_, hkey, hmem⟩ := insert?_eq_some h
  apply Option.ext
  intro s
  rw [find?_eq_some, hmem]
  by_cases hk : k = key r
  · rw [if_pos hk, Option.some.injEq]
    constructor
    · rintro ⟨rfl | hs, hsk⟩
      · rfl
      · exact absurd (hsk.trans hk) (hkey s hs)
    · rintro rfl
      exact ⟨Or.inl rfl, hk.symm⟩
  · rw [if_neg hk, find?_eq_some]
    constructor
    · rintro ⟨rfl | hs, hsk⟩
      · exact absurd hsk.symm hk
      · exact ⟨hs, hsk⟩
    · rintro ⟨hs, hsk⟩
      exact ⟨Or.inr hs, hsk⟩

theorem insert?_eq_none {t : Table key check} {r : ρ} :
    t.insert? r = none ↔ (check r = true → ∃ s ∈ t, key s = key r) := by
  unfold insert?
  split_ifs with h
  · simp only [false_iff, not_forall, not_exists, not_and]
    exact ⟨h.1, h.2⟩
  · simp only [true_iff]
    intro hr
    by_contra! hn
    exact h ⟨hr, hn⟩

theorem insert?_isSome {t : Table key check} {r : ρ} (hr : check r = true)
    (hk : ∀ s ∈ t, key s ≠ key r) : ∃ u, t.insert? r = some u := ⟨_, dif_pos ⟨hr, hk⟩⟩

/-- Insertion into a table looks at the filtered rows only when the other rows do not have the new
key. -/
theorem insert?_filter {t : Table key check} {q : ρ → Bool} {r : ρ} (hq : q r = true)
    (hk : ∀ s ∈ t, q s = false → key s ≠ key r) :
    (t.filter q).insert? r = (t.insert? r).map (fun u => u.filter q) := by
  cases h : t.insert? r with
  | none =>
      rw [insert?_eq_none] at h
      refine insert?_eq_none.mpr (fun hr => ?_)
      obtain ⟨s, hs, hsk⟩ := h hr
      refine ⟨s, mem_filter.mpr ⟨hs, ?_⟩, hsk⟩
      by_contra hqs
      exact hk s hs (by simpa using hqs) hsk
  | some u =>
      obtain ⟨hr, hkey, hu⟩ := insert?_eq_some h
      obtain ⟨v, hv⟩ := insert?_isSome (t := t.filter q) hr
        (fun s hs => hkey s (mem_filter.mp hs).1)
      rw [hv]
      simp only [Option.map_some, Option.some.injEq]
      apply ext_mem
      intro s
      rw [(insert?_eq_some hv).2.2, mem_filter, mem_filter, hu]
      constructor
      · rintro (rfl | ⟨hs, hqs⟩)
        · exact ⟨Or.inl rfl, hq⟩
        · exact ⟨Or.inr hs, hqs⟩
      · rintro ⟨rfl | hs, hqs⟩
        · exact Or.inl rfl
        · exact Or.inr ⟨hs, hqs⟩

/-- Insertion leaves the rows alone that a filter without the new row keeps. -/
theorem filter_of_insert? {t u : Table key check} {q : ρ → Bool} {r : ρ} (hq : q r = false)
    (h : t.insert? r = some u) : u.filter q = t.filter q := by
  apply ext_mem
  intro s
  rw [mem_filter, mem_filter, (insert?_eq_some h).2.2]
  constructor
  · rintro ⟨rfl | hs, hqs⟩
    · rw [hq] at hqs
      cases hqs
    · exact ⟨hs, hqs⟩
  · rintro ⟨hs, hqs⟩
    exact ⟨Or.inr hs, hqs⟩

/-- The rows of `u` whose key is not in `t`. -/
def added (t u : Table key check) : List ρ := u.rows.filter (fun r => (t.find? (key r)).isNone)

theorem added_eq_nil {t u : Table key check} (h : ∀ r ∈ u, ∃ s ∈ t, key s = key r) :
    added t u = [] := by
  refine List.filter_eq_nil_iff.mpr (fun r hr hnone => ?_)
  obtain ⟨s, hs, hk⟩ := h r hr
  exact find?_eq_none.mp (Option.isNone_iff_eq_none.mp hnone) s hs hk

theorem added_self (t : Table key check) : added t t = [] :=
  added_eq_nil (fun r hr => ⟨r, hr, rfl⟩)

theorem added_of_insert? {t u : Table key check} {r : ρ} (h : t.insert? r = some u) :
    added t u = [r] := by
  obtain ⟨_, hkey, hmem⟩ := insert?_eq_some h
  have hpin : ∀ s ∈ u, (t.find? (key s)).isNone = true → key s = key r := by
    intro s hs hnone
    rcases (hmem s).mp hs with rfl | hs
    · rfl
    · exact absurd rfl (find?_eq_none.mp (Option.isNone_iff_eq_none.mp hnone) s hs)
  have hnew : (t.find? (key r)).isNone = true :=
    Option.isNone_iff_eq_none.mpr (find?_eq_none.mpr hkey)
  exact rows_filter_eq_singleton hpin ((hmem r).mpr (Or.inl rfl)) hnew

end Table
end Dandori
