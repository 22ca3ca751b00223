import Mathlib.Algebra.GroupWithZero.Nat
import Mathlib.Order.Basic

/-!
# Runs of a labelled transition function

A run of `step` from `s` to `t` carries the list of labels it executed. The rules below turn a
fact about one step into a fact about whole runs: a state invariant, an invariant that may speak
about the labels executed so far, an invariant of the runs whose steps meet a condition, and a property
that holds until a step of a named kind ends it. What the steps of a run emit is its trace; a measure
that each step lowers by what it costs bounds the trace of the costs, and a run that is matched step by
step is matched as a whole. What some continuation reaches is found by a measure that the way there lowers.
-/

namespace Dandori

variable {σ α β τ : Type*}

inductive Run (step : σ → α → Option σ) : σ → List α → σ → Prop
  | nil (s : σ) : Run step s [] s
  | cons {s t u : σ} {a : α} {as : List α} (h : step s a = some t) (hr : Run step t as u) :
      Run step s (a :: as) u

namespace Run

variable {step : σ → α → Option σ} {s t u : σ} {a : α} {as bs : List α}

theorem append (h₁ : Run step s as t) (h₂ : Run step t bs u) : Run step s (as ++ bs) u := by
  induction h₁ with
  | nil _ => exact h₂
  | cons h _ ih => exact .cons h (ih h₂)

theorem single (h : step s a = some t) : Run step s [a] t := .cons h (.nil t)

theorem append_iff : Run step s (as ++ bs) u ↔ ∃ t, Run step s as t ∧ Run step t bs u := by
  constructor
  · intro h
    induction as generalizing s with
    | nil => exact ⟨s, .nil s, h⟩
    | cons a as ih =>
        cases h with
        | cons ha hr =>
            obtain ⟨t, ht, hu⟩ := ih hr
            exact ⟨t, .cons ha ht, hu⟩
  · rintro ⟨t, ht, hu⟩
    exact ht.append hu

theorem nil_iff : Run step s [] t ↔ s = t := by
  constructor
  · intro h
    cases h
    rfl
  · rintro rfl
    exact .nil s

theorem cons_iff : Run step s (a :: as) u ↔ ∃ t, step s a = some t ∧ Run step t as u := by
  constructor
  · intro h
    cases h with
    | cons ha hr => exact ⟨_, ha, hr⟩
  · rintro ⟨t, ha, hr⟩
    exact .cons ha hr

theorem of_foldlM (h : as.foldlM step s = some u) : Run step s as u := by
  induction as generalizing s with
  | nil =>
      cases h
      exact .nil u
  | cons a as ih =>
      rw [List.foldlM_cons] at h
      obtain ⟨t, ht, hu⟩ := Option.bind_eq_some_iff.mp h
      exact .cons ht (ih hu)

theorem total_cons_iff {f : σ → α → σ} :
    Run (fun s a => some (f s a)) s (a :: as) t ↔ Run (fun s a => some (f s a)) (f s a) as t := by
  rw [cons_iff]
  constructor
  · rintro ⟨v, hv, hr⟩
    rwa [Option.some.inj hv]
  · intro hr
    exact ⟨_, rfl, hr⟩

theorem deterministic {u' : σ} (h : Run step s as u) (h' : Run step s as u') : u = u' := by
  induction h with
  | nil _ =>
      cases h'
      rfl
  | cons ha _ ih =>
      obtain ⟨t, ht, hr⟩ := cons_iff.mp h'
      exact ih (by rwa [Option.some.inj (ha.symm.trans ht)])

/-- A property kept by every step holds at the end of every run. -/
theorem invariant {P : σ → Prop} (hstep : ∀ s a t, P s → step s a = some t → P t)
    (h : Run step s as t) (hs : P s) : P t := by
  induction h with
  | nil _ => exact hs
  | cons ha _ ih => exact ih (hstep _ _ _ hs ha)

/-- The invariant rule for runs all of whose labels meet a condition. -/
theorem invariant_of {P : σ → Prop} {C : α → Prop}
    (hstep : ∀ s a t, P s → C a → step s a = some t → P t)
    (h : Run step s as t) (hC : ∀ a ∈ as, C a) (hs : P s) : P t := by
  induction h with
  | nil _ => exact hs
  | cons ha _ ih =>
      exact ih (fun b hb => hC b (List.mem_cons_of_mem _ hb))
        (hstep _ _ _ hs (hC _ List.mem_cons_self) ha)

/-- Each step that the labels take from `s` meets a condition on its label and the state before it. -/
def Along (step : σ → α → Option σ) (C : σ → α → Prop) : σ → List α → Prop
  | _, [] => True
  | s, a :: as => C s a ∧ ∀ t, step s a = some t → Along step C t as

theorem Along.cons {C : σ → α → Prop} (h : step s a = some t) (hC : C s a) (hrest : Along step C t as) :
    Along step C s (a :: as) := by
  refine ⟨hC, fun v hv => ?_⟩
  rw [← Option.some.inj (h.symm.trans hv)]
  exact hrest

theorem Along.mono {C D : σ → α → Prop} (h : Along step C s as) (himp : ∀ a ∈ as, ∀ s, C s a → D s a) :
    Along step D s as := by
  induction as generalizing s with
  | nil => trivial
  | cons a as ih =>
      refine ⟨himp a List.mem_cons_self s h.1, fun t ht => ih (h.2 t ht) fun b hb => ?_⟩
      exact himp b (List.mem_cons_of_mem _ hb)

theorem Along.at {C : σ → α → Prop} (hC : Along step C s (as ++ a :: bs)) (h : Run step s as t) :
    C t a := by
  induction h with
  | nil _ => exact hC.1
  | cons ha _ ih => exact ih (hC.2 _ ha)

theorem Along.append {C : σ → α → Prop} (hC : Along step C s (as ++ bs)) (h : Run step s as t) :
    Along step C s as ∧ Along step C t bs := by
  induction h with
  | nil _ => exact ⟨trivial, hC⟩
  | cons ha _ ih =>
      obtain ⟨hleft, hright⟩ := ih (hC.2 _ ha)
      exact ⟨.cons ha hC.1 hleft, hright⟩

theorem invariant_along {P : σ → Prop} {C : σ → α → Prop}
    (hstep : ∀ s a t, P s → C s a → step s a = some t → P t)
    (h : Run step s as t) (hC : Along step C s as) (hs : P s) : P t := by
  induction h with
  | nil _ => exact hs
  | cons ha _ ih => exact ih (hC.2 _ ha) (hstep _ _ _ hs hC.1 ha)

/-- Two conditions that agree on every step from a state with the invariant agree along every run. -/
theorem along_congr {P : σ → Prop} {C D : σ → α → Prop}
    (hstep : ∀ s a t, P s → step s a = some t → P t)
    (hiff : ∀ s a t, P s → step s a = some t → (C s a ↔ D s a))
    (h : Run step s as t) (hs : P s) : Along step C s as ↔ Along step D s as := by
  induction h with
  | nil _ => exact Iff.rfl
  | cons ha _ ih =>
      have hrest := ih (hstep _ _ _ hs ha)
      refine and_congr (hiff _ _ _ hs ha) ⟨fun hC t ht => ?_, fun hD t ht => ?_⟩
      · rw [← Option.some.inj (ha.symm.trans ht)]
        exact hrest.mp (hC _ ha)
      · rw [← Option.some.inj (ha.symm.trans ht)]
        exact hrest.mpr (hD _ ha)

/-- Where every step keeps a property exactly when its condition is met, the conditions of a run say
that the property holds all along it. -/
theorem along_iff {f : σ → α → σ} {P : σ → Prop} {C : σ → α → Prop}
    (hstep : ∀ s a, P s → (P (f s a) ↔ C s a)) (hs : P s) :
    Along (fun s a => some (f s a)) C s as ↔
      ∀ bs t, bs <+: as → Run (fun s a => some (f s a)) s bs t → P t := by
  constructor
  · intro hC bs t hbs hr
    obtain ⟨cs, rfl⟩ := hbs
    induction bs generalizing s with
    | nil =>
        cases hr
        exact hs
    | cons b bs ih =>
        exact ih ((hstep s b hs).mpr hC.1) (total_cons_iff.mp hr) (hC.2 _ rfl)
  · intro hP
    induction as generalizing s with
    | nil => trivial
    | cons a as ih =>
        have hfirst : P (f s a) := hP [a] _ ⟨as, rfl⟩ (.single rfl)
        refine ⟨(hstep s a hs).mp hfirst, fun t ht => ?_⟩
        cases ht
        exact ih hfirst fun bs t hbs hr =>
          hP (a :: bs) t (List.cons_prefix_cons.mpr ⟨rfl, hbs⟩) (total_cons_iff.mpr hr)

theorem along_iff_of_run {P : σ → Prop} {C : σ → α → Prop}
    (hstep : ∀ s a t, P s → step s a = some t → (P t ↔ C s a)) (h : Run step s as u) (hs : P s) :
    Along step C s as ↔ ∀ bs t, bs <+: as → Run step s bs t → P t := by
  constructor
  · intro hC bs t hbs hr
    obtain ⟨cs, rfl⟩ := hbs
    refine invariant_along (fun s a t hP hCa ha => (hstep s a t hP ha).mpr hCa) hr ?_ hs
    clear h hr
    induction bs generalizing s with
    | nil => trivial
    | cons b bs ih => exact ⟨hC.1, fun v hv => ih (hstep s b v hs hv |>.mpr hC.1) (hC.2 v hv)⟩
  · intro hP
    induction h with
    | nil _ => trivial
    | @cons s t u a as ha hr ih =>
        have hfirst : P t := hP [a] t ⟨as, rfl⟩ (.single ha)
        refine ⟨(hstep s a t hs ha).mp hfirst, fun v hv => ?_⟩
        rw [← Option.some.inj (ha.symm.trans hv)]
        exact ih hfirst (fun bs v hbs hv =>
          hP (a :: bs) v (List.cons_prefix_cons.mpr ⟨rfl, hbs⟩) (.cons ha hv))

/-- The invariant rule for properties of the executed labels and the state they lead to. -/
theorem history {P : List α → σ → Prop}
    (hstep : ∀ pre s a t, P pre s → step s a = some t → P (pre ++ [a]) t)
    {pre : List α} (h : Run step s as t) (hs : P pre s) : P (pre ++ as) t := by
  induction h generalizing pre with
  | nil _ => simpa only [List.append_nil] using hs
  | cons ha _ ih => simpa only [List.append_assoc, List.singleton_append] using ih (hstep _ _ _ _ hs ha)

/-- The history rule when every label of the run meets a condition on its place in the run. -/
theorem history_of {P : List α → σ → Prop} {C : List α → α → Prop}
    (hstep : ∀ pre s a t, P pre s → C pre a → step s a = some t → P (pre ++ [a]) t)
    {pre : List α} (h : Run step s as t)
    (hC : ∀ xs a ys, as = xs ++ a :: ys → C (pre ++ xs) a) (hs : P pre s) : P (pre ++ as) t := by
  induction h generalizing pre with
  | nil _ => simpa only [List.append_nil] using hs
  | @cons s t u a as ha _ ih =>
      have ha' : C pre a := by simpa using hC [] a as rfl
      have hrest : ∀ xs b ys, as = xs ++ b :: ys → C ((pre ++ [a]) ++ xs) b := by
        rintro xs b ys rfl
        simpa using hC (a :: xs) b ys rfl
      simpa only [List.append_assoc, List.singleton_append] using ih hrest (hstep _ _ _ _ hs ha' ha)

/-- Some step that the labels take from `s` meets a condition on its label and the states around it. -/
def Occurs (step : σ → α → Option σ) (Q : σ → α → σ → Prop) (s : σ) (as : List α) : Prop :=
  ∃ xs a ys t u, as = xs ++ a :: ys ∧ Run step s xs t ∧ step t a = some u ∧ Q t a u

theorem not_occurs_nil {Q : σ → α → σ → Prop} : ¬Occurs step Q s [] := by
  rintro ⟨xs, a, ys, t, u, has, _⟩
  exact absurd has.symm (List.append_ne_nil_of_right_ne_nil _ (List.cons_ne_nil _ _))

theorem occurs_append_singleton {Q : σ → α → σ → Prop} (h : Run step s as t) (ha : step t a = some u) :
    Occurs step Q s (as ++ [a]) ↔ Occurs step Q s as ∨ Q t a u := by
  constructor
  · rintro ⟨xs, b, ys, v, w, has, hxs, hb, hQ⟩
    rcases List.eq_nil_or_concat ys with rfl | ⟨zs, c, rfl⟩
    · obtain ⟨rfl, hab⟩ := List.append_inj' has rfl
      cases hab
      cases h.deterministic hxs
      cases ha.symm.trans hb
      exact Or.inr hQ
    · left
      rw [List.concat_eq_append, ← List.cons_append, ← List.append_assoc] at has
      obtain ⟨rfl, _⟩ := List.append_inj' has rfl
      exact ⟨xs, b, zs, v, w, rfl, hxs, hb, hQ⟩
  · rintro (⟨xs, b, ys, v, w, rfl, hrest⟩ | hQ)
    · exact ⟨xs, b, ys ++ [a], v, w, by simp, hrest⟩
    · exact ⟨as, a, [], t, u, rfl, h, ha, hQ⟩

/-- A property that each step either keeps or ends by an exit holds at the end of the run, or some
step of the run made the exit from a state that still had the property. -/
theorem until_exit {P : σ → Prop} {exit : σ → α → σ → Prop}
    (hstep : ∀ s a t, P s → step s a = some t → P t ∨ exit s a t)
    (h : Run step s as u) (hs : P s) :
    P u ∨ ∃ xs a ys v w, as = xs ++ a :: ys ∧ Run step s xs v ∧ P v ∧ step v a = some w ∧
      exit v a w := by
  induction h with
  | nil _ => exact Or.inl hs
  | @cons s t u a as ha _ ih =>
      rcases hstep s a t hs ha with ht | hx
      · rcases ih ht with hu | ⟨xs, b, ys, v, w, rfl, hv, hpv, hb, hx⟩
        · exact Or.inl hu
        · exact Or.inr ⟨a :: xs, b, ys, v, w, rfl, .cons ha hv, hpv, hb, hx⟩
      · exact Or.inr ⟨[], a, as, s, t, rfl, .nil s, hs, ha, hx⟩

theorem along_or_occurs {Q : σ → α → Prop} (h : Run step s as u) :
    Along step (fun s a => ¬Q s a) s as ∨ Occurs step (fun s a _ => Q s a) s as := by
  induction h with
  | nil _ => exact Or.inl trivial
  | @cons s t u a as ha _ ih =>
      by_cases hQ : Q s a
      · exact Or.inr ⟨[], a, as, s, t, rfl, .nil s, ha, hQ⟩
      · rcases ih with hrest | ⟨xs, b, ys, v, w, rfl, hv, hb, hQb⟩
        · exact Or.inl (.cons ha hQ hrest)
        · exact Or.inr ⟨a :: xs, b, ys, v, w, rfl, .cons ha hv, hb, hQb⟩

/-! ## What some continuation reaches -/

/-- Steps whose labels meet a condition lead from `s` to `t`. -/
def Leads (step : σ → α → Option σ) (C : α → Prop) (s t : σ) : Prop :=
  ∃ as, (∀ a ∈ as, C a) ∧ Run step s as t

theorem Leads.refl {C : α → Prop} (s : σ) : Leads step C s s := ⟨[], by simp, .nil s⟩

theorem Leads.of_step {C : α → Prop} (hC : C a) (h : step s a = some t) : Leads step C s t :=
  ⟨[a], by simpa using hC, .single h⟩

theorem Leads.trans {C : α → Prop} (h₁ : Leads step C s t) (h₂ : Leads step C t u) :
    Leads step C s u := by
  obtain ⟨as, has, hrun⟩ := h₁
  obtain ⟨bs, hbs, hrun'⟩ := h₂
  refine ⟨as ++ bs, fun a ha => ?_, hrun.append hrun'⟩
  exact (List.mem_append.mp ha).elim (has a) (hbs a)

/-- Where a state leads to the goal or to a state with a smaller measure, it leads to the goal. -/
theorem Leads.of_measure {C : α → Prop} {P Q : σ → Prop} (μ : σ → ℕ)
    (hstep : ∀ s, P s → ∃ t, Leads step C s t ∧ (Q t ∨ (P t ∧ μ t < μ s))) (hs : P s) :
    ∃ t, Leads step C s t ∧ Q t := by
  induction hn : μ s using Nat.strongRecOn generalizing s with
  | ind n ih =>
      obtain ⟨t, ht, hQ | ⟨hP, hlt⟩⟩ := hstep s hs
      · exact ⟨t, ht, hQ⟩
      · obtain ⟨u, hu, hQ⟩ := ih (μ t) (hn ▸ hlt) hP rfl
        exact ⟨u, ht.trans hu, hQ⟩

/-! ## Traces -/

/-- What the steps that the labels take from `s` emit, one after another. -/
def trace (step : σ → α → Option σ) (emit : σ → α → List β) : σ → List α → List β
  | _, [] => []
  | s, a :: as => emit s a ++ (step s a).elim [] (fun t => trace step emit t as)

theorem trace_cons {emit : σ → α → List β} (h : step s a = some t) :
    trace step emit s (a :: as) = emit s a ++ trace step emit t as := by
  rw [trace, h]
  rfl

theorem trace_append {emit : σ → α → List β} (h : Run step s as t) :
    trace step emit s (as ++ bs) = trace step emit s as ++ trace step emit t bs := by
  induction h with
  | nil _ => rfl
  | cons ha _ ih => rw [List.cons_append, trace_cons ha, trace_cons ha, ih, List.append_assoc]

/-- A measure that each step lowers by its cost bounds the costs of a run. -/
theorem measure_trace_le {P : σ → Prop} {C : σ → α → Prop} {μ : σ → ℕ} {cost : σ → α → ℕ}
    (hstep : ∀ s a t, P s → C s a → step s a = some t → P t ∧ μ t + cost s a ≤ μ s)
    (h : Run step s as t) (hC : Along step C s as) (hs : P s) :
    P t ∧ μ t + (trace step (fun s a => [cost s a]) s as).sum ≤ μ s := by
  induction h with
  | nil s => exact ⟨hs, Nat.le_refl (μ s)⟩
  | cons ha _ ih =>
      obtain ⟨hP, hlower⟩ := hstep _ _ _ hs hC.1 ha
      obtain ⟨hend, hrest⟩ := ih (hC.2 _ ha) hP
      refine ⟨hend, ?_⟩
      rw [trace_cons ha, List.singleton_append, List.sum_cons]
      omega

/-- A run is matched by a run of what it emits when each of its steps is. -/
theorem simulates {step' : τ → β → Option τ} {abs : σ → τ} {emit : σ → α → List β} {P : σ → Prop}
    (hstep : ∀ s a t, P s → step s a = some t → P t ∧ Run step' (abs s) (emit s a) (abs t))
    (h : Run step s as t) (hs : P s) :
    P t ∧ Run step' (abs s) (trace step emit s as) (abs t) := by
  induction h with
  | nil s => exact ⟨hs, .nil _⟩
  | cons ha _ ih =>
      obtain ⟨hP, hmatch⟩ := hstep _ _ _ hs ha
      obtain ⟨hend, hrest⟩ := ih hP
      rw [trace_cons ha]
      exact ⟨hend, hmatch.append hrest⟩

end Run
end Dandori
