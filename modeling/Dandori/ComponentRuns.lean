import Mathlib.Logic.Function.Basic
import Dandori.LabelledRun

/-!
# Runs of independent components

A family of components with one step function each takes labelled steps, every label with the name of
the component that makes it. A run of the family is nothing but a run of each component on the labels
that name it, so a refinement into a family can be proved one component at a time.
-/

namespace Dandori.Components

variable {ι σ α κ : Type*} [DecidableEq ι]

/-- The step of the family in which the component `m.1` makes the step `m.2`. -/
def stepAt (step : σ → α → Option σ) (f : ι → σ) (m : ι × α) : Option (ι → σ) :=
  (step (f m.1) m.2).map (Function.update f m.1)

/-- The labels that name the component `i`. -/
def actionsAt (i : ι) (ms : List (ι × α)) : List α := (ms.filter (fun m => m.1 = i)).map Prod.snd

section Actions

variable {i : ι} {m : ι × α} {ms : List (ι × α)}

@[simp] theorem actionsAt_nil : actionsAt i ([] : List (ι × α)) = [] := rfl

theorem actionsAt_cons_self : actionsAt m.1 (m :: ms) = m.2 :: actionsAt m.1 ms := by
  rw [actionsAt, List.filter_cons_of_pos (by simp), List.map_cons]
  rfl

theorem actionsAt_cons_of_ne (h : m.1 ≠ i) : actionsAt i (m :: ms) = actionsAt i ms := by
  rw [actionsAt, List.filter_cons_of_neg (by simpa using h)]
  rfl

theorem actionsAt_eq_nil (h : ∀ m ∈ ms, m.1 ≠ i) : actionsAt i ms = [] := by
  rw [actionsAt, List.filter_eq_nil_iff.mpr (fun m hm => by simpa using h m hm)]
  rfl

/-- Labels with different names are one label for each name. -/
theorem actionsAt_map {xs : List κ} {name : κ → ι} {act : κ → α} (hnodup : (xs.map name).Nodup)
    {x : κ} (hx : x ∈ xs) : actionsAt (name x) (xs.map (fun y => (name y, act y))) = [act x] := by
  induction xs with
  | nil => cases hx
  | cons y ys ih =>
      rw [List.map_cons, List.nodup_cons] at hnodup
      rw [List.map_cons]
      rcases List.mem_cons.mp hx with rfl | hx
      · rw [actionsAt_cons_self (m := (name x, act x)), actionsAt_eq_nil]
        intro m hm heq
        obtain ⟨z, hz, rfl⟩ := List.mem_map.mp hm
        change name z = name x at heq
        exact hnodup.1 (heq ▸ List.mem_map_of_mem hz)
      · have hne : name y ≠ name x := fun heq => hnodup.1 (heq ▸ List.mem_map_of_mem hx)
        rw [actionsAt_cons_of_ne hne]
        exact ih hnodup.2 hx

theorem actionsAt_map_of_notMem {xs : List κ} {name : κ → ι} {act : κ → α} (h : i ∉ xs.map name) :
    actionsAt i (xs.map (fun y => (name y, act y))) = [] := by
  refine actionsAt_eq_nil (fun m hm => ?_)
  obtain ⟨y, hy, rfl⟩ := List.mem_map.mp hm
  exact fun heq => h (heq ▸ List.mem_map_of_mem hy)

end Actions

variable {step : σ → α → Option σ} {f g : ι → σ} {m : ι × α} {ms : List (ι × α)}

theorem stepAt_eq_some :
    stepAt step f m = some g ↔ ∃ t, step (f m.1) m.2 = some t ∧ g = Function.update f m.1 t := by
  rw [stepAt, Option.map_eq_some_iff]
  exact exists_congr (fun t => and_congr_right (fun _ => eq_comm))

/-- A run of the family is a run of each component on its labels. -/
theorem run_stepAt_iff :
    Run (stepAt step) f ms g ↔ ∀ i, Run step (f i) (actionsAt i ms) (g i) := by
  induction ms generalizing f with
  | nil =>
      rw [Run.nil_iff, funext_iff]
      exact forall_congr' (fun i => Run.nil_iff.symm)
  | cons m ms ih =>
      rw [Run.cons_iff]
      constructor
      · rintro ⟨f', hstep, hrest⟩ i
        obtain ⟨t, ht, rfl⟩ := stepAt_eq_some.mp hstep
        have hi := ih.mp hrest i
        by_cases him : m.1 = i
        · subst him
          rw [Function.update_self] at hi
          rw [actionsAt_cons_self]
          exact .cons ht hi
        · rw [Function.update_of_ne (Ne.symm him)] at hi
          rwa [actionsAt_cons_of_ne him]
      · intro h
        have hm := h m.1
        rw [actionsAt_cons_self] at hm
        obtain ⟨t, ht, hrest⟩ := Run.cons_iff.mp hm
        refine ⟨Function.update f m.1 t, stepAt_eq_some.mpr ⟨t, ht, rfl⟩, ih.mpr (fun i => ?_)⟩
        by_cases him : m.1 = i
        · subst him
          rwa [Function.update_self]
        · rw [Function.update_of_ne (Ne.symm him)]
          have hi := h i
          rwa [actionsAt_cons_of_ne him] at hi

end Dandori.Components
