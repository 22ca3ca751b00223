import Mathlib.Data.List.Induction

/-!
# Loops that return at the first fault

A loop over a list that keeps a summary of the elements it has passed and returns the fault of the first
element that is faulty after those before it. It ends well exactly when no element is, and otherwise it
returns that fault.
-/

namespace Dandori

variable {α σ ε : Type*} {fault : List α → α → Option ε}

/-- No element of the list is faulty after those before it. -/
inductive Faultless (fault : List α → α → Option ε) : List α → Prop
  | nil : Faultless fault []
  | snoc {before : List α} {x : α} (h : Faultless fault before) (hx : fault before x = none) :
      Faultless fault (before ++ [x])

/-- The first element that is faulty, with its fault. -/
def FirstFault (fault : List α → α → Option ε) (l : List α) (e : ε) : Prop :=
  ∃ before x after, l = before ++ x :: after ∧ Faultless fault before ∧ fault before x = some e

theorem faultless_append_singleton {l : List α} {x : α} :
    Faultless fault (l ++ [x]) ↔ Faultless fault l ∧ fault l x = none := by
  constructor
  · intro h
    generalize heq : l ++ [x] = l' at h
    cases h with
    | nil => exact absurd heq (List.append_ne_nil_of_right_ne_nil l (List.cons_ne_nil x []))
    | snoc h hx =>
        obtain ⟨rfl, hlast⟩ := List.append_inj' heq rfl
        cases hlast
        exact ⟨h, hx⟩
  · rintro ⟨h, hx⟩
    exact .snoc h hx

theorem faultless_or_firstFault (fault : List α → α → Option ε) (l : List α) :
    Faultless fault l ∨ ∃ e, FirstFault fault l e := by
  induction l using List.reverseRecOn with
  | nil => exact Or.inl .nil
  | append_singleton l x ih =>
      rcases ih with h | ⟨e, before, y, after, rfl, h, hy⟩
      · cases hx : fault l x with
        | none => exact Or.inl (.snoc h hx)
        | some e => exact Or.inr ⟨e, l, x, [], rfl, h, hx⟩
      · exact Or.inr ⟨e, before, y, after ++ [x], by rw [List.append_assoc, List.cons_append], h, hy⟩

section Loop

/-- The loop keeps `summary` of the elements it has passed. -/
structure ReturnsFirst (fault : List α → α → Option ε) (step : σ → α → Except ε σ)
    (summary : List α → σ) : Prop where
  passes : ∀ before x, fault before x = none → step (summary before) x = .ok (summary (before ++ [x]))
  returns : ∀ before x e, fault before x = some e → step (summary before) x = .error e

theorem ReturnsFirst.of_eq {step : σ → α → Except ε σ} {summary : List α → σ}
    (h : ∀ before x, step (summary before) x =
      (fault before x).elim (.ok (summary (before ++ [x]))) .error) :
    ReturnsFirst fault step summary where
  passes before x hx := by
    rw [h, hx]
    rfl
  returns before x e hx := by
    rw [h, hx]
    rfl

variable {step : σ → α → Except ε σ} {summary : List α → σ} (hstep : ReturnsFirst fault step summary)

include hstep

theorem foldlM_of_faultless {l : List α} (h : Faultless fault l) :
    l.foldlM step (summary []) = .ok (summary l) := by
  induction h with
  | nil => rfl
  | @snoc before x _ hx ih =>
      rw [List.foldlM_append, ih]
      change [x].foldlM step (summary before) = _
      rw [List.foldlM_cons, hstep.passes _ _ hx]
      rfl

theorem foldlM_of_firstFault {l : List α} {e : ε} (h : FirstFault fault l e) :
    l.foldlM step (summary []) = .error e := by
  obtain ⟨before, x, after, rfl, hbefore, hx⟩ := h
  rw [List.foldlM_append, foldlM_of_faultless hstep hbefore]
  change (x :: after).foldlM step (summary before) = _
  rw [List.foldlM_cons, hstep.returns _ _ _ hx]
  rfl

theorem foldlM_eq_ok_iff {l : List α} {s : σ} :
    l.foldlM step (summary []) = .ok s ↔ Faultless fault l ∧ summary l = s := by
  rcases faultless_or_firstFault fault l with h | ⟨e, h⟩
  · rw [foldlM_of_faultless hstep h, Except.ok.injEq, and_iff_right h]
  · have hnot : ¬ Faultless fault l := fun hl => by
      have hboth := (foldlM_of_faultless hstep hl).symm.trans (foldlM_of_firstFault hstep h)
      cases hboth
    rw [foldlM_of_firstFault hstep h]
    exact iff_of_false (fun heq => by cases heq) fun hl => hnot hl.1

theorem foldlM_eq_error_iff {l : List α} {e : ε} :
    l.foldlM step (summary []) = .error e ↔ FirstFault fault l e := by
  refine ⟨fun h => ?_, foldlM_of_firstFault hstep⟩
  rcases faultless_or_firstFault fault l with hl | ⟨e', hl⟩
  · rw [foldlM_of_faultless hstep hl] at h
    cases h
  · rw [foldlM_of_firstFault hstep hl, Except.error.injEq] at h
    exact h ▸ hl

theorem map_foldlM_eq_ok_iff {l : List α} :
    (l.foldlM step (summary [])).map (fun _ => ()) = .ok () ↔ Faultless fault l := by
  constructor
  · intro h
    cases hl : l.foldlM step (summary []) with
    | ok s => exact ((foldlM_eq_ok_iff hstep).mp hl).1
    | error e =>
        rw [hl] at h
        cases h
  · intro h
    rw [foldlM_of_faultless hstep h]
    rfl

theorem map_foldlM_eq_error_iff {l : List α} {e : ε} :
    (l.foldlM step (summary [])).map (fun _ => ()) = .error e ↔ FirstFault fault l e := by
  rw [← foldlM_eq_error_iff hstep]
  cases l.foldlM step (summary []) with
  | ok s => exact iff_of_false (fun h => by cases h) fun h => by cases h
  | error e' =>
      change Except.error e' = Except.error e ↔ _
      rw [Except.error.injEq, Except.error.injEq]

end Loop

/-- Where the elements before it do not matter, no element is faulty. -/
theorem faultless_iff_forall {bad : α → Option ε} {l : List α} :
    Faultless (fun _ => bad) l ↔ ∀ x ∈ l, bad x = none := by
  induction l using List.reverseRecOn with
  | nil => simp [Faultless.nil]
  | append_singleton l x ih =>
      rw [faultless_append_singleton, ih]
      simp [or_imp, forall_and]

end Dandori
