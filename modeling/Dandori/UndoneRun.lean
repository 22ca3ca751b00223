import Dandori.LabelledRun

/-!
# Labels that take back a run

`Undone step P as bs` says that from a state with `P` the labels `bs` lead back to where the labels `as`
started. Parts that are undone one by one are undone as a whole in the reverse order, the members of a
family in any order if the ways back commute, and a label whose effect the way back overwrites needs no
counterpart of its own.
-/

namespace Dandori

variable {σ α κ : Type*}

def Undone (step : σ → α → Option σ) (P : σ → Prop) (as bs : List α) : Prop :=
  ∀ s t, P s → Run step s as t → Run step t bs s

variable {step : σ → α → Option σ} {P Q : σ → Prop} {as bs cs ds : List α} {a b : α}

namespace Undone

theorem nil : Undone step P [] [] := by
  intro s t _ h
  cases h
  exact .nil s

theorem of_step (h : ∀ s t, P s → step s a = some t → step t b = some s) : Undone step P [a] [b] := by
  intro s t hP hr
  obtain ⟨u, hu, hr⟩ := Run.cons_iff.mp hr
  cases Run.nil_iff.mp hr
  exact .single (h s t hP hu)

theorem mono (h : Undone step P as bs) (himp : ∀ s, Q s → P s) : Undone step Q as bs :=
  fun s t hQ => h s t (himp s hQ)

theorem append (h₁ : Undone step P as bs) (h₂ : Undone step Q cs ds)
    (hQ : ∀ s t, P s → Run step s as t → Q t) : Undone step P (as ++ cs) (ds ++ bs) := by
  intro s u hP hr
  obtain ⟨t, ht, hu⟩ := Run.append_iff.mp hr
  exact (h₂ t u (hQ s t hP ht) hu).append (h₁ s t hP ht)

/-- The way back overwrites what one more label does. -/
theorem absorb (h : Undone step P as [b]) (hstep : ∀ s t, step s a = some t → step t b = step s b) :
    Undone step P (as ++ [a]) [b] := by
  intro s u hP hr
  obtain ⟨t, ht, hu⟩ := Run.append_iff.mp hr
  obtain ⟨v, hv, hnil⟩ := Run.cons_iff.mp hu
  cases Run.nil_iff.mp hnil
  obtain ⟨w, hw, hnil⟩ := Run.cons_iff.mp (h s t hP ht)
  cases Run.nil_iff.mp hnil
  exact .single ((hstep t u hv).trans hw)

/-- A family of labels, each of which keeps what the later ones need. -/
theorem family {xs : List κ} {up down : κ → α} {R : κ → σ → Prop}
    (hone : ∀ x ∈ xs, ∀ s t, P s → R x s → step s (up x) = some t → step t (down x) = some s)
    (hkeep : ∀ x ∈ xs, ∀ s t, P s → step s (up x) = some t → P t)
    (hlater : xs.Pairwise fun x y => ∀ s t, R y s → step s (up x) = some t → R y t) :
    Undone step (fun s => P s ∧ ∀ x ∈ xs, R x s) (xs.map up) (xs.reverse.map down) := by
  induction xs with
  | nil => exact nil
  | cons x xs ih =>
      obtain ⟨hx, hlater⟩ := List.pairwise_cons.mp hlater
      rw [List.map_cons, List.reverse_cons, List.map_append, ← List.singleton_append]
      have hrest := ih (fun y hy => hone y (List.mem_cons_of_mem _ hy))
        (fun y hy => hkeep y (List.mem_cons_of_mem _ hy)) hlater
      refine append (of_step fun s t hP => ?_) hrest ?_
      · exact hone x List.mem_cons_self s t hP.1 (hP.2 x List.mem_cons_self)
      · intro s t hP hr
        obtain ⟨u, hu, hnil⟩ := Run.cons_iff.mp hr
        cases Run.nil_iff.mp hnil
        refine ⟨hkeep x List.mem_cons_self s t hP.1 hu, fun y hy => ?_⟩
        exact hx y hy s t (hP.2 y (List.mem_cons_of_mem _ hy)) hu

/-- Parts that are undone one by one, from a state that the parts before them have reached. -/
theorem parts {ms : List κ} {up down : κ → List α} {I : ℕ → σ → Prop} {i : ℕ}
    (hone : ∀ j m, ms[j]? = some m → Undone step (I (i + j)) (up m) (down m))
    (hnext : ∀ j m s t, ms[j]? = some m → I (i + j) s → Run step s (up m) t → I (i + j + 1) t) :
    Undone step (I i) (ms.flatMap up) (ms.reverse.flatMap down) := by
  induction ms generalizing i with
  | nil => exact nil
  | cons m ms ih =>
      have hrest : Undone step (I (i + 1)) (ms.flatMap up) (ms.reverse.flatMap down) := by
        refine ih (fun j n hn => ?_) (fun j n s t hn hI hr => ?_)
        · rw [Nat.add_assoc, Nat.add_comm 1]
          exact hone (j + 1) n hn
        · rw [Nat.add_assoc i, Nat.add_comm 1] at hI ⊢
          exact hnext (j + 1) n s t hn hI hr
      rw [List.flatMap_cons, List.reverse_cons, List.flatMap_append, List.flatMap_singleton]
      exact append (hone 0 m rfl) hrest fun s t hI hr => hnext 0 m s t rfl hI hr

end Undone

namespace Run

variable {s t u : σ} {C : α → Prop}

theorem parts {ms : List κ} {up : κ → List α} {I : ℕ → σ → Prop} {i : ℕ}
    (hnext : ∀ j m s t, ms[j]? = some m → I (i + j) s → Run step s (up m) t → I (i + j + 1) t)
    (hs : I i s) (h : Run step s (ms.flatMap up) t) : I (i + ms.length) t := by
  induction ms generalizing i s with
  | nil =>
      cases h
      exact hs
  | cons m ms ih =>
      rw [List.flatMap_cons] at h
      obtain ⟨v, hv, hr⟩ := append_iff.mp h
      rw [List.length_cons, Nat.add_comm ms.length, ← Nat.add_assoc]
      refine ih (fun j n s t hn hI hr => ?_) (hnext 0 m s v rfl hs hv) hr
      rw [Nat.add_assoc i, Nat.add_comm 1] at hI ⊢
      exact hnext (j + 1) n s t hn hI hr

/-- Labels that commute may be run in any order. -/
theorem perm (hcomm : ∀ a ∈ as, ∀ b ∈ as, ∀ s,
      (step s a).bind (fun t => step t b) = (step s b).bind (fun t => step t a))
    (h : Run step s as t) (hperm : as.Perm bs) : Run step s bs t := by
  induction hperm generalizing s with
  | nil => exact h
  | cons a _ ih =>
      obtain ⟨u, hu, hr⟩ := cons_iff.mp h
      refine .cons hu (ih ?_ hr)
      exact fun a ha b hb => hcomm a (List.mem_cons_of_mem _ ha) b (List.mem_cons_of_mem _ hb)
  | swap a b as =>
      obtain ⟨u, hu, hr⟩ := cons_iff.mp h
      obtain ⟨v, hv, hr⟩ := cons_iff.mp hr
      have hboth : (step s a).bind (fun t => step t b) = some v := by
        rw [hcomm a (by simp) b (by simp), hu]
        exact hv
      obtain ⟨w, hw, hwv⟩ := Option.bind_eq_some_iff.mp hboth
      exact .cons hw (.cons hwv hr)
  | trans hp _ ih₁ ih₂ =>
      refine ih₂ ?_ (ih₁ hcomm h)
      exact fun a ha b hb => hcomm a (hp.mem_iff.mpr ha) b (hp.mem_iff.mpr hb)

/-- A map of the states that the labels do not notice. -/
theorem map_iff {f : σ → σ} (hstep : ∀ s a, C a → step (f s) a = (step s a).map f)
    (hC : ∀ a ∈ as, C a) : Run step (f s) as u ↔ ∃ t, Run step s as t ∧ f t = u := by
  induction as generalizing s with
  | nil =>
      rw [nil_iff]
      constructor
      · rintro rfl
        exact ⟨s, .nil s, rfl⟩
      · rintro ⟨t, ht, rfl⟩
        rw [nil_iff.mp ht]
  | cons a as ih =>
      have hrest := fun b hb => hC b (List.mem_cons_of_mem _ hb)
      rw [cons_iff, hstep s a (hC a List.mem_cons_self)]
      constructor
      · rintro ⟨v, hv, hr⟩
        obtain ⟨w, hw, rfl⟩ := Option.map_eq_some_iff.mp hv
        obtain ⟨t, ht, rfl⟩ := (ih hrest).mp hr
        exact ⟨t, .cons hw ht, rfl⟩
      · rintro ⟨t, ht, rfl⟩
        obtain ⟨w, hw, hr⟩ := cons_iff.mp ht
        exact ⟨f w, by rw [hw]; rfl, (ih hrest).mpr ⟨t, hr, rfl⟩⟩

end Run
end Dandori
