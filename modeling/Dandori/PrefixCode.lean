import Mathlib.Data.List.Basic
import Mathlib.Logic.Function.Basic

/-!
# Texts that can be taken apart

An encoding is unambiguous when its texts can be split off the front of any longer text. Unambiguous
fields may be written behind literals, and as the items of a terminated list.
Fields that are free of a delimiter may be written with the delimiter behind them. Two fields with a
separator between them are ambiguous, and the last lemma says exactly how.
-/

namespace Dandori

variable {α β : Type*}

def Unambiguous (f : β → List α) : Prop :=
  ∀ ⦃a b : β⦄ ⦃s t : List α⦄, f a ++ s = f b ++ t → a = b ∧ s = t

namespace Unambiguous

variable {f : β → List α}

/-- A reader that gives back what was written and the rest of the text. -/
theorem of_read {read : List α → Option (β × List α)}
    (h : ∀ a s, read (f a ++ s) = some (a, s)) : Unambiguous f := by
  intro a b s t hst
  have hread : some (a, s) = some (b, t) := by rw [← h a s, hst, h b t]
  exact Prod.mk.inj (Option.some.inj hread)

theorem of_length {n : ℕ} (hlength : ∀ a, (f a).length = n) (hf : Function.Injective f) :
    Unambiguous f := by
  intro a b s t h
  have heq : (f a).length = (f b).length := by rw [hlength, hlength]
  obtain ⟨hab, hst⟩ := List.append_inj h heq
  exact ⟨hf hab, hst⟩

theorem comp {δ : Type*} {e : δ → β} (hf : Unambiguous f) (he : Function.Injective e) :
    Unambiguous (fun d => f (e d)) := by
  intro a b s t h
  obtain ⟨hab, hst⟩ := hf h
  exact ⟨he hab, hst⟩

theorem literal (hf : Unambiguous f) (l : List α) : Unambiguous (fun a => l ++ f a) := by
  intro a b s t h
  rw [List.append_assoc, List.append_assoc] at h
  exact hf (List.append_cancel_left h)

theorem flatMap_injective (hf : Unambiguous f) (hne : ∀ a, f a ≠ []) :
    Function.Injective (fun l : List β => l.flatMap f) := by
  intro l
  induction l with
  | nil =>
      intro m h
      cases m with
      | nil => rfl
      | cons b m => exact absurd (List.append_eq_nil_iff.mp h.symm).1 (hne b)
  | cons a l ih =>
      intro m h
      cases m with
      | nil => exact absurd (List.append_eq_nil_iff.mp h).1 (hne a)
      | cons b m =>
          obtain ⟨rfl, hrest⟩ := hf h
          rw [ih hrest]

/-- Items up to a terminator with which no item starts. -/
theorem terminated (hf : Unambiguous f) {d : α} (hd : ∀ a, ∃ b rest, f a = b :: rest ∧ b ≠ d) :
    Unambiguous (fun l : List β => l.flatMap f ++ [d]) := by
  intro l
  induction l with
  | nil =>
      intro m s t h
      cases m with
      | nil => exact ⟨rfl, List.cons.inj h |>.2⟩
      | cons b m =>
          obtain ⟨c, rest, hb, hc⟩ := hd b
          simp only [List.flatMap_nil, List.flatMap_cons, hb, List.nil_append, List.cons_append] at h
          exact absurd (List.cons.inj h).1.symm hc
  | cons a l ih =>
      intro m s t h
      cases m with
      | nil =>
          obtain ⟨c, rest, ha, hc⟩ := hd a
          simp only [List.flatMap_nil, List.flatMap_cons, ha, List.nil_append, List.cons_append] at h
          exact absurd (List.cons.inj h).1 hc
      | cons b m =>
          simp only [List.flatMap_cons, List.append_assoc] at h
          obtain ⟨rfl, hrest⟩ := hf h
          rw [← List.append_assoc, ← List.append_assoc] at hrest
          obtain ⟨rfl, hst⟩ := ih hrest
          exact ⟨rfl, hst⟩

end Unambiguous

section Separators

variable {x y s t : List α} {d : α}

theorem delimited_inj (hx : d ∉ x) (hy : d ∉ y) (h : x ++ d :: s = y ++ d :: t) : x = y ∧ s = t := by
  induction x generalizing y with
  | nil =>
      cases y with
      | nil => exact ⟨rfl, (List.cons.inj h).2⟩
      | cons b y => exact absurd ((List.cons.inj h).1 ▸ List.mem_cons_self) hy
  | cons a x ih =>
      cases y with
      | nil => exact absurd ((List.cons.inj h).1 ▸ List.mem_cons_self) hx
      | cons b y =>
          obtain ⟨rfl, hrest⟩ := List.cons.inj h
          obtain ⟨rfl, hst⟩ := ih (fun hd => hx (List.mem_cons_of_mem _ hd))
            (fun hd => hy (List.mem_cons_of_mem _ hd)) hrest
          exact ⟨rfl, hst⟩

/-- One of two joined texts reaches past the separator of the other. -/
def ReachesPast (sep x s y t : List α) : Prop := ∃ m, y = x ++ sep ++ m ∧ s = m ++ sep ++ t

theorem ReachesPast.append_eq {sep : List α} (h : ReachesPast sep x s y t) :
    x ++ sep ++ s = y ++ sep ++ t := by
  obtain ⟨m, rfl, rfl⟩ := h
  simp only [List.append_assoc]

theorem reachesPast_of_append {rest a : List α} (hd : d ∉ rest) (hy : y = x ++ a)
    (h : (d :: rest) ++ s = a ++ ((d :: rest) ++ t)) :
    (x = y ∧ s = t) ∨ ReachesPast (d :: rest) x s y t := by
  subst hy
  rcases List.append_eq_append_iff.mp h with ⟨m, ha, hs⟩ | ⟨m, ha, hs⟩
  · exact Or.inr ⟨m, by rw [ha, List.append_assoc], by rw [hs, List.append_assoc]⟩
  · cases a with
    | nil =>
        rw [List.nil_append] at h ha
        exact Or.inl ⟨(List.append_nil x).symm, List.append_cancel_left h⟩
    | cons b a =>
        cases m with
        | nil =>
            rw [List.append_nil] at ha
            refine Or.inr ⟨[], by rw [ha, List.append_nil], ?_⟩
            rw [List.nil_append] at hs ⊢
            exact hs.symm
        | cons c m =>
            obtain ⟨_, hrest⟩ := List.cons.inj ha
            have hc : d = c := (List.cons.inj hs).1
            rw [hrest, hc] at hd
            exact absurd (List.mem_append_right a List.mem_cons_self) hd

/-- Joined by a separator whose first letter does not come back in it, two pairs of texts look the same
exactly when they are the same or one of them reaches past the separator of the other. -/
theorem append_separator_iff {rest : List α} (hd : d ∉ rest) :
    x ++ (d :: rest) ++ s = y ++ (d :: rest) ++ t ↔
      (x = y ∧ s = t) ∨ ReachesPast (d :: rest) x s y t ∨ ReachesPast (d :: rest) y t x s := by
  constructor
  · intro h
    rw [List.append_assoc, List.append_assoc] at h
    rcases List.append_eq_append_iff.mp h with ⟨a, hy, ha⟩ | ⟨a, hx, ha⟩
    · exact (reachesPast_of_append hd hy ha).imp_right Or.inl
    · rcases reachesPast_of_append hd hx ha with ⟨hyx, hts⟩ | hreaches
      · exact Or.inl ⟨hyx.symm, hts.symm⟩
      · exact Or.inr (Or.inr hreaches)
  · rintro (⟨rfl, rfl⟩ | h | h)
    · rfl
    · exact h.append_eq
    · exact h.append_eq.symm

end Separators
end Dandori
