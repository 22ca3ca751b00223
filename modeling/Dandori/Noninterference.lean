import Dandori.LabelledRun

/-!
# Parties that share a system

Every label of a run belongs to one party, and `view o` is what the party `o` can see of a state. When
the reply of a party's step and its view after the step depend on its view before the step, and a step
of another party leaves the view as it is, the replies to a party in a whole run depend on its own
requests alone: not on those of the others, nor on the part of a label that it did not choose.
-/

namespace Dandori

/-- The conditions on single steps. `request` is the part of a label that its owner chose, and `admits`
restricts what may happen in a state. -/
structure Unwinding (σ α γ β ο ν : Type*) where
  step : σ → α → Option σ
  request : α → γ
  owner : γ → ο
  reply : σ → α → β
  view : ο → σ → ν
  admits : σ → α → Prop
  consistent : ∀ s₁ s₂ a₁ a₂ t₁ t₂, admits s₁ a₁ → admits s₂ a₂ → request a₁ = request a₂ →
    view (owner (request a₁)) s₁ = view (owner (request a₁)) s₂ → step s₁ a₁ = some t₁ →
    step s₂ a₂ = some t₂ →
    reply s₁ a₁ = reply s₂ a₂ ∧ view (owner (request a₁)) t₁ = view (owner (request a₁)) t₂
  respects : ∀ s a t o, admits s a → step s a = some t → owner (request a) ≠ o → view o t = view o s

namespace Unwinding

variable {σ α γ β ο ν : Type*} [DecidableEq ο] (U : Unwinding σ α γ β ο ν)

/-- What a party asked in a run. -/
def requestsOf (o : ο) (as : List α) : List γ :=
  as.filterMap (fun a => if U.owner (U.request a) = o then some (U.request a) else none)

/-- What a party was told in a run from `s`. -/
def repliesTo (o : ο) (s : σ) (as : List α) : List β :=
  Run.trace U.step (fun s a => if U.owner (U.request a) = o then [U.reply s a] else []) s as

variable {U} {o : ο} {s t : σ} {as bs : List α} {a : α}

@[simp] theorem requestsOf_nil : U.requestsOf o [] = [] := rfl

@[simp] theorem repliesTo_nil : U.repliesTo o s [] = [] := rfl

theorem repliesTo_cons (h : U.step s a = some t) (as : List α) : U.repliesTo o s (a :: as) =
    (if U.owner (U.request a) = o then [U.reply s a] else []) ++ U.repliesTo o t as :=
  Run.trace_cons h

theorem repliesTo_append (h : Run U.step s as t) (bs : List α) :
    U.repliesTo o s (as ++ bs) = U.repliesTo o s as ++ U.repliesTo o t bs :=
  Run.trace_append h

theorem requestsOf_eq_cons_iff {r : γ} {rs : List γ} : U.requestsOf o as = r :: rs ↔
    ∃ xs a ys, as = xs ++ a :: ys ∧ U.requestsOf o xs = [] ∧ U.owner r = o ∧ U.request a = r ∧
      U.requestsOf o ys = rs := by
  unfold requestsOf
  rw [List.filterMap_eq_cons_iff]
  constructor
  · rintro ⟨xs, a, ys, rfl, hxs, ha, hys⟩
    obtain ⟨howner, hr⟩ := Option.ite_none_right_eq_some.mp ha
    cases hr
    exact ⟨xs, a, ys, rfl, List.filterMap_eq_nil_iff.mpr hxs, howner, rfl, hys⟩
  · rintro ⟨xs, a, ys, rfl, hxs, howner, rfl, hys⟩
    exact ⟨xs, a, ys, rfl, List.filterMap_eq_nil_iff.mp hxs, if_pos howner, hys⟩

/-- A run without requests of a party tells it nothing and leaves its view as it is. -/
theorem silent (hnone : U.requestsOf o as = []) (h : Run U.step s as t)
    (hadmits : Run.Along U.step U.admits s as) : U.repliesTo o s as = [] ∧ U.view o t = U.view o s := by
  induction h with
  | nil _ => exact ⟨rfl, rfl⟩
  | @cons s t u a as ha _ ih =>
      have howner : U.owner (U.request a) ≠ o := by
        intro howner
        have hfirst := List.filterMap_eq_nil_iff.mp hnone a List.mem_cons_self
        rw [if_pos howner] at hfirst
        cases hfirst
      have hrest : U.requestsOf o as = [] := List.filterMap_eq_nil_iff.mpr fun b hb =>
        List.filterMap_eq_nil_iff.mp hnone b (List.mem_cons_of_mem a hb)
      obtain ⟨hreplies, hview⟩ := ih hrest (hadmits.2 _ ha)
      refine ⟨?_, hview.trans (U.respects _ _ _ _ hadmits.1 ha howner)⟩
      rw [repliesTo_cons ha, if_neg howner, hreplies]
      rfl

/-- Two runs in which a party asks the same, from states of which it sees the same: it is told the same,
and it sees the same at the end. -/
theorem noninterference {s₁ s₂ t₁ t₂ : σ} {as₁ as₂ : List α}
    (hsame : U.requestsOf o as₁ = U.requestsOf o as₂) (hview : U.view o s₁ = U.view o s₂)
    (h₁ : Run U.step s₁ as₁ t₁) (hadmits₁ : Run.Along U.step U.admits s₁ as₁)
    (h₂ : Run U.step s₂ as₂ t₂) (hadmits₂ : Run.Along U.step U.admits s₂ as₂) :
    U.repliesTo o s₁ as₁ = U.repliesTo o s₂ as₂ ∧ U.view o t₁ = U.view o t₂ := by
  induction hrs : U.requestsOf o as₁ generalizing s₁ s₂ as₁ as₂ with
  | nil =>
      obtain ⟨hreplies₁, hview₁⟩ := silent hrs h₁ hadmits₁
      obtain ⟨hreplies₂, hview₂⟩ := silent (hsame.symm.trans hrs) h₂ hadmits₂
      exact ⟨hreplies₁.trans hreplies₂.symm, hview₁.trans (hview.trans hview₂.symm)⟩
  | cons r rs ih =>
      obtain ⟨xs₁, a₁, ys₁, rfl, hxs₁, rfl, rfl, hys₁⟩ := requestsOf_eq_cons_iff.mp hrs
      obtain ⟨xs₂, a₂, ys₂, rfl, hxs₂, howner, hrequest, hys₂⟩ :=
        requestsOf_eq_cons_iff.mp (hsame.symm.trans hrs)
      obtain ⟨u₁, hpre₁, hrest₁⟩ := Run.append_iff.mp h₁
      obtain ⟨u₂, hpre₂, hrest₂⟩ := Run.append_iff.mp h₂
      obtain ⟨v₁, hstep₁, hpost₁⟩ := Run.cons_iff.mp hrest₁
      obtain ⟨v₂, hstep₂, hpost₂⟩ := Run.cons_iff.mp hrest₂
      obtain ⟨hleft₁, hright₁⟩ := hadmits₁.append hpre₁
      obtain ⟨hleft₂, hright₂⟩ := hadmits₂.append hpre₂
      obtain ⟨hreplies₁, hview₁⟩ := silent hxs₁ hpre₁ hleft₁
      obtain ⟨hreplies₂, hview₂⟩ := silent hxs₂ hpre₂ hleft₂
      have hmiddle : U.view (U.owner (U.request a₁)) u₁ = U.view (U.owner (U.request a₁)) u₂ :=
        hview₁.trans (hview.trans hview₂.symm)
      obtain ⟨hreply, hafter⟩ := U.consistent _ _ _ _ _ _ hright₁.1 hright₂.1 hrequest.symm hmiddle
        hstep₁ hstep₂
      obtain ⟨hreplies, hend⟩ := ih (hys₁.trans hys₂.symm) hafter hpost₁ (hright₁.2 _ hstep₁) hpost₂
        (hright₂.2 _ hstep₂) hys₁
      refine ⟨?_, hend⟩
      rw [repliesTo_append hpre₁, repliesTo_append hpre₂, repliesTo_cons hstep₁, repliesTo_cons hstep₂,
        hreplies₁, hreplies₂, hrequest, hreply, hreplies]

end Unwinding
end Dandori
