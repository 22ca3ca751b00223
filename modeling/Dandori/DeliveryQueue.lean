import Dandori.LabelledRun
import Mathlib.Data.List.Chain
import Mathlib.Order.Lattice

/-!
# A queue of leased deliveries

An item that is put into the queue becomes due, is taken under a key for a while, and is acknowledged or
failed by the key that holds it. A failed item becomes due again until its failures reach a budget or one
of them is final; a settled item is dropped. Where an item is and how often it has failed can be read
off the acts that were made on it, and two takings of an item never overlap.
-/

namespace Dandori.DeliveryQueue

inductive Place (κ τ : Type*)
  | ready (failures : ℕ) (due : τ)
  | held (failures : ℕ) (key : κ) (till : τ)
  | delivered (failures : ℕ)
  | dead (failures : ℕ)

inductive Act (κ τ : Type*)
  | put (due : τ)
  | take (now : τ) (key : κ) (till : τ)
  | ack (now : τ) (key : κ)
  | fail (now : τ) (key : κ) (final : Bool) (due : τ)
  | drop

variable {κ τ : Type*}

def Place.failures : Place κ τ → ℕ
  | ready n _ => n
  | held n _ _ => n
  | delivered n => n
  | dead n => n

def Act.isPut : Act κ τ → Bool
  | put _ => true
  | _ => false

def Act.isFail : Act κ τ → Bool
  | fail _ _ _ _ => true
  | _ => false

/-- The failures since the item was last put into the queue. -/
def recorded (acts : List (Act κ τ)) : ℕ :=
  (acts.reverse.takeWhile (fun a => !a.isPut)).countP Act.isFail

section Recorded

variable {acts : List (Act κ τ)} {a : Act κ τ}

theorem recorded_concat_put (h : a.isPut = true) : recorded (acts ++ [a]) = 0 := by
  simp [recorded, h]

theorem recorded_concat_fail (hput : a.isPut = false) (h : a.isFail = true) :
    recorded (acts ++ [a]) = recorded acts + 1 := by
  simp [recorded, hput, h]

theorem recorded_concat (hput : a.isPut = false) (h : a.isFail = false) :
    recorded (acts ++ [a]) = recorded acts := by
  simp [recorded, hput, h]

end Recorded

variable [LinearOrder τ]

/-- Where a failure leaves an item. -/
def afterFailure (budget failures : ℕ) (final : Bool) (due : τ) : Place κ τ :=
  if final = true ∨ budget ≤ failures then .dead failures else .ready failures due

/-- One act on one item, which is in the queue at a place or is not in it. -/
def step [DecidableEq κ] (budget : ℕ) : Option (Place κ τ) → Act κ τ → Option (Option (Place κ τ))
  | none, .put due => some (some (.ready 0 due))
  | some (.ready n due), .take now key till =>
      if due ≤ now then some (some (.held n key till)) else none
  | some (.held n _ end'), .take now key till =>
      if end' ≤ now then some (some (.held n key till)) else none
  | some (.held n holder till), .ack now key =>
      if key = holder ∧ now < till then some (some (.delivered n)) else none
  | some (.held n holder till), .fail now key final due =>
      if key = holder ∧ now < till then some (some (afterFailure budget (n + 1) final due)) else none
  | some (.delivered _), .drop => some none
  | some (.dead _), .drop => some none
  | _, _ => none

/-- What one act can do. -/
inductive StepEffect (budget : ℕ) : Option (Place κ τ) → Act κ τ → Option (Place κ τ) → Prop
  | put (due : τ) : StepEffect budget none (.put due) (some (.ready 0 due))
  | taken {n : ℕ} {due now : τ} (key : κ) (till : τ) (h : due ≤ now) :
      StepEffect budget (some (.ready n due)) (.take now key till) (some (.held n key till))
  | retaken {n : ℕ} {holder : κ} {end' now : τ} (key : κ) (till : τ) (h : end' ≤ now) :
      StepEffect budget (some (.held n holder end')) (.take now key till) (some (.held n key till))
  | acked {n : ℕ} {key : κ} {till now : τ} (h : now < till) :
      StepEffect budget (some (.held n key till)) (.ack now key) (some (.delivered n))
  | failed {n : ℕ} {key : κ} {till now : τ} (final : Bool) (due : τ) (h : now < till) :
      StepEffect budget (some (.held n key till)) (.fail now key final due)
        (some (afterFailure budget (n + 1) final due))
  | dropped (n : ℕ) : StepEffect budget (some (.delivered n)) .drop none
  | buried (n : ℕ) : StepEffect budget (some (.dead n)) .drop none

theorem step_effect [DecidableEq κ] {budget : ℕ} {place place' : Option (Place κ τ)} {act : Act κ τ}
    (h : step budget place act = some place') : StepEffect budget place act place' := by
  cases act with
  | put due =>
      cases place with
      | none =>
          cases h
          exact .put due
      | some p => cases p <;> cases h
  | take now key till =>
      cases place with
      | none => cases h
      | some p =>
          cases p with
          | ready n due =>
              simp only [step] at h
              split_ifs at h with hdue
              cases h
              exact .taken key till hdue
          | held n holder end' =>
              simp only [step] at h
              split_ifs at h with hend
              cases h
              exact .retaken key till hend
          | delivered n => cases h
          | dead n => cases h
  | ack now key =>
      cases place with
      | none => cases h
      | some p =>
          cases p with
          | held n holder till =>
              simp only [step] at h
              split_ifs at h with hheld
              cases h
              obtain ⟨rfl, hlive⟩ := hheld
              exact .acked hlive
          | _ => cases h
  | fail now key final due =>
      cases place with
      | none => cases h
      | some p =>
          cases p with
          | held n holder till =>
              simp only [step] at h
              split_ifs at h with hheld
              cases h
              obtain ⟨rfl, hlive⟩ := hheld
              exact .failed final due hlive
          | _ => cases h
  | drop =>
      cases place with
      | none => cases h
      | some p =>
          cases p with
          | delivered n =>
              cases h
              exact .dropped n
          | dead n =>
              cases h
              exact .buried n
          | _ => cases h

/-- Which act may come next: an item is taken when it is due or its holder is out of time, and settled
by its holder in time. -/
inductive Follows : Act κ τ → Act κ τ → Prop
  | due {due now till : τ} {key : κ} (h : due ≤ now) : Follows (.put due) (.take now key till)
  | expired {now till now' till' : τ} {key key' : κ} (h : till ≤ now') :
      Follows (.take now key till) (.take now' key' till')
  | acked {now till now' : τ} {key : κ} (h : now' < till) :
      Follows (.take now key till) (.ack now' key)
  | failed {now till now' due : τ} {key : κ} {final : Bool} (h : now' < till) :
      Follows (.take now key till) (.fail now' key final due)
  | retried {now due now' till : τ} {key key' : κ} (h : due ≤ now') :
      Follows (.fail now key false due) (.take now' key' till)
  | dropped {now : τ} {key : κ} : Follows (.ack now key) .drop
  | buried {now due : τ} {key : κ} {final : Bool} : Follows (.fail now key final due) .drop
  | again {due : τ} : Follows .drop (.put due)

/-- How the acts on an item end, from where the item is. -/
def Ends (budget : ℕ) (acts : List (Act κ τ)) : Option (Place κ τ) → Prop
  | none => acts = [] ∨ ∃ pre, acts = pre ++ [.drop]
  | some (.ready n due) => n < budget ∧ ((n = 0 ∧ ∃ pre, acts = pre ++ [.put due]) ∨
      (0 < n ∧ ∃ pre taken key till now, now < till ∧
        acts = pre ++ [.take taken key till] ++ [.fail now key false due]))
  | some (.held n key till) => n < budget ∧ ∃ pre now, acts = pre ++ [.take now key till]
  | some (.delivered n) => n < budget ∧ ∃ pre taken key till now, now < till ∧
      acts = pre ++ [.take taken key till] ++ [.ack now key]
  | some (.dead n) => 0 < n ∧ n ≤ budget ∧ ∃ pre taken key till now final due, now < till ∧
      (final = true ∨ n = budget) ∧
        acts = pre ++ [.take taken key till] ++ [.fail now key final due]

/-- What the acts on an item say about it. -/
structure Accounts (budget : ℕ) (acts : List (Act κ τ)) (place : Option (Place κ τ)) : Prop where
  follows : acts.IsChain Follows
  failures : ∀ p, place = some p → p.failures = recorded acts
  ends : Ends budget acts place

section History

variable {budget : ℕ} {acts : List (Act κ τ)} {act : Act κ τ} {place place' : Option (Place κ τ)}

theorem Accounts.nil : Accounts budget ([] : List (Act κ τ)) none where
  follows := .nil
  failures p hp := by cases hp
  ends := Or.inl rfl

/-- The last act allows the next one. -/
theorem Accounts.follows_concat (h : Accounts budget acts place)
    (hstep : StepEffect budget place act place') : (acts ++ [act]).IsChain Follows := by
  refine List.isChain_append.mpr ⟨h.follows, .singleton act, ?_⟩
  rintro last hlast _ ⟨⟩
  have hends := h.ends
  cases hstep with
  | put due =>
      rcases hends with rfl | ⟨pre, rfl⟩
      · cases hlast
      · rw [List.getLast?_concat] at hlast
        cases hlast
        exact .again
  | taken key till hdue =>
      rcases hends with ⟨_, ⟨_, pre, rfl⟩ | ⟨_, pre, taken, holder, till', now, _, rfl⟩⟩
      · rw [List.getLast?_concat] at hlast
        cases hlast
        exact .due hdue
      · rw [List.getLast?_concat] at hlast
        cases hlast
        exact .retried hdue
  | retaken key till hend =>
      obtain ⟨_, pre, now, rfl⟩ := hends
      rw [List.getLast?_concat] at hlast
      cases hlast
      exact .expired hend
  | acked hlive =>
      obtain ⟨_, pre, now, rfl⟩ := hends
      rw [List.getLast?_concat] at hlast
      cases hlast
      exact .acked hlive
  | failed final due hlive =>
      obtain ⟨_, pre, now, rfl⟩ := hends
      rw [List.getLast?_concat] at hlast
      cases hlast
      exact .failed hlive
  | dropped n =>
      obtain ⟨_, pre, taken, key, till, now, _, rfl⟩ := hends
      rw [List.getLast?_concat] at hlast
      cases hlast
      exact .dropped
  | buried n =>
      obtain ⟨_, _, pre, taken, key, till, now, final, due, _, _, rfl⟩ := hends
      rw [List.getLast?_concat] at hlast
      cases hlast
      exact .buried

theorem Accounts.concat (hbudget : 0 < budget) (h : Accounts budget acts place)
    (hstep : StepEffect budget place act place') : Accounts budget (acts ++ [act]) place' := by
  refine ⟨h.follows_concat hstep, ?_, ?_⟩
  · rintro p rfl
    cases hstep with
    | put due => exact (recorded_concat_put rfl).symm
    | taken key till => exact (h.failures _ rfl).trans (recorded_concat rfl rfl).symm
    | retaken key till => exact (h.failures _ rfl).trans (recorded_concat rfl rfl).symm
    | acked => exact (h.failures _ rfl).trans (recorded_concat rfl rfl).symm
    | @failed n key till now final due =>
        rw [recorded_concat_fail rfl rfl, ← h.failures _ rfl]
        unfold afterFailure
        split <;> rfl
  · have hends := h.ends
    cases hstep with
    | put due => exact ⟨hbudget, Or.inl ⟨rfl, acts, rfl⟩⟩
    | @taken n due now key till _ => exact ⟨hends.1, acts, now, rfl⟩
    | @retaken n holder end' now key till _ => exact ⟨hends.1, acts, now, rfl⟩
    | @acked n key till now hlive =>
        obtain ⟨hn, pre, taken, rfl⟩ := hends
        exact ⟨hn, pre, taken, key, till, now, hlive, rfl⟩
    | @failed n key till now final due hlive =>
        obtain ⟨hn, pre, taken, rfl⟩ := hends
        unfold afterFailure
        split_ifs with hdead
        · refine ⟨Nat.succ_pos n, hn, pre, taken, key, till, now, final, due, hlive, ?_, rfl⟩
          exact hdead.imp_right (fun hspent => by omega)
        · obtain ⟨hfinal, hleft⟩ := not_or.mp hdead
          rw [Bool.not_eq_true] at hfinal
          subst hfinal
          exact ⟨not_le.mp hleft, Or.inr ⟨Nat.succ_pos n, pre, taken, key, till, now, hlive, rfl⟩⟩
    | dropped n => exact Or.inr ⟨acts, rfl⟩
    | buried n => exact Or.inr ⟨acts, rfl⟩

/-- The acts of a run account for where the item is. -/
theorem accounts_of_run [DecidableEq κ] (hbudget : 0 < budget) (h : Run (step budget) none acts place) :
    Accounts budget acts place := by
  refine h.history (P := Accounts budget) ?_ .nil
  exact fun pre p act p' haccounts hstep => haccounts.concat hbudget (step_effect hstep)

end History
end Dandori.DeliveryQueue
