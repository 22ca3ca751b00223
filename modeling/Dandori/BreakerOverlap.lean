import Dandori.CircuitBreaker
import Dandori.LabelledRun

/-!
# The circuit breaker under overlapping calls

Calls overlap between their three steps: reading the time and checking the breaker, sending the request,
and recording the answer under the time that was read. `opened` remembers the deadlines that record
steps have set. The breaker stays shut until each of them exactly as long as no later record replaces a
deadline that is still ahead by an earlier one: an answer that is no failure resets the deadline to 0,
and a failure replaces it by the one of its own start.
-/

namespace Dandori.HttpOutboxPublisher

inductive Phase
  | refused
  | checked (startEpoch : Int)
  | sent (startEpoch : Int)
  | done
  deriving DecidableEq

/-- Calls are numbered in the order of their checks; `clock` is the last time that was read. -/
structure Overlap where
  breaker : Breaker
  clock : Int
  calls : List Phase
  opened : List Int
  deriving DecidableEq

inductive OverlapAction
  | check (nowEpoch : Int)
  | send (call : ℕ)
  | record (call : ℕ) (answer : Reply)

namespace Overlap

def start (clock : Int) : Overlap := ⟨Breaker.new, clock, [], []⟩

section Steps

variable (settings : Settings)

def opens (breaker : Breaker) (answer : Reply) : Bool :=
  answer.isTransient && settings.failureThreshold ≠ 0 &&
    settings.failureThreshold ≤ breaker.consecutiveFailures + 1

def step (s : Overlap) : OverlapAction → Option Overlap
  | .check nowEpoch =>
      if nowEpoch < s.clock then none
      else some { s with
        clock := nowEpoch
        calls := s.calls ++ [if s.breaker.open nowEpoch then .refused else .checked nowEpoch] }
  | .send call =>
      match s.calls[call]? with
      | some (.checked startEpoch) => some { s with calls := s.calls.set call (.sent startEpoch) }
      | _ => none
  | .record call answer =>
      match s.calls[call]? with
      | some (.sent startEpoch) => some { s with
          breaker := (settle settings startEpoch answer s.breaker).2
          calls := s.calls.set call .done
          opened :=
            if opens settings s.breaker answer then
              saturatingAddI64 startEpoch settings.cooldownSeconds :: s.opened
            else s.opened }
      | _ => none

/-- A check before a deadline that has been set refuses its call. -/
def StaysOpen (s : Overlap) : Prop :=
  ∀ nowEpoch t, step settings s (.check nowEpoch) = some t →
    (∃ deadline ∈ s.opened, nowEpoch < deadline) → t.calls = s.calls ++ [.refused]

/-- No deadline ahead of the clock is replaced by an earlier one. -/
def Undisturbed (s : Overlap) : OverlapAction → Prop
  | .record call answer =>
      ∀ startEpoch, s.calls[call]? = some (.sent startEpoch) →
        ∀ deadline ∈ s.opened, s.clock < deadline →
          if answer.isTransient then
            opens settings s.breaker answer = true →
              deadline ≤ saturatingAddI64 startEpoch settings.cooldownSeconds
          else deadline ≤ 0
  | _ => True

end Steps

section Spec

variable {settings : Settings} {s t : Overlap}

theorem step_check_eq_some {nowEpoch : Int} :
    step settings s (.check nowEpoch) = some t ↔ s.clock ≤ nowEpoch ∧ t = { s with
      clock := nowEpoch
      calls := s.calls ++ [if s.breaker.open nowEpoch then .refused else .checked nowEpoch] } := by
  simp only [step]
  by_cases hlt : nowEpoch < s.clock
  · rw [if_pos hlt]
    constructor
    · intro h
      cases h
    · intro h
      omega
  · rw [if_neg hlt, Option.some.injEq]
    exact ⟨fun h => ⟨by omega, h.symm⟩, fun h => h.2.symm⟩

theorem step_send_eq_some {call : ℕ} (h : step settings s (.send call) = some t) :
    t.breaker = s.breaker ∧ t.clock = s.clock ∧ t.opened = s.opened := by
  simp only [step] at h
  split at h
  · cases h
    exact ⟨rfl, rfl, rfl⟩
  · cases h

theorem step_record_eq_some {call : ℕ} {answer : Reply} :
    step settings s (.record call answer) = some t ↔
      ∃ startEpoch, s.calls[call]? = some (.sent startEpoch) ∧ t = { s with
        breaker := (settle settings startEpoch answer s.breaker).2
        calls := s.calls.set call .done
        opened :=
          if opens settings s.breaker answer then
            saturatingAddI64 startEpoch settings.cooldownSeconds :: s.opened
          else s.opened } := by
  simp only [step]
  constructor
  · intro h
    split at h
    · exact ⟨_, ‹_›, (Option.some.inj h).symm⟩
    · cases h
  · intro ⟨startEpoch, hcall, ht⟩
    rw [hcall, ht]

theorem staysOpen_iff : StaysOpen settings s ↔
    ∀ deadline ∈ s.opened, s.clock < deadline → deadline ≤ s.breaker.circuitOpenUntilEpoch := by
  constructor
  · intro h deadline hmem hclock
    -- The last second before the deadline is the one that matters.
    have hrefused := h (deadline - 1) _ (step_check_eq_some.mpr ⟨by omega, rfl⟩)
      ⟨deadline, hmem, by omega⟩
    cases hopen : s.breaker.open (deadline - 1) with
    | true =>
        have hlt := of_decide_eq_true hopen
        omega
    | false =>
        simp only [hopen, Bool.false_eq_true, if_false] at hrefused
        cases List.append_cancel_left hrefused
  · intro h nowEpoch t ht ⟨deadline, hmem, hlt⟩
    obtain ⟨hclock, rfl⟩ := step_check_eq_some.mp ht
    have hle := h deadline hmem (by omega)
    have hopen : s.breaker.open nowEpoch = true := decide_eq_true (by omega)
    simp only [hopen, if_true]

theorem staysOpen_start (clock : Int) : StaysOpen settings (start clock) := by
  rw [staysOpen_iff]
  intro deadline hmem
  cases hmem

theorem deadline_of_transient (settings : Settings) {answer : Reply}
    (ht : answer.isTransient = true) (startEpoch : Int) (breaker : Breaker) :
    (settle settings startEpoch answer breaker).2.circuitOpenUntilEpoch =
      if opens settings breaker answer then saturatingAddI64 startEpoch settings.cooldownSeconds
      else breaker.circuitOpenUntilEpoch := by
  rw [settle_snd, if_pos ht]
  unfold Breaker.recordTransientFailure opens
  by_cases hzero : settings.failureThreshold = 0
  · simp [hzero]
  · by_cases hreach : settings.failureThreshold ≤ breaker.consecutiveFailures + 1
    · simp [hzero, hreach, ht]
    · simp [hzero, hreach]

theorem covers_iff {opened : List Int} {clock newest bound : Int} {p : Prop} [Decidable p]
    (hp : p → newest = bound) :
    (∀ deadline ∈ (if p then newest :: opened else opened), clock < deadline → deadline ≤ bound) ↔
      ∀ deadline ∈ opened, clock < deadline → deadline ≤ bound := by
  by_cases h : p
  · rw [if_pos h]
    constructor
    · intro hall deadline hmem
      exact hall deadline (List.mem_cons_of_mem _ hmem)
    · intro hall deadline hmem hlt
      rcases List.mem_cons.mp hmem with rfl | hmem
      · rw [hp h]
      · exact hall deadline hmem hlt
  · rw [if_neg h]

theorem staysOpen_record_iff {call : ℕ} {answer : Reply} (hs : StaysOpen settings s)
    (h : step settings s (.record call answer) = some t) :
    StaysOpen settings t ↔ Undisturbed settings s (.record call answer) := by
  obtain ⟨startEpoch, hcall, rfl⟩ := step_record_eq_some.mp h
  have hstart : Undisturbed settings s (.record call answer) ↔
      ∀ deadline ∈ s.opened, s.clock < deadline →
        if answer.isTransient then
          opens settings s.breaker answer = true →
            deadline ≤ saturatingAddI64 startEpoch settings.cooldownSeconds
        else deadline ≤ 0 := by
    constructor
    · intro hundisturbed
      exact hundisturbed startEpoch hcall
    · intro hall other hother
      rw [hcall] at hother
      cases hother
      exact hall
  rw [staysOpen_iff] at hs
  rw [staysOpen_iff, hstart]
  cases ht : answer.isTransient with
  | true =>
      have hdeadline := deadline_of_transient settings ht startEpoch s.breaker
      dsimp only
      rw [covers_iff (fun hopens => by rw [hdeadline, if_pos hopens]), hdeadline]
      simp only [if_true]
      cases hopens : opens settings s.breaker answer with
      | true => simp only [if_true, true_implies]
      | false =>
          simp only [Bool.false_eq_true, if_false, false_implies, implies_true, iff_true]
          exact hs
  | false =>
      have hopens : opens settings s.breaker answer = false := by
        rw [opens, ht]
        rfl
      have hbreaker : (settle settings startEpoch answer s.breaker).2 = ⟨0, 0⟩ := by
        rw [settle_snd, ht]
        rfl
      simp only [hopens, hbreaker, Bool.false_eq_true, if_false]

/-- A step keeps the breaker open as long as it should exactly when it replaces no deadline that is
ahead by an earlier one. -/
theorem staysOpen_step_iff (s : Overlap) (a : OverlapAction) (t : Overlap) (hs : StaysOpen settings s)
    (h : step settings s a = some t) : StaysOpen settings t ↔ Undisturbed settings s a := by
  cases a with
  | check nowEpoch =>
      obtain ⟨hclock, rfl⟩ := step_check_eq_some.mp h
      refine iff_of_true ?_ trivial
      rw [staysOpen_iff] at hs ⊢
      intro deadline hmem hlt
      have hahead : s.clock < deadline := by
        dsimp only at hlt
        omega
      exact hs deadline hmem hahead
  | send call =>
      obtain ⟨hbreaker, hclock, hopened⟩ := step_send_eq_some h
      refine iff_of_true ?_ trivial
      rw [staysOpen_iff] at hs ⊢
      rw [hbreaker, hclock, hopened]
      exact hs
  | record call answer => exact staysOpen_record_iff hs h

/-- In every state of a run the breaker stays open until each deadline that was set exactly when every
step of the run leaves the deadlines ahead alone. -/
theorem staysOpen_iff_undisturbed (settings : Settings) (clock : Int) (actions : List OverlapAction)
    (s : Overlap) (h : Run (step settings) (start clock) actions s) :
    (∀ before t, before <+: actions → Run (step settings) (start clock) before t →
        StaysOpen settings t) ↔
      Run.Along (step settings) (Undisturbed settings) (start clock) actions :=
  (Run.along_iff_of_run staysOpen_step_iff h (staysOpen_start clock)).symm

/-- A call whose steps are not interrupted is a call of the publisher. -/
theorem run_alone (codec : Codec) (settings : Settings) (s : Overlap) (call : Call)
    (hclock : s.clock ≤ call.remote.nowEpoch) :
    ∃ actions t, Run (step settings) s (.check call.remote.nowEpoch :: actions) t ∧
      t.breaker = ((publisher codec settings call.remote).publishIssueCreated call.message call.event
        s.breaker).2 := by
  cases hopen : s.breaker.open call.remote.nowEpoch with
  | true =>
      refine ⟨[], _, .single (step_check_eq_some.mpr ⟨hclock, rfl⟩), ?_⟩
      simp only [publisher, hopen, if_true]
  | false =>
      let n := s.calls.length
      let checked : Overlap := { s with
        clock := call.remote.nowEpoch
        calls := s.calls ++ [.checked call.remote.nowEpoch] }
      have hcheck : step settings s (.check call.remote.nowEpoch) = some checked := by
        refine step_check_eq_some.mpr ⟨hclock, ?_⟩
        rw [hopen]
        rfl
      have hchecked : checked.calls[n]? = some (.checked call.remote.nowEpoch) :=
        List.getElem?_concat_length
      let sent : Overlap := { checked with
        calls := checked.calls.set n (.sent call.remote.nowEpoch) }
      have hsend : step settings checked (.send n) = some sent := by
        simp only [step, hchecked]
        rfl
      have hsent : sent.calls[n]? = some (.sent call.remote.nowEpoch) :=
        List.getElem?_set_self (List.getElem?_eq_some_iff.mp hchecked).1
      refine ⟨[.send n, .record n (Sequence.reply codec settings call)], _,
        .cons hcheck (.cons hsend (.single (step_record_eq_some.mpr ⟨_, hsent, rfl⟩))), ?_⟩
      simp only [publisher, hopen, Bool.false_eq_true, if_false]
      rfl

end Spec

/-! ## A late answer -/

def oneFailure : Settings := ⟨"http://localhost", 1, 30⟩

/-- Two calls start together. The failure of the first opens the breaker until 30, and the success of
the second closes it again. -/
def lateSuccess : List OverlapAction :=
  [.check 0, .check 0, .send 0, .send 1, .record 0 (.sendError "refused"),
    .record 1 (.response ⟨200, none⟩ none)]

/-- The call that started at 10 opens the breaker until 40, and the older failure takes it back to
30. -/
def lateFailure : List OverlapAction :=
  [.check 0, .check 10, .send 0, .send 1, .record 1 (.sendError "refused"),
    .record 0 (.sendError "refused")]

/-- A call that checks at 1, or at 35, reaches the network. -/
theorem lateAnswers_not_staysOpen :
    (∃ s, Run (step oneFailure) (start 0) lateSuccess s ∧ ¬StaysOpen oneFailure s) ∧
      ∃ s, Run (step oneFailure) (start 0) lateFailure s ∧ ¬StaysOpen oneFailure s := by
  refine ⟨⟨_, Run.of_foldlM rfl, fun h => ?_⟩, ⟨_, Run.of_foldlM rfl, fun h => ?_⟩⟩
  · have hrefused := h 1 _ rfl ⟨30, by decide, by decide⟩
    revert hrefused
    decide
  · have hrefused := h 35 _ rfl ⟨40, by decide, by decide⟩
    revert hrefused
    decide

def probedCalls : List OverlapAction :=
  [.check 0, .send 0, .record 0 (.sendError "refused"), .check 30, .send 1,
    .record 1 (.response ⟨200, none⟩ none)]

theorem probedCalls_undisturbed :
    Run.Along (step oneFailure) (Undisturbed oneFailure) (start 0) probedCalls := by
  have hfailure : Undisturbed oneFailure ⟨Breaker.new, 0, [.sent 0], []⟩
      (.record 0 (.sendError "refused")) := by
    intro startEpoch _ deadline hmem
    cases hmem
  have hsuccess : Undisturbed oneFailure ⟨⟨1, 30⟩, 30, [.done, .sent 30], [30]⟩
      (.record 1 (.response ⟨200, none⟩ none)) := by
    intro startEpoch _ deadline hmem hlt
    rw [List.mem_singleton.mp hmem] at hlt
    exact absurd hlt (by decide)
  exact .cons rfl trivial (.cons rfl trivial (.cons rfl hfailure (.cons rfl trivial (.cons rfl trivial
    (.cons rfl hsuccess trivial)))))

theorem staysOpen_iff_undisturbed_probedCalls :
    ∃ s, Run (step oneFailure) (start 0) probedCalls s ∧ s.opened = [30] ∧
      ∀ before t, before <+: probedCalls → Run (step oneFailure) (start 0) before t →
        StaysOpen oneFailure t := by
  have hrun : Run (step oneFailure) (start 0) probedCalls ⟨⟨0, 0⟩, 30, [.done, .done], [30]⟩ :=
    Run.of_foldlM rfl
  exact ⟨_, hrun, rfl, (staysOpen_iff_undisturbed oneFailure 0 probedCalls _ hrun).mpr
    probedCalls_undisturbed⟩

end Overlap
end Dandori.HttpOutboxPublisher
