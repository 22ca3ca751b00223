import Dandori.Publisher

/-!
# The circuit breaker, one call after another

The breaker holds a counter and a deadline. Over calls that do not overlap they are determined by the
answers of the remote side: the counter is the number of transient failures since the last other answer,
and once it has reached the threshold the deadline belongs to the last of them. So a call is refused
exactly when the specification over these answers says so.
-/

namespace Dandori.HttpOutboxPublisher

open OutboxRepository

/-- A network error or a 5xx status. -/
def Reply.isTransient : Reply → Bool
  | .sendError _ => true
  | .response status _ => status.isServerError

theorem isSuccess_false_of_isServerError {status : Status} (h : status.isServerError = true) :
    status.isSuccess = false := by
  simp only [Status.isServerError, Bool.and_eq_true, decide_eq_true_eq] at h
  simp only [Status.isSuccess, Bool.and_eq_false_iff, decide_eq_false_iff_not]
  omega

/-- A transient failure is counted, any other answer resets the breaker. -/
theorem settle_snd (settings : Settings) (nowEpoch : Int) (reply : Reply) (breaker : Breaker) :
    (settle settings nowEpoch reply breaker).2 =
      if reply.isTransient then breaker.recordTransientFailure settings nowEpoch
      else breaker.recordSuccess := by
  cases reply with
  | sendError error => rfl
  | response status body =>
      unfold settle Reply.isTransient
      by_cases hserver : status.isServerError = true
      · have hsuccess := isSuccess_false_of_isServerError hserver
        simp only [hsuccess, hserver, Bool.false_eq_true, if_false, if_true]
      · by_cases hsuccess : status.isSuccess = true
        · simp only [hsuccess, if_true, hserver, Bool.false_eq_true, if_false]
        · simp only [hsuccess, hserver, Bool.false_eq_true, if_false]

structure Call where
  message : OutboxMessage
  event : IssueCreatedEventV1
  remote : Remote

/-- The same call with another remote side. -/
def Call.answered (call : Call) (answer : String → Value → Reply) : Call :=
  { call with remote := ⟨call.remote.nowEpoch, answer⟩ }

/-- The breaker between calls, with the answers of the remote side and the start times of their calls,
newest first. -/
structure Sequence where
  breaker : Breaker
  answers : List (Int × Reply)

namespace Sequence

variable (codec : Codec) (settings : Settings)

def start : Sequence := ⟨Breaker.new, []⟩

def result (s : Sequence) (call : Call) : Except PublishError Unit × Breaker :=
  (publisher codec settings call.remote).publishIssueCreated call.message call.event s.breaker

def reply (call : Call) : Reply :=
  call.remote.reply settings.endpoint (requestBody codec call.message call.event)

/-- A call reaches the remote side when the breaker is closed at its start. -/
def serve (s : Sequence) (call : Call) : Sequence where
  breaker := (s.result codec settings call).2
  answers :=
    if s.breaker.open call.remote.nowEpoch then s.answers
    else (call.remote.nowEpoch, reply codec settings call) :: s.answers

def serveAll (calls : List Call) : Sequence := calls.foldl (serve codec settings) start

/-- The transient failures since the last other answer, newest first. -/
def failures (s : Sequence) : List (Int × Reply) :=
  s.answers.takeWhile (fun answer => answer.2.isTransient)

/-- A threshold is set, that many failures stand since the last other answer, and the cooldown after
the start of the last of them is not over. -/
def RefusedAt (s : Sequence) (nowEpoch : Int) : Prop :=
  1 ≤ settings.failureThreshold ∧ settings.failureThreshold.toNat ≤ s.failures.length ∧
    ∃ last rest, s.failures = last :: rest ∧
      nowEpoch < saturatingAddI64 last.1 settings.cooldownSeconds

/-- The call ends with the error of an open breaker whatever the remote side would answer, and
changes nothing. -/
def ShortCircuited (s : Sequence) (call : Call) : Prop :=
  (∀ answer, s.result codec settings (call.answered answer) =
    (.error ⟨.transient, "circuit breaker open; skipping remote call"⟩, s.breaker)) ∧
  s.serve codec settings call = s

/-- The deadline that belongs to a history of failures. -/
def deadline : List (Int × Reply) → Int
  | [] => 0
  | last :: rest =>
      if settings.failureThreshold.toNat ≤ (last :: rest).length then
        saturatingAddI64 last.1 settings.cooldownSeconds
      else 0

/-- The counter counts the failures, and while it has not wrapped the deadline is theirs. -/
structure Tracks (s : Sequence) : Prop where
  counter : settings.failureThreshold ≠ 0 →
    s.breaker.consecutiveFailures = UInt32.ofNat s.failures.length
  deadline : settings.failureThreshold ≠ 0 → s.failures.length < 2 ^ 32 →
    s.breaker.circuitOpenUntilEpoch = deadline settings s.failures
  disabled : settings.failureThreshold = 0 → s.breaker.circuitOpenUntilEpoch = 0

section Calls

variable {codec : Codec} {settings : Settings} {s : Sequence} {call : Call}

theorem result_of_open (h : s.breaker.open call.remote.nowEpoch = true) :
    s.result codec settings call =
      (.error ⟨.transient, "circuit breaker open; skipping remote call"⟩, s.breaker) := by
  simp only [result, publisher, h, if_true]

theorem result_of_closed (h : s.breaker.open call.remote.nowEpoch = false) :
    s.result codec settings call =
      settle settings call.remote.nowEpoch (reply codec settings call) s.breaker := by
  simp only [result, publisher, reply, h, Bool.false_eq_true, if_false]

theorem serve_of_open (h : s.breaker.open call.remote.nowEpoch = true) :
    s.serve codec settings call = s := by
  unfold serve
  rw [result_of_open h, if_pos h]

theorem serve_of_closed (h : s.breaker.open call.remote.nowEpoch = false) :
    s.serve codec settings call =
      ⟨(settle settings call.remote.nowEpoch (reply codec settings call) s.breaker).2,
        (call.remote.nowEpoch, reply codec settings call) :: s.answers⟩ := by
  unfold serve
  rw [result_of_closed h, h]
  rfl

theorem failures_cons (breaker : Breaker) (nowEpoch : Int) (answer : Reply) (s : Sequence) :
    failures ⟨breaker, (nowEpoch, answer) :: s.answers⟩ =
      if answer.isTransient then (nowEpoch, answer) :: s.failures else [] := by
  rw [failures, List.takeWhile_cons]
  rfl

theorem deadline_of_lt {l : List (Int × Reply)} (h : l.length < settings.failureThreshold.toNat) :
    deadline settings l = 0 := by
  cases l with
  | nil => rfl
  | cons last rest => exact if_neg (Nat.not_le.mpr h)

theorem tracks_start : Tracks settings start where
  counter _ := rfl
  deadline _ _ := rfl
  disabled _ := rfl

/-- A transient failure at `nowEpoch` goes in front of the failures. -/
theorem tracks_failure (h : Tracks settings s) {nowEpoch : Int} {answer : Reply}
    (ht : answer.isTransient = true) :
    Tracks settings ⟨s.breaker.recordTransientFailure settings nowEpoch,
      (nowEpoch, answer) :: s.answers⟩ := by
  have hfailures : failures ⟨s.breaker.recordTransientFailure settings nowEpoch,
      (nowEpoch, answer) :: s.answers⟩ = (nowEpoch, answer) :: s.failures := by
    rw [failures_cons, if_pos ht]
  by_cases hzero : settings.failureThreshold = 0
  · have hbreaker : s.breaker.recordTransientFailure settings nowEpoch = s.breaker := if_pos hzero
    refine ⟨fun hne => absurd hzero hne, fun hne => absurd hzero hne, fun _ => ?_⟩
    rw [hbreaker]
    exact h.disabled hzero
  · have hnext : s.breaker.consecutiveFailures + 1 = UInt32.ofNat (s.failures.length + 1) := by
      rw [h.counter hzero, UInt32.ofNat_add]
      rfl
    have hcounter : (s.breaker.recordTransientFailure settings nowEpoch).consecutiveFailures =
        s.breaker.consecutiveFailures + 1 := by
      unfold Breaker.recordTransientFailure
      rw [if_neg hzero]
      by_cases hreach : settings.failureThreshold ≤ s.breaker.consecutiveFailures + 1
      · simp only [if_pos hreach]
      · simp only [if_neg hreach]
    refine ⟨fun _ => ?_, fun _ hlt => ?_, fun hz => absurd hz hzero⟩
    · rw [hfailures, hcounter, hnext, List.length_cons]
    · rw [hfailures] at hlt ⊢
      rw [List.length_cons] at hlt
      have hreach : settings.failureThreshold ≤ s.breaker.consecutiveFailures + 1 ↔
          settings.failureThreshold.toNat ≤ ((nowEpoch, answer) :: s.failures).length := by
        rw [hnext, UInt32.le_iff_toNat_le, UInt32.toNat_ofNat_of_lt' hlt, List.length_cons]
      have hold := h.deadline hzero (by omega)
      unfold Breaker.recordTransientFailure
      rw [if_neg hzero]
      by_cases hr : settings.failureThreshold ≤ s.breaker.consecutiveFailures + 1
      · simp only [if_pos hr, deadline, if_pos (hreach.mp hr)]
      · have hshort : ((nowEpoch, answer) :: s.failures).length < settings.failureThreshold.toNat :=
          Nat.not_le.mp (fun hle => hr (hreach.mpr hle))
        have hshort' : s.failures.length < settings.failureThreshold.toNat := by
          rw [List.length_cons] at hshort
          omega
        simp only [if_neg hr, hold]
        rw [deadline_of_lt hshort, deadline_of_lt hshort']

theorem tracks_reset {nowEpoch : Int} {answer : Reply} (ht : answer.isTransient = false) :
    Tracks settings ⟨s.breaker.recordSuccess, (nowEpoch, answer) :: s.answers⟩ := by
  have hfailures : failures ⟨s.breaker.recordSuccess, (nowEpoch, answer) :: s.answers⟩ = [] := by
    rw [failures_cons, if_neg (by rw [ht]; exact Bool.false_ne_true)]
  refine ⟨fun _ => ?_, fun _ _ => ?_, fun _ => rfl⟩
  · rw [hfailures]
    rfl
  · rw [hfailures]
    rfl

theorem tracks_serve (h : Tracks settings s) (call : Call) :
    Tracks settings (s.serve codec settings call) := by
  cases hopen : s.breaker.open call.remote.nowEpoch with
  | true => rw [serve_of_open hopen]; exact h
  | false =>
      rw [serve_of_closed hopen, settle_snd]
      cases ht : (reply codec settings call).isTransient with
      | true => exact tracks_failure h ht
      | false => exact tracks_reset ht

theorem tracks_serveAll (codec : Codec) (settings : Settings) (calls : List Call) :
    Tracks settings (serveAll codec settings calls) := by
  have hrun (s : Sequence) (h : Tracks settings s) :
      Tracks settings (calls.foldl (serve codec settings) s) := by
    induction calls generalizing s with
    | nil => exact h
    | cons call calls ih => exact ih _ (tracks_serve h call)
  exact hrun start tracks_start

theorem shortCircuited_iff_open :
    ShortCircuited codec settings s call ↔ s.breaker.open call.remote.nowEpoch = true := by
  constructor
  · intro h
    cases hopen : s.breaker.open call.remote.nowEpoch with
    | true => rfl
    | false =>
        -- An accepted request shows that the answer was waited for.
        have hanswer := h.1 (fun _ _ => .response ⟨200, none⟩ none)
        have hclosed : s.breaker.open
            (call.answered (fun _ _ => .response ⟨200, none⟩ none)).remote.nowEpoch = false := hopen
        rw [result_of_closed hclosed] at hanswer
        cases (Prod.mk.inj hanswer).1
  · intro hopen
    exact ⟨fun _ => result_of_open hopen, serve_of_open hopen⟩

theorem one_le_iff_ne_zero {v : UInt32} : 1 ≤ v ↔ v ≠ 0 := by
  rw [UInt32.le_iff_toNat_le, ne_eq, ← UInt32.toNat_inj]
  have hone : (1 : UInt32).toNat = 1 := rfl
  have hzero : (0 : UInt32).toNat = 0 := rfl
  omega

theorem open_iff_refusedAt (h : Tracks settings s) {nowEpoch : Int} (ht : 0 ≤ nowEpoch)
    (hk : s.failures.length < 2 ^ 32) :
    s.breaker.open nowEpoch = true ↔ RefusedAt settings s nowEpoch := by
  rw [Breaker.open, decide_eq_true_eq, RefusedAt, one_le_iff_ne_zero]
  by_cases hzero : settings.failureThreshold = 0
  · rw [h.disabled hzero]
    exact ⟨fun hlt => by omega, fun hrefused => absurd hzero hrefused.1⟩
  · rw [h.deadline hzero hk]
    cases hfailures : s.failures with
    | nil =>
        rw [deadline]
        constructor
        · intro hlt
          omega
        · intro ⟨_, _, last, rest, hcons, _⟩
          cases hcons
    | cons last rest =>
        rw [deadline]
        by_cases hreach : settings.failureThreshold.toNat ≤ (last :: rest).length
        · rw [if_pos hreach]
          constructor
          · intro hlt
            exact ⟨hzero, hreach, last, rest, rfl, hlt⟩
          · intro ⟨_, _, _, _, hcons, hlt⟩
            cases hcons
            exact hlt
        · rw [if_neg hreach]
          exact ⟨fun hlt => by omega, fun hrefused => absurd hrefused.2.1 hreach⟩

end Calls

/-- After any calls, a call is refused exactly when the answers so far and its time say so. -/
theorem shortCircuited_iff (codec : Codec) (settings : Settings) (calls : List Call) (call : Call)
    (ht : 0 ≤ call.remote.nowEpoch)
    (hk : (serveAll codec settings calls).failures.length < 2 ^ 32) :
    (ShortCircuited codec settings (serveAll codec settings calls) call ↔
      RefusedAt settings (serveAll codec settings calls) call.remote.nowEpoch) ∧
    (settings.failureThreshold = 0 →
      ¬ShortCircuited codec settings (serveAll codec settings calls) call) := by
  have htracks := tracks_serveAll codec settings calls
  have hiff : ShortCircuited codec settings (serveAll codec settings calls) call ↔
      RefusedAt settings (serveAll codec settings calls) call.remote.nowEpoch := by
    rw [shortCircuited_iff_open]
    exact open_iff_refusedAt htracks ht hk
  refine ⟨hiff, fun hzero hshort => ?_⟩
  exact one_le_iff_ne_zero.mp (hiff.mp hshort).1 hzero

def callAt (nowEpoch : Int) (answer : Reply) : Call where
  message := ⟨1, 2, 3, "issue.created.v1", "issue", 4, 5, .null, 0, 6, 7, 8⟩
  event := ⟨3, 4, 2, 9, none, 10, 0, "title", none, .medium⟩
  remote := ⟨nowEpoch, fun _ _ => answer⟩

/-- Two failures with a threshold of 2 and a cooldown of 30 s: refused at 49 s, served at 50 s. -/
theorem shortCircuited_iff_twoFailures :
    let settings : Settings := ⟨"http://localhost", 2, 30⟩
    let calls := [callAt 10 (.sendError "refused"), callAt 20 (.sendError "refused")]
    ShortCircuited Codec.unary settings (serveAll Codec.unary settings calls)
        (callAt 49 (.sendError "refused")) ∧
      ¬ShortCircuited Codec.unary settings (serveAll Codec.unary settings calls)
        (callAt 50 (.sendError "refused")) := by
  intro settings calls
  have hfailures : (serveAll Codec.unary settings calls).failures =
      [(20, .sendError "refused"), (10, .sendError "refused")] := rfl
  have hk : (serveAll Codec.unary settings calls).failures.length < 2 ^ 32 := by
    rw [hfailures]
    decide
  constructor
  · refine (shortCircuited_iff Codec.unary settings calls _ (by decide) hk).1.mpr
      ⟨by decide, ?_, _, _, hfailures, by decide⟩
    rw [hfailures]
    decide
  · intro h
    obtain ⟨_, _, last, rest, hcons, hlt⟩ :=
      (shortCircuited_iff Codec.unary settings calls _ (by decide) hk).1.mp h
    rw [hfailures] at hcons
    cases hcons
    revert hlt
    decide

end Sequence
end Dandori.HttpOutboxPublisher
