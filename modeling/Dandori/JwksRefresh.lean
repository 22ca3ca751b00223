import Dandori.AllowedAlgorithms

/-!
# The refresh task

The task sleeps, loads the JWKS source and replaces the key set by a document that parses. After a
failure the delay doubles up to a bound, after a success it returns to the interval. Delays are counted
in nanoseconds, the resolution of `Duration`; no configured value comes near the saturation of its
arithmetic.
-/

namespace Dandori.Authentication

/-- `Duration::MAX`: `u64::MAX` seconds and the nanoseconds before the next one. -/
def durationMax : ℕ := (2 ^ 64 - 1) * 10 ^ 9 + 999999999

def fromMillis (millis : ℕ) : ℕ := millis * 10 ^ 6

def saturatingMul (duration factor : ℕ) : ℕ := min (duration * factor) durationMax

namespace JwksRefreshConfig

def interval (config : JwksRefreshConfig) : ℕ := fromMillis (max config.intervalMillis 1)

def maxBackoff (config : JwksRefreshConfig) : ℕ :=
  fromMillis (max config.maxBackoffMillis (max config.intervalMillis 1))

/-- The fields are `u64` values. -/
def IsU64 (config : JwksRefreshConfig) : Prop :=
  config.intervalMillis < 2 ^ 64 ∧ config.timeoutMillis < 2 ^ 64 ∧ config.maxBackoffMillis < 2 ^ 64

end JwksRefreshConfig

/-- The state of the task before a sleep. -/
structure RefreshTask (Key : Type) where
  authenticator : JwtAuthenticator Key
  nextDelay : ℕ

section Task

variable {Params Key : Type} (jwks : JwksLibrary Params Key) (config : JwksRefreshConfig)

def startRefreshTask (authenticator : JwtAuthenticator Key) : RefreshTask Key :=
  ⟨authenticator, config.interval⟩

def backOff (delay : ℕ) : ℕ := min (saturatingMul delay 2) config.maxBackoff

/-- One round of the loop, given how the load ends. -/
def refreshRound (task : RefreshTask Key) (event : Refresh) : RefreshTask Key where
  authenticator := refresh jwks task.authenticator event
  nextDelay :=
    match event with
    | .timedOut => backOff config task.nextDelay
    | .failed _ => backOff config task.nextDelay
    | .loaded raw =>
        match parseJwks jwks raw with
        | .ok _ => config.interval
        | .error _ => backOff config task.nextDelay

abbrev RefreshRounds : RefreshTask Key → List Refresh → RefreshTask Key → Prop :=
  Run (fun task event => some (refreshRound jwks config task event))

/-- The key set of a valid document. -/
def validKeyset : Refresh → Option (JwkKeyset Key)
  | .loaded raw => (parseJwks jwks raw).toOption
  | .failed _ => none
  | .timedOut => none

/-- The key set of the most recent valid document of the rounds. -/
def lastValid (events : List Refresh) : Option (JwkKeyset Key) :=
  events.reverse.findSome? (validKeyset jwks)

/-- The failures since the last success. -/
def consecutiveFailures (events : List Refresh) : ℕ :=
  (events.reverse.takeWhile (fun event => (validKeyset jwks event).isNone)).length

variable {jwks config}

/-! ## One round -/

theorem refresh_keyset (jwks : JwksLibrary Params Key) (authenticator : JwtAuthenticator Key)
    (event : Refresh) :
    (refresh jwks authenticator event).keyset =
      (validKeyset jwks event).getD authenticator.keyset := by
  cases event with
  | loaded raw =>
      simp only [refresh, validKeyset]
      cases parseJwks jwks raw <;> rfl
  | failed error => rfl
  | timedOut => rfl

theorem refreshRound_nextDelay (task : RefreshTask Key) (event : Refresh) :
    (refreshRound jwks config task event).nextDelay =
      if (validKeyset jwks event).isNone then backOff config task.nextDelay
      else config.interval := by
  cases event with
  | loaded raw =>
      have hparsed : (∃ keyset, parseJwks jwks raw = .ok keyset) ∨
          ∃ e, parseJwks jwks raw = .error e := by
        cases parseJwks jwks raw with
        | ok keyset => exact Or.inl ⟨keyset, rfl⟩
        | error e => exact Or.inr ⟨e, rfl⟩
      rcases hparsed with ⟨keyset, h⟩ | ⟨e, h⟩
      · simp only [refreshRound, validKeyset, h]
        rfl
      · simp only [refreshRound, validKeyset, h]
        rfl
  | failed error => rfl
  | timedOut => rfl

theorem lastValid_append (events : List Refresh) (event : Refresh) :
    lastValid jwks (events ++ [event]) = (validKeyset jwks event).or (lastValid jwks events) := by
  rw [lastValid, List.reverse_append]
  cases h : validKeyset jwks event with
  | none => simp [lastValid, h]
  | some keyset => simp [h]

theorem consecutiveFailures_append (events : List Refresh) (event : Refresh) :
    consecutiveFailures jwks (events ++ [event]) =
      if (validKeyset jwks event).isNone then consecutiveFailures jwks events + 1 else 0 := by
  rw [consecutiveFailures, List.reverse_append]
  cases h : (validKeyset jwks event).isNone with
  | true => simp [consecutiveFailures, h]
  | false => simp [h]

theorem interval_pos : 0 < config.interval := by
  have hmax : 1 ≤ max config.intervalMillis 1 := Nat.le_max_right _ _
  rw [JwksRefreshConfig.interval, fromMillis]
  omega

theorem interval_le_maxBackoff : config.interval ≤ config.maxBackoff :=
  Nat.mul_le_mul_right _ (Nat.le_max_right _ _)

/-- Twice the bound is far from the saturation of `Duration`. -/
theorem maxBackoff_mul_two_le (hconfig : config.IsU64) : config.maxBackoff * 2 ≤ durationMax := by
  obtain ⟨hinterval, _, hmax⟩ := hconfig
  have hmillis : max config.maxBackoffMillis (max config.intervalMillis 1) ≤ 2 ^ 64 := by omega
  rw [JwksRefreshConfig.maxBackoff, fromMillis, durationMax]
  omega

/-- The delay after `k` failures in a row. -/
def delayAfter (config : JwksRefreshConfig) (k : ℕ) : ℕ :=
  min (config.interval * 2 ^ k) config.maxBackoff

theorem backOff_delayAfter (hconfig : config.IsU64) (k : ℕ) :
    backOff config (delayAfter config k) = delayAfter config (k + 1) := by
  have hbound := maxBackoff_mul_two_le hconfig
  have hdelay : delayAfter config k ≤ config.maxBackoff := Nat.min_le_right _ _
  have hsaturating : saturatingMul (delayAfter config k) 2 = delayAfter config k * 2 :=
    Nat.min_eq_left (by omega)
  rw [backOff, hsaturating, delayAfter, delayAfter, Nat.pow_succ, ← Nat.mul_assoc]
  omega

/-! ## All rounds -/

/-- What a task holds after the rounds `events`. -/
structure Follows (jwks : JwksLibrary Params Key) (config : JwksRefreshConfig)
    (authenticator : JwtAuthenticator Key) (events : List Refresh) (task : RefreshTask Key) : Prop where
  keyset : task.authenticator.keyset = (lastValid jwks events).getD authenticator.keyset
  nextDelay : task.nextDelay = delayAfter config (consecutiveFailures jwks events)

variable {authenticator : JwtAuthenticator Key}

theorem follows_start :
    Follows jwks config authenticator [] (startRefreshTask config authenticator) where
  keyset := rfl
  nextDelay := by
    have hle : config.interval ≤ config.maxBackoff := interval_le_maxBackoff
    have hzero : consecutiveFailures jwks [] = 0 := rfl
    rw [startRefreshTask, hzero, delayAfter, Nat.pow_zero, Nat.mul_one, Nat.min_eq_left hle]

theorem follows_round (hconfig : config.IsU64) {events : List Refresh} {task : RefreshTask Key}
    (h : Follows jwks config authenticator events task) (event : Refresh) :
    Follows jwks config authenticator (events ++ [event]) (refreshRound jwks config task event) where
  keyset := by
    have hkeyset : (refreshRound jwks config task event).authenticator.keyset =
        (validKeyset jwks event).getD task.authenticator.keyset :=
      refresh_keyset jwks task.authenticator event
    rw [hkeyset, lastValid_append, h.keyset]
    cases validKeyset jwks event <;> rfl
  nextDelay := by
    rw [refreshRound_nextDelay, consecutiveFailures_append, h.nextDelay]
    by_cases hvalid : (validKeyset jwks event).isNone = true
    · rw [if_pos hvalid, if_pos hvalid, backOff_delayAfter hconfig]
    · have hle : config.interval ≤ config.maxBackoff := interval_le_maxBackoff
      rw [if_neg hvalid, if_neg hvalid, delayAfter, Nat.pow_zero, Nat.mul_one, Nat.min_eq_left hle]

/-- The task after some rounds: it has the key set of the most recent valid document and the delay of
the failures since then, and a failing round would leave the key set alone. -/
structure KeepsLastGood (jwks : JwksLibrary Params Key) (config : JwksRefreshConfig)
    (authenticator : JwtAuthenticator Key) (events : List Refresh) (task : RefreshTask Key) : Prop where
  keyset : task.authenticator.keyset = (lastValid jwks events).getD authenticator.keyset
  failure : ∀ event, validKeyset jwks event = none →
    (refreshRound jwks config task event).authenticator.keyset = task.authenticator.keyset
  delay : task.nextDelay = min (config.interval * 2 ^ consecutiveFailures jwks events)
    (max (fromMillis config.maxBackoffMillis) config.interval)
  delay_pos : 0 < task.nextDelay
  interval_ge : fromMillis 1 ≤ config.interval
  delay_ge : config.interval ≤ task.nextDelay
  delay_le : task.nextDelay ≤ max (fromMillis config.maxBackoffMillis) config.interval
  delay_success : consecutiveFailures jwks events = 0 → task.nextDelay = config.interval

theorem maxBackoff_eq_max :
    config.maxBackoff = max (fromMillis config.maxBackoffMillis) config.interval := by
  rw [JwksRefreshConfig.maxBackoff, JwksRefreshConfig.interval]
  exact Nat.mul_max_mul_right _ _ _ |>.symm

theorem interval_le_delayAfter (config : JwksRefreshConfig) (k : ℕ) :
    config.interval ≤ delayAfter config k := by
  have hpow : config.interval * 1 ≤ config.interval * 2 ^ k :=
    Nat.mul_le_mul_left _ (Nat.one_le_two_pow)
  exact Nat.le_min.mpr ⟨by omega, interval_le_maxBackoff⟩

theorem keepsLastGood_of_rounds (jwks : JwksLibrary Params Key) (config : JwksRefreshConfig)
    (hconfig : config.IsU64) (authenticator : JwtAuthenticator Key) (events : List Refresh)
    (task : RefreshTask Key)
    (hrun : RefreshRounds jwks config (startRefreshTask config authenticator) events task) :
    KeepsLastGood jwks config authenticator events task := by
  have hfollows : Follows jwks config authenticator events task := by
    refine Run.history (fun pre task event next h hnext => ?_) hrun follows_start
    cases hnext
    exact follows_round hconfig h event
  have hdelay := hfollows.nextDelay
  have hge := interval_le_delayAfter config (consecutiveFailures jwks events)
  have hpos : 0 < config.interval := interval_pos
  rw [← hdelay] at hge
  refine ⟨hfollows.keyset, fun event hevent => ?_, ?_, by omega,
    Nat.mul_le_mul_right _ (Nat.le_max_right _ _), hge, ?_, fun hzero => ?_⟩
  · have hkeyset := refresh_keyset jwks task.authenticator event
    rw [hevent] at hkeyset
    exact hkeyset
  · rw [hdelay, delayAfter, maxBackoff_eq_max]
  · rw [hdelay, ← maxBackoff_eq_max]
    exact Nat.min_le_right _ _
  · have hle : config.interval ≤ config.maxBackoff := interval_le_maxBackoff
    rw [hdelay, hzero, delayAfter, Nat.pow_zero, Nat.mul_one, Nat.min_eq_left hle]

end Task

/-! ## Four rounds -/

def rotatedRounds : List Refresh :=
  [.timedOut, .loaded "oct", .failed (.loadJwks "refused"), .timedOut]

def shortRefresh : JwksRefreshConfig := ⟨100, 50, 350⟩

/-- Two failures after a success: 350 ms, less than four times the interval. -/
theorem keepsLastGood_of_rotatedRounds :
    ∃ task, RefreshRounds rotatingLibrary shortRefresh
        (startRefreshTask shortRefresh unboundAuthenticator) rotatedRounds task ∧
      KeepsLastGood rotatingLibrary shortRefresh unboundAuthenticator rotatedRounds task ∧
      task.nextDelay = fromMillis 350 := by
  have hconfig : shortRefresh.IsU64 := by
    unfold JwksRefreshConfig.IsU64
    decide
  have hrun : RefreshRounds rotatingLibrary shortRefresh
      (startRefreshTask shortRefresh unboundAuthenticator) rotatedRounds
      ⟨{ unboundAuthenticator with keyset := JwkKeyset.empty.insert "key" ⟨(), none⟩ },
        fromMillis 350⟩ := Run.of_foldlM rfl
  exact ⟨_, hrun, keepsLastGood_of_rounds rotatingLibrary shortRefresh hconfig unboundAuthenticator
    rotatedRounds _ hrun, rfl⟩

end Dandori.Authentication
