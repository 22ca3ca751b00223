import Dandori.OutboxRepository

/-!
# Publishers

A publisher is generic in the monad it acts in. The HTTP publisher acts on the state of its circuit
breaker; what the remote side answers and the time of the call are given with the call.
-/

namespace Dandori

open OutboxRepository

inductive PublishErrorKind
  | transient
  | permanent
  | unsupported
  | serialization
  deriving DecidableEq

namespace PublishErrorKind

def isTransient : PublishErrorKind → Bool
  | .transient => true
  | _ => false

/-- `{:?}`. -/
def debug : PublishErrorKind → String
  | .transient => "Transient"
  | .permanent => "Permanent"
  | .unsupported => "Unsupported"
  | .serialization => "Serialization"

end PublishErrorKind

structure PublishError where
  kind : PublishErrorKind
  message : String
  deriving DecidableEq

structure OutboxPublisher (m : Type → Type) where
  publishIssueCreated : OutboxMessage → IssueCreatedEventV1 → m (Except PublishError Unit)

def noopOutboxPublisher {m : Type → Type} [Monad m] : OutboxPublisher m :=
  ⟨fun _ _ => pure (.ok ())⟩

namespace HttpOutboxPublisher

structure Settings where
  endpoint : String
  failureThreshold : UInt32
  cooldownSeconds : Int

structure Breaker where
  consecutiveFailures : UInt32
  circuitOpenUntilEpoch : Int
  deriving DecidableEq

def Breaker.new : Breaker := ⟨0, 0⟩

def Breaker.open (breaker : Breaker) (nowEpoch : Int) : Bool :=
  nowEpoch < breaker.circuitOpenUntilEpoch

def Breaker.recordSuccess (_ : Breaker) : Breaker := ⟨0, 0⟩

def saturatingAddI64 (a b : Int) : Int := max (-2 ^ 63) (min (a + b) (2 ^ 63 - 1))

def Breaker.recordTransientFailure (settings : Settings) (breaker : Breaker) (nowEpoch : Int) :
    Breaker :=
  if settings.failureThreshold = 0 then breaker
  else
    let next := breaker.consecutiveFailures + 1
    if settings.failureThreshold ≤ next then
      ⟨next, saturatingAddI64 nowEpoch settings.cooldownSeconds⟩
    else { breaker with consecutiveFailures := next }

structure Status where
  code : ℕ
  reason : Option String

def Status.display (status : Status) : String :=
  let reason := status.reason.getD "<unknown status code>"
  s!"{status.code} {reason}"

def Status.isSuccess (status : Status) : Bool := 200 ≤ status.code && status.code < 300

def Status.isServerError (status : Status) : Bool := 500 ≤ status.code && status.code < 600

/-- What a request meets: no response, or a status with the body text as far as it could be read. -/
inductive Reply
  | sendError (error : String)
  | response (status : Status) (body : Option String)

def requestBody (codec : Codec) (message : OutboxMessage) (event : IssueCreatedEventV1) : Value :=
  .object [("event_type", .string EventType.issueCreatedV1.asStr),
    ("event_id", codec.uuid message.eventId), ("workspace_id", codec.uuid message.workspaceId),
    ("event", codec.eventToValue event)]

/-- The remote side at the time of a call: the epoch second read first and the answer to a request. -/
structure Remote where
  nowEpoch : Int
  reply : String → Value → Reply

def rejectedMessage (status : Status) (text : String) : String :=
  s!"http publish rejected with status {status.display}: {text}"

/-- Classification of a reply, with the effect on the breaker. -/
def settle (settings : Settings) (nowEpoch : Int) (reply : Reply) (breaker : Breaker) :
    Except PublishError Unit × Breaker :=
  match reply with
  | .sendError error =>
      (.error ⟨.transient, s!"http publish request failed: {error}"⟩,
        breaker.recordTransientFailure settings nowEpoch)
  | .response status body =>
      if status.isSuccess then (.ok (), breaker.recordSuccess)
      else
        let text := body.getD ""
        if status.isServerError then
          (.error ⟨.transient, rejectedMessage status text⟩,
            breaker.recordTransientFailure settings nowEpoch)
        else (.error ⟨.permanent, rejectedMessage status text⟩, breaker.recordSuccess)

def publisher (codec : Codec) (settings : Settings) (remote : Remote) :
    OutboxPublisher (StateM Breaker) where
  publishIssueCreated message event := fun breaker =>
    if breaker.open remote.nowEpoch then
      (.error ⟨.transient, "circuit breaker open; skipping remote call"⟩, breaker)
    else
      settle settings remote.nowEpoch
        (remote.reply settings.endpoint (requestBody codec message event)) breaker

end HttpOutboxPublisher

/-- `retry_backoff_with_jitter`; `sample` is the value drawn from `0..jitter_ms`. -/
def retryBackoffWithJitter (baseSeconds : Int) (jitterMs : ℕ) (sample : ℕ) : Duration :=
  let base := seconds (max baseSeconds 0)
  if jitterMs = 0 then base else base + (sample : Int) * 1000

end Dandori
