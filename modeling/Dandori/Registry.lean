import Dandori.Publisher

/-!
# The event registry

Handlers are registered under their event type and schema version. A message is routed by the
`schema_version` of its payload, 1 when there is none, to the handler of exactly that version or
else to the newest older one.
-/

namespace Dandori

open OutboxRepository

structure OutboxHandler (m : Type → Type) where
  eventType : String
  schemaVersion : UInt32
  handle : OutboxPublisher m → OutboxMessage → m (Except PublishError Unit)

structure OutboxRegistry (m : Type → Type) where
  byKey : String × UInt32 → Option (OutboxHandler m)
  byType : String → Option (List (UInt32 × OutboxHandler m))

namespace OutboxRegistry

variable {m : Type → Type}

def new : OutboxRegistry m := ⟨fun _ => none, fun _ => none⟩

def register (registry : OutboxRegistry m) (handler : OutboxHandler m) : OutboxRegistry m where
  byKey key :=
    if key = (handler.eventType, handler.schemaVersion) then some handler else registry.byKey key
  byType eventType :=
    if eventType = handler.eventType then
      some ((((registry.byType eventType).getD []) ++ [(handler.schemaVersion, handler)]).insertionSort
        (fun a b => a.1 ≤ b.1))
    else registry.byType eventType

def resolve (registry : OutboxRegistry m) (eventType : String) (schemaVersion : UInt32) :
    Option (OutboxHandler m) :=
  match registry.byKey (eventType, schemaVersion) with
  | some exact => some exact
  | none => do
      let versions ← registry.byType eventType
      let (_, handler) ← versions.reverse.find? (fun entry => entry.1 ≤ schemaVersion)
      return handler

/-- The integer field `schema_version` of the payload, when it fits `u32`. -/
def resolveSchemaVersion (message : OutboxMessage) : Option UInt32 := do
  let v ← message.payload.get "schema_version"
  let n ← v.asU64
  if n < 2 ^ 32 then some (UInt32.ofNat n) else none

def dispatch [Monad m] (registry : OutboxRegistry m) (publisher : OutboxPublisher m)
    (message : OutboxMessage) : m (Except PublishError Unit) :=
  let version := (resolveSchemaVersion message).getD 1
  match registry.resolve message.eventType version with
  | some handler => handler.handle publisher message
  | none => pure (.error ⟨.unsupported,
      s!"no handler registered for event_type={message.eventType} schema_version={version.toNat}"⟩)

end OutboxRegistry

def issueCreatedV1Handler {m : Type → Type} [Monad m] (codec : Codec) : OutboxHandler m where
  eventType := EventType.issueCreatedV1.asStr
  schemaVersion := 1
  handle publisher message :=
    match codec.eventFromValue message.payload with
    | .error error => pure (.error ⟨.serialization,
        s!"failed to deserialize issue.created payload: {error}"⟩)
    | .ok event => publisher.publishIssueCreated message event

def defaultRegistry {m : Type → Type} [Monad m] (codec : Codec) : OutboxRegistry m :=
  OutboxRegistry.new.register (issueCreatedV1Handler codec)

end Dandori
