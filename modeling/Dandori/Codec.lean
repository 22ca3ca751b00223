import Dandori.Domain
import Mathlib.Tactic.SplitIfs

/-!
# JSON values of the stored payloads

`jsonb` columns hold JSON values. An event, an issue and the stored idempotency response are
encoded field by field in declaration order and decoded by field name; an `Option` field that is
missing or `null` decodes to `none`, and an object or an array of the exact length is accepted for
a struct, as the derived deserializers do. The texts of UUIDs and timestamps come from libraries,
so a `Codec` carries them with the round trips the code relies on.
-/

namespace Dandori

/-- `serde_json::Value`; a number that is not an integer keeps its literal. -/
inductive Value
  | null
  | bool (b : Bool)
  | number (n : Int)
  | float (literal : String)
  | string (s : String)
  | array (items : List Value)
  | object (fields : List (String × Value))

namespace Value

def get (v : Value) (name : String) : Option Value :=
  match v with
  | .object fields => fields.lookup name
  | _ => none

/-- The values of the named fields of a struct, or `none` when `v` cannot encode one. -/
def structFields (names : List String) : Value → Option (String → Option Value)
  | .object fields => some (fun name => fields.lookup name)
  | .array items =>
      if items.length = names.length then some (fun name => (names.zip items).lookup name) else none
  | _ => none

def asString : Value → Option String
  | .string s => some s
  | _ => none

def asI64 : Value → Option Int
  | .number n => if -2 ^ 63 ≤ n ∧ n < 2 ^ 63 then some n else none
  | _ => none

def asU64 : Value → Option ℕ
  | .number n => if 0 ≤ n ∧ n < 2 ^ 64 then some n.toNat else none
  | _ => none

@[simp] theorem asString_string (s : String) : (string s).asString = some s := rfl

theorem asI64_number {n : Int} (hn : -2 ^ 63 ≤ n ∧ n < 2 ^ 63) : (number n).asI64 = some n :=
  if_pos hn

/-- An optional field: absent and `null` are both `None`. -/
def optional {α : Type} (decode : Value → Option α) : Option Value → Option (Option α)
  | none => some none
  | some .null => some none
  | some v => (decode v).map some

def ofOption {α : Type} (encode : α → Value) : Option α → Value
  | none => .null
  | some a => encode a

/-- An optional field decodes to what was encoded when the encoding of a value is never `null`. -/
theorem optional_ofOption {α : Type} {encode : α → Value} {decode : Value → Option α}
    (h : ∀ a, decode (encode a) = some a) (hn : ∀ a, encode a ≠ .null) (a : Option α) :
    optional decode (some (ofOption encode a)) = some a := by
  cases a with
  | none => rfl
  | some a =>
      have hd : (decode (encode a)).map some = some (some a) := by rw [h]; rfl
      unfold ofOption optional
      cases he : encode a with
      | null => exact absurd he (hn a)
      | _ => simpa only [he] using hd

theorem ofOption_injective {α : Type} {encode : α → Value} (h : Function.Injective encode)
    (hnull : ∀ a, encode a ≠ .null) : Function.Injective (ofOption encode) := by
  intro a b hab
  cases a with
  | none =>
      cases b with
      | none => rfl
      | some b => exact absurd hab.symm (hnull b)
  | some a =>
      cases b with
      | none => exact absurd hab (hnull a)
      | some b => exact congrArg some (h hab)

end Value

def parseStateCategoryName : String → Option IssueStateCategory
  | "open" => some .open
  | "active" => some .active
  | "done" => some .done
  | "cancelled" => some .cancelled
  | _ => none

def parsePriorityName : String → Option IssuePriority
  | "low" => some .low
  | "medium" => some .medium
  | "high" => some .high
  | "urgent" => some .urgent
  | _ => none

@[simp] theorem parseStateCategoryName_asStr (state : IssueStateCategory) :
    parseStateCategoryName state.asStr = some state := by
  cases state <;> rfl

@[simp] theorem parsePriorityName_priorityAsStr (priority : IssuePriority) :
    parsePriorityName (priorityAsStr priority) = some priority := by
  cases priority <;> rfl

/-- The text forms of the `uuid` and `chrono` crates and of PostgreSQL's `uuid::text`, the hex
SHA-256 digest of a serialized value, and the message of a failed deserialization. -/
structure Codec where
  uuidText : Uuid → String
  parseUuid : String → Option Uuid
  parseUuid_uuidText : ∀ u, parseUuid (uuidText u) = some u
  timeText : Timestamp → String
  parseTime : String → Option Timestamp
  parseTime_timeText : ∀ t, parseTime (timeText t) = some t
  digestHex : Value → String
  decodeError : Value → String

namespace Codec

variable (codec : Codec)

theorem uuidText_injective : Function.Injective codec.uuidText := by
  intro u v h
  have hu := codec.parseUuid_uuidText u
  rw [h, codec.parseUuid_uuidText v] at hu
  exact (Option.some.inj hu).symm

def uuid (u : Uuid) : Value := .string (codec.uuidText u)

theorem uuid_injective : Function.Injective codec.uuid := by
  intro u v h
  exact codec.uuidText_injective (Value.string.inj h)

def time (t : Timestamp) : Value := .string (codec.timeText t)

def asUuid (v : Value) : Option Uuid := v.asString.bind codec.parseUuid

def asTime (v : Value) : Option Timestamp := v.asString.bind codec.parseTime

@[simp] theorem asUuid_uuid (u : Uuid) : codec.asUuid (codec.uuid u) = some u :=
  codec.parseUuid_uuidText u

@[simp] theorem asTime_time (t : Timestamp) : codec.asTime (codec.time t) = some t :=
  codec.parseTime_timeText t

@[simp] theorem optional_uuid (u : Option Uuid) :
    Value.optional codec.asUuid (some (Value.ofOption codec.uuid u)) = some u :=
  Value.optional_ofOption codec.asUuid_uuid (fun _ => by simp [uuid]) u

@[simp] theorem optional_time (t : Option Timestamp) :
    Value.optional codec.asTime (some (Value.ofOption codec.time t)) = some t :=
  Value.optional_ofOption codec.asTime_time (fun _ => by simp [time]) t

@[simp] theorem optional_string (s : Option String) :
    Value.optional Value.asString (some (Value.ofOption .string s)) = some s :=
  @Value.optional_ofOption String .string Value.asString (fun _ => rfl) (fun _ => by simp) s

def eventFields : List String :=
  ["event_id", "issue_id", "workspace_id", "project_id", "milestone_id", "actor_id", "occurred_at",
    "title", "description", "priority"]

def eventToValue (event : IssueCreatedEventV1) : Value :=
  .object [("event_id", codec.uuid event.eventId), ("issue_id", codec.uuid event.issueId),
    ("workspace_id", codec.uuid event.workspaceId), ("project_id", codec.uuid event.projectId),
    ("milestone_id", .ofOption codec.uuid event.milestoneId),
    ("actor_id", codec.uuid event.actorId), ("occurred_at", codec.time event.occurredAt),
    ("title", .string event.title), ("description", .ofOption .string event.description),
    ("priority", .string (priorityAsStr event.priority))]

def eventOfFields (field : String → Option Value) : Option IssueCreatedEventV1 := do
  let eventId ← (field "event_id").bind codec.asUuid
  let issueId ← (field "issue_id").bind codec.asUuid
  let workspaceId ← (field "workspace_id").bind codec.asUuid
  let projectId ← (field "project_id").bind codec.asUuid
  let milestoneId ← Value.optional codec.asUuid (field "milestone_id")
  let actorId ← (field "actor_id").bind codec.asUuid
  let occurredAt ← (field "occurred_at").bind codec.asTime
  let title ← (field "title").bind Value.asString
  let description ← Value.optional Value.asString (field "description")
  let priority ← ((field "priority").bind Value.asString).bind parsePriorityName
  return { eventId, issueId, workspaceId, projectId, milestoneId, actorId, occurredAt, title,
           description, priority }

def decodeEvent (v : Value) : Option IssueCreatedEventV1 :=
  (v.structFields eventFields).bind codec.eventOfFields

def eventFromValue (v : Value) : Except String IssueCreatedEventV1 :=
  match codec.decodeEvent v with
  | some event => .ok event
  | none => .error (codec.decodeError v)

theorem eventOfFields_eq {field : String → Option Value} {event : IssueCreatedEventV1}
    (eventId : field "event_id" = some (codec.uuid event.eventId))
    (issueId : field "issue_id" = some (codec.uuid event.issueId))
    (workspaceId : field "workspace_id" = some (codec.uuid event.workspaceId))
    (projectId : field "project_id" = some (codec.uuid event.projectId))
    (milestoneId : field "milestone_id" = some (.ofOption codec.uuid event.milestoneId))
    (actorId : field "actor_id" = some (codec.uuid event.actorId))
    (occurredAt : field "occurred_at" = some (codec.time event.occurredAt))
    (title : field "title" = some (.string event.title))
    (description : field "description" = some (.ofOption .string event.description))
    (priority : field "priority" = some (.string (priorityAsStr event.priority))) :
    codec.eventOfFields field = some event := by
  simp [eventOfFields, eventId, issueId, workspaceId, projectId, milestoneId, actorId, occurredAt,
    title, description, priority]

theorem decodeEvent_toValue (event : IssueCreatedEventV1) :
    codec.decodeEvent (codec.eventToValue event) = some event := by
  simp only [decodeEvent, eventToValue, Value.structFields, Option.bind_some]
  exact codec.eventOfFields_eq rfl rfl rfl rfl rfl rfl rfl rfl rfl rfl

/-- The event handler reads back the event the writer stored. -/
theorem eventFromValue_toValue (event : IssueCreatedEventV1) :
    codec.eventFromValue (codec.eventToValue event) = .ok event := by
  simp only [eventFromValue, decodeEvent_toValue]

def issueFields : List String :=
  ["id", "workspace_id", "project_id", "milestone_id", "title", "description", "state_category",
    "priority", "archived_at", "row_version", "created_at", "updated_at"]

def issueToValue (issue : Issue) : Value :=
  .object [("id", codec.uuid issue.id), ("workspace_id", codec.uuid issue.workspaceId),
    ("project_id", codec.uuid issue.projectId),
    ("milestone_id", .ofOption codec.uuid issue.milestoneId), ("title", .string issue.title),
    ("description", .ofOption .string issue.description),
    ("state_category", .string issue.stateCategory.asStr),
    ("priority", .string (priorityAsStr issue.priority)),
    ("archived_at", .ofOption codec.time issue.archivedAt), ("row_version", .number issue.rowVersion),
    ("created_at", codec.time issue.createdAt), ("updated_at", codec.time issue.updatedAt)]

def issueOfFields (field : String → Option Value) : Option Issue := do
  let id ← (field "id").bind codec.asUuid
  let workspaceId ← (field "workspace_id").bind codec.asUuid
  let projectId ← (field "project_id").bind codec.asUuid
  let milestoneId ← Value.optional codec.asUuid (field "milestone_id")
  let title ← (field "title").bind Value.asString
  let description ← Value.optional Value.asString (field "description")
  let stateCategory ← ((field "state_category").bind Value.asString).bind parseStateCategoryName
  let priority ← ((field "priority").bind Value.asString).bind parsePriorityName
  let archivedAt ← Value.optional codec.asTime (field "archived_at")
  let rowVersion ← (field "row_version").bind Value.asI64
  let createdAt ← (field "created_at").bind codec.asTime
  let updatedAt ← (field "updated_at").bind codec.asTime
  return { id, workspaceId, projectId, milestoneId, title, description, stateCategory, priority,
           archivedAt, rowVersion, createdAt, updatedAt }

def decodeIssue (v : Value) : Option Issue :=
  (v.structFields issueFields).bind codec.issueOfFields

theorem issueOfFields_eq {field : String → Option Value} {issue : Issue}
    (hv : -2 ^ 63 ≤ issue.rowVersion ∧ issue.rowVersion < 2 ^ 63)
    (id : field "id" = some (codec.uuid issue.id))
    (workspaceId : field "workspace_id" = some (codec.uuid issue.workspaceId))
    (projectId : field "project_id" = some (codec.uuid issue.projectId))
    (milestoneId : field "milestone_id" = some (.ofOption codec.uuid issue.milestoneId))
    (title : field "title" = some (.string issue.title))
    (description : field "description" = some (.ofOption .string issue.description))
    (stateCategory : field "state_category" = some (.string issue.stateCategory.asStr))
    (priority : field "priority" = some (.string (priorityAsStr issue.priority)))
    (archivedAt : field "archived_at" = some (.ofOption codec.time issue.archivedAt))
    (rowVersion : field "row_version" = some (.number issue.rowVersion))
    (createdAt : field "created_at" = some (codec.time issue.createdAt))
    (updatedAt : field "updated_at" = some (codec.time issue.updatedAt)) :
    codec.issueOfFields field = some issue := by
  simp [issueOfFields, id, workspaceId, projectId, milestoneId, title, description, stateCategory,
    priority, archivedAt, rowVersion, createdAt, updatedAt, Value.asI64_number hv]

theorem decodeIssue_toValue (issue : Issue)
    (hv : -2 ^ 63 ≤ issue.rowVersion ∧ issue.rowVersion < 2 ^ 63) :
    codec.decodeIssue (codec.issueToValue issue) = some issue := by
  simp only [decodeIssue, issueToValue, Value.structFields, Option.bind_some]
  exact codec.issueOfFields_eq hv rfl rfl rfl rfl rfl rfl rfl rfl rfl rfl rfl rfl

/-- `IdempotencyResponse`, the payload stored for replays. -/
def idempotencyResponseToValue (issue : Issue) : Value :=
  .object [("issue", codec.issueToValue issue)]

def idempotencyResponseFromValue (v : Value) : Except String Issue :=
  match (v.structFields ["issue"]).bind (fun field => (field "issue").bind codec.decodeIssue) with
  | some issue => .ok issue
  | none => .error (codec.decodeError v)

theorem idempotencyResponseFromValue_toValue (issue : Issue)
    (hv : -2 ^ 63 ≤ issue.rowVersion ∧ issue.rowVersion < 2 ^ 63) :
    codec.idempotencyResponseFromValue (codec.idempotencyResponseToValue issue) = .ok issue := by
  have hfield : (codec.idempotencyResponseToValue issue).structFields ["issue"] =
      some (fun name => [("issue", codec.issueToValue issue)].lookup name) := rfl
  have hissue : [("issue", codec.issueToValue issue)].lookup "issue" =
      some (codec.issueToValue issue) := rfl
  simp only [idempotencyResponseFromValue, hfield, Option.bind_some, hissue,
    codec.decodeIssue_toValue issue hv]

/-! ## A codec to evaluate with -/

def unaryText (n : ℕ) : String := String.ofList (List.replicate n '1')

theorem length_unaryText (n : ℕ) : (unaryText n).length = n := by
  simp [unaryText, String.length_ofList]

def natOfInt (t : Int) : ℕ := if 0 ≤ t then 2 * t.toNat else 2 * (-t).toNat - 1

def intOfNat (n : ℕ) : Int := if n % 2 = 0 then (n / 2 : ℕ) else -((n + 1) / 2 : ℕ)

theorem intOfNat_natOfInt (t : Int) : intOfNat (natOfInt t) = t := by
  unfold intOfNat natOfInt
  split_ifs <;> omega

/-- Identifiers and times in unary, and one digest for every value. -/
def unary : Codec where
  uuidText u := unaryText u.val
  parseUuid s := if h : s.length < 2 ^ 128 then some ⟨s.length, h⟩ else none
  parseUuid_uuidText u := by
    simp only [length_unaryText]
    rw [dif_pos u.isLt]
  timeText t := unaryText (natOfInt t)
  parseTime s := some (intOfNat s.length)
  parseTime_timeText t := by rw [length_unaryText, intOfNat_natOfInt]
  digestHex _ := String.ofList (List.replicate 64 '0')
  decodeError _ := "invalid payload"

end Codec
end Dandori
