import Dandori.IssueService
import Dandori.JsonText

/-!
# REST and MCP

Both transports decode a request, hand it to the issue service and wrap the answer in an envelope. The
HTTP route reads the body into the request directly; the MCP server reads a line into a JSON-RPC
request whose `params` are a `Value`, and the request of the tool from the `arguments` in it.
Correlation ids are left out.
-/

namespace Dandori

structure ErrorEnvelope where
  code : String
  message : String

inductive Envelope (α : Type)
  | ok (data : α)
  | err (error : ErrorEnvelope)

namespace Envelope

variable {α β : Type}

def map (f : α → β) : Envelope α → Envelope β
  | ok data => ok (f data)
  | err error => err error

def toValue (encode : α → Value) : Envelope α → Value
  | ok data => .object [("status", .string "ok"), ("data", encode data)]
  | err error => .object [("status", .string "err"),
      ("error", .object [("code", .string error.code), ("message", .string error.message)])]

end Envelope

def mapErrorToTransport (error : AppServiceError) : ErrorEnvelope := ⟨error.code, error.message⟩

def validationError (code message : String) : AppServiceError := ⟨code, message, .validation⟩

/-- What a request meets while it is served: generated values, and the database. -/
structure Serving where
  generated : IssueAppService.Generated
  env : Env

/-! ## Contract types in JSON -/

def parsePriorityDto : String → Option IssuePriorityDto
  | "low" => some .low
  | "medium" => some .medium
  | "high" => some .high
  | "urgent" => some .urgent
  | _ => none

def IssueStateCategoryDto.asStr : IssueStateCategoryDto → String
  | .open => "open"
  | .active => "active"
  | .done => "done"
  | .cancelled => "cancelled"

def createIssueFields : List String :=
  ["idempotency_key", "project_id", "milestone_id", "title", "description", "priority"]

section Decode

variable {α : Type} (de : Deserializer α) (codec : Codec)

def decodeUuid (a : α) : Option Uuid := (de.string a).bind codec.parseUuid

def createIssueRequestOfFields (field : String → Option α) : Option CreateIssueRequest := do
  let idempotencyKey ← (field "idempotency_key").bind de.string
  let projectId ← (field "project_id").bind (decodeUuid de codec)
  let milestoneId ← de.optional (decodeUuid de codec) (field "milestone_id")
  let title ← (field "title").bind de.string
  let description ← de.optional de.string (field "description")
  let priority ← ((field "priority").bind de.variant).bind parsePriorityDto
  return { idempotencyKey, projectId, milestoneId, title, description, priority }

/-- `CreateIssueRequest::deserialize`. -/
def decodeCreateIssueRequest (a : α) : Option CreateIssueRequest :=
  (de.fields createIssueFields createIssueFields.length a).bind (createIssueRequestOfFields de codec)

end Decode

section Encode

variable (codec : Codec)

def issueDtoToValue (issue : IssueDto) : Value :=
  .object [("id", codec.uuid issue.id), ("workspace_id", codec.uuid issue.workspaceId),
    ("project_id", codec.uuid issue.projectId),
    ("milestone_id", .ofOption codec.uuid issue.milestoneId), ("title", .string issue.title),
    ("description", .ofOption .string issue.description),
    ("state_category", .string issue.stateCategory.asStr),
    ("priority", .string (priorityLiteral issue.priority)),
    ("archived_at", .ofOption codec.time issue.archivedAt), ("row_version", .number issue.rowVersion),
    ("created_at", codec.time issue.createdAt), ("updated_at", codec.time issue.updatedAt)]

def createIssueResponseToValue (response : CreateIssueResponse) : Value :=
  .object [("issue", issueDtoToValue codec response.issue),
    ("idempotent_replay", .bool response.idempotentReplay)]

def getIssueResponseToValue (response : GetIssueResponse) : Value :=
  .object [("issue", issueDtoToValue codec response.issue)]

end Encode

/-! ## The adapters -/

/-- What both binaries are built from. The HTTP server refuses a body above `bodyLimit` bytes before the
handler runs; `uuidError` is the message of a failed `Uuid::parse_str`. -/
structure Transport where
  codec : Codec
  policy : PolicyEngine
  json : JsonLibrary
  authenticate : String → Option AuthContext
  bodyLimit : ℕ
  uuidError : String → String

def transportStatus : ErrorKind → ℕ
  | .validation => 422
  | .precondition => 422
  | .conflict => 409
  | .notFound => 404
  | .authz => 403
  | .tenantBoundary => 403
  | .infrastructure => 500

def mapTransportError {α : Type} (error : AppServiceError) : ℕ × Envelope α :=
  (transportStatus error.kind, .err (mapErrorToTransport error))

namespace Transport

variable (t : Transport)

def handleRestCreateIssue (auth : AuthContext) (request : CreateIssueRequest) (serving : Serving)
    (db : Db) : (ℕ × Envelope CreateIssueResponse) × Db :=
  match IssueAppService.createIssue t.codec t.policy auth request serving.generated serving.env db with
  | (.ok response, db') => ((201, .ok response), db')
  | (.error error, db') => (mapTransportError error, db')

def handleRestGetIssue (auth : AuthContext) (issueId : Uuid) (serving : Serving) (db : Db) :
    (ℕ × Envelope GetIssueResponse) × Db :=
  match IssueAppService.getIssue t.codec t.policy auth issueId serving.env db with
  | (.ok response, db') => ((200, .ok response), db')
  | (.error error, db') => (mapTransportError error, db')

def handleMcpCreateIssue (auth : AuthContext) (params : Value) (serving : Serving) (db : Db) :
    Envelope Value × Db :=
  match decodeCreateIssueRequest valueDeserializer t.codec params with
  | none =>
      let error := t.codec.decodeError params
      (.err (mapErrorToTransport (validationError "invalid_payload"
        s!"invalid MCP create_issue payload: {error}")), db)
  | some request =>
      let ((_, envelope), db') := t.handleRestCreateIssue auth request serving db
      (envelope.map (createIssueResponseToValue t.codec), db')

def mcpIssueId (params : Value) : Except AppServiceError Uuid :=
  match (params.get "issue_id").bind Value.asString with
  | none => .error (validationError "invalid_payload" "issue_id is required in MCP get_issue payload")
  | some value =>
      match t.codec.parseUuid value with
      | some issueId => .ok issueId
      | none =>
          let error := t.uuidError value
          .error (validationError "invalid_issue_id" s!"issue_id must be a valid UUID: {error}")

def handleMcpGetIssue (auth : AuthContext) (params : Value) (serving : Serving) (db : Db) :
    Envelope Value × Db :=
  match t.mcpIssueId params with
  | .error error => (.err (mapErrorToTransport error), db)
  | .ok issueId =>
      let ((_, envelope), db') := t.handleRestGetIssue auth issueId serving db
      (envelope.map (getIssueResponseToValue t.codec), db')

end Transport

/-! ## The HTTP route -/

/-- A reply with an envelope, or the plain refusal of a body that is too large. -/
inductive HttpReply
  | payloadTooLarge
  | json (status : ℕ) (body : Value)

/-- `strip_prefix("Bearer ")`. -/
def bearerToken (authorization : String) : Option String :=
  if "Bearer ".toList.isPrefixOf authorization.toList then
    some (String.ofList (authorization.toList.drop "Bearer ".length))
  else none

namespace Transport

variable (t : Transport)

def transportErr (status : ℕ) (code message : String) : HttpReply :=
  .json status ((Envelope.err ⟨code, message⟩).toValue (createIssueResponseToValue t.codec))

/-- `serde_json::from_slice::<CreateIssueRequest>`. -/
def createIssueFromSlice (body : String) : Except String CreateIssueRequest :=
  match t.json.parseText body with
  | .error error => .error error
  | .ok tree =>
      match decodeCreateIssueRequest t.json.deserializer t.codec tree with
      | some request => .ok request
      | none => .error (t.json.readError tree)

/-- `POST /v1/issues`. -/
def restCreateIssue (authorization : Option String) (body : String) (serving : Serving) (db : Db) :
    HttpReply × Db :=
  if t.bodyLimit < body.utf8ByteSize then (.payloadTooLarge, db)
  else
    match (authorization.bind bearerToken).bind t.authenticate with
    | none => (t.transportErr 401 "unauthorized" "authentication failed", db)
    | some auth =>
        match t.createIssueFromSlice body with
        | .error error =>
            (t.transportErr 422 "invalid_payload" s!"invalid request payload: {error}", db)
        | .ok request =>
            let ((status, envelope), db') := t.handleRestCreateIssue auth request serving db
            (.json status (envelope.toValue (createIssueResponseToValue t.codec)), db')

end Transport

/-! ## The MCP server -/

structure JsonRpcRequest where
  jsonrpc : String
  id : Value
  method : String
  params : Value

structure JsonRpcError where
  code : Int
  message : String

structure JsonRpcResponse where
  jsonrpc : String
  id : Value
  result : Option Value
  error : Option JsonRpcError

namespace JsonRpcResponse

def ok (id result : Value) : JsonRpcResponse := ⟨"2.0", id, some result, none⟩

def fail (id : Value) (code : Int) (message : String) : JsonRpcResponse :=
  ⟨"2.0", id, none, some ⟨code, message⟩⟩

def invalidRequest (id : Value) (message : String) : JsonRpcResponse := fail id (-32600) message

def methodNotFound (id : Value) (method : String) : JsonRpcResponse :=
  fail id (-32601) s!"method not found: {method}"

def invalidParams (id : Value) (message : String) : JsonRpcResponse := fail id (-32602) message

/-- `result` and `error` are left out when they are `None`. -/
def toValue (response : JsonRpcResponse) : Value :=
  .object ([("jsonrpc", .string response.jsonrpc), ("id", response.id)] ++
    (response.result.map (fun result => ("result", result))).toList ++
    (response.error.map (fun error => ("error", .object [("code", .number error.code),
      ("message", .string error.message)]))).toList)

end JsonRpcResponse

def initializePayload : Value :=
  .object [("protocolVersion", .string "2026-04-15"),
    ("serverInfo", .object [("name", .string "dandori-mcp"), ("version", .string "0.1.0")]),
    ("capabilities", .object [("tools", .object [])])]

def toolsListPayload : Value :=
  .object [("tools", .array [
    .object [("name", .string "issue.create"),
      ("description", .string "Create an issue in the authenticated workspace"),
      ("inputSchema", .object [("type", .string "object"),
        ("required", .array [.string "idempotency_key", .string "project_id", .string "title",
          .string "priority"]),
        ("properties", .object [
          ("idempotency_key", .object [("type", .string "string")]),
          ("project_id", .object [("type", .string "string"), ("format", .string "uuid")]),
          ("milestone_id", .object [("type", .array [.string "string", .string "null"]),
            ("format", .string "uuid")]),
          ("title", .object [("type", .string "string")]),
          ("description", .object [("type", .array [.string "string", .string "null"])]),
          ("priority", .object [("type", .string "string"),
            ("enum", .array [.string "low", .string "medium", .string "high",
              .string "urgent"])])])])],
    .object [("name", .string "issue.get"),
      ("description", .string "Get an issue from the authenticated workspace"),
      ("inputSchema", .object [("type", .string "object"),
        ("required", .array [.string "issue_id"]),
        ("properties", .object [
          ("issue_id", .object [("type", .string "string"), ("format", .string "uuid")])])])]])]

structure ToolCallParams where
  name : String
  token : String
  arguments : Value

/-- `serde_json::from_value::<ToolCallParams>`. -/
def toolCallParams (params : Value) : Option ToolCallParams := do
  let field ← valueDeserializer.fields ["name", "token", "arguments"] 2 params
  let name ← (field "name").bind Value.asString
  let token ← (field "token").bind Value.asString
  return { name, token, arguments := (field "arguments").getD .null }

namespace Transport

variable (t : Transport)

def handleToolCall (toolName token : String) (params : Value) (serving : Serving) (db : Db) :
    Envelope Value × Db :=
  match t.authenticate token with
  | none => (.err ⟨"unauthorized", "authentication failed"⟩, db)
  | some auth =>
      match toolName with
      | "issue.create" => t.handleMcpCreateIssue auth params serving db
      | "issue.get" => t.handleMcpGetIssue auth params serving db
      | _ => (.err ⟨"unknown_tool", s!"unknown MCP tool '{toolName}'"⟩, db)

def handleJsonRpc (request : JsonRpcRequest) (serving : Serving) (db : Db) : JsonRpcResponse × Db :=
  if request.jsonrpc ≠ "2.0" then (.invalidRequest request.id "jsonrpc must be exactly '2.0'", db)
  else
    match request.method with
    | "initialize" => (.ok request.id initializePayload, db)
    | "tools/list" => (.ok request.id toolsListPayload, db)
    | "tools/call" =>
        match toolCallParams request.params with
        | none =>
            let error := t.codec.decodeError request.params
            (.invalidParams request.id s!"invalid tools/call params: {error}", db)
        | some params =>
            let (envelope, db') := t.handleToolCall params.name params.token params.arguments serving db
            (.ok request.id (.object [("envelope", envelope.toValue id)]), db')
    | _ => (.methodNotFound request.id request.method, db)

def jsonRpcFields : List String := ["jsonrpc", "id", "method", "params"]

/-- `JsonRpcRequest::deserialize`; only `params` has a default. -/
def readJsonRpcRequest (tree : RawJson) : Option JsonRpcRequest := do
  let field ← t.json.deserializer.fields jsonRpcFields 3 tree
  let jsonrpc ← (field "jsonrpc").bind t.json.deserializer.string
  let id ← (field "id").bind (t.json.toValue (recursionLimit - 1))
  let method ← (field "method").bind t.json.deserializer.string
  let params ← match field "params" with
    | none => some .null
    | some params => t.json.toValue (recursionLimit - 1) params
  return { jsonrpc, id, method, params }

/-- `serde_json::from_str::<JsonRpcRequest>`. -/
def parseJsonRpcRequest (line : String) : Except String JsonRpcRequest :=
  match t.json.parseText line with
  | .error error => .error error
  | .ok tree =>
      match t.readJsonRpcRequest tree with
      | some request => .ok request
      | none => .error (t.json.readError tree)

/-- The response to one line. -/
def respond (line : String) (serving : Serving) (db : Db) : JsonRpcResponse × Db :=
  match t.parseJsonRpcRequest line with
  | .ok request => t.handleJsonRpc request serving db
  | .error error => (.invalidRequest .null s!"invalid JSON-RPC request: {error}", db)

/-- Both transports of the default policy; one token is accepted. -/
def sample (trees : List RawJson) : Transport where
  codec := Codec.unary
  policy := RoleMatrixPolicy.standard
  json := .ofTrees trees
  authenticate token := if token = "token" then some ⟨1, 9⟩ else none
  bodyLimit := 2097152
  uuidError _ := "invalid length"

def sampleServing : Serving := ⟨⟨4, 4, 4, 0, ⟨0, 0, 4, 4⟩⟩, .quiet⟩

end Transport
end Dandori
