import Dandori.Noninterference
import Dandori.StoreIsolation
import Dandori.CreateParity

/-!
# Tenants on the wire

A request reaches the database under the workspace of its token, through either HTTP route or a line of
the MCP server. What it is answered, whatever it asks for and whatever fails on the way, depends on the
rows of that workspace; a request without an accepted token is answered without the database.
-/

namespace Dandori

open IssueRepository

namespace Transport

/-- `GET /v1/issues/{issue_id}`. -/
def restGetIssue (t : Transport) (authorization : Option String) (issueId : String)
    (serving : Serving) (db : Db) : HttpReply × Db :=
  match (authorization.bind bearerToken).bind t.authenticate with
  | none => (t.transportErr 401 "unauthorized" "authentication failed", db)
  | some auth =>
      match t.codec.parseUuid issueId with
      | none =>
          let error := t.uuidError issueId
          (t.transportErr 422 "invalid_issue_id" s!"issue_id must be a valid UUID: {error}", db)
      | some issueId =>
          let ((status, envelope), db') := t.handleRestGetIssue auth issueId serving db
          (.json status (envelope.toValue (getIssueResponseToValue t.codec)), db')

/-- The token in the `params` of a line. -/
def toolToken (t : Transport) (line : String) : Option String :=
  match t.parseJsonRpcRequest line with
  | .ok request => (toolCallParams request.params).map ToolCallParams.token
  | .error _ => none

end Transport

inductive WireRequest
  | restCreateIssue (authorization : Option String) (body : String)
  | restGetIssue (authorization : Option String) (issueId : String)
  | mcpLine (line : String)

/-- A request with what it meets besides the database and the connection: the verdicts on tokens at that
time, the generated values, and which statements fail. -/
structure WireEvent where
  request : WireRequest
  authenticate : String → Option AuthContext
  generated : IssueAppService.Generated
  faults : List Bool

inductive WireReply
  | http (reply : HttpReply)
  | mcp (response : JsonRpcResponse)

namespace WireEvent

variable (t : Transport) (event : WireEvent)

def token : Option String :=
  match event.request with
  | .restCreateIssue authorization _ => authorization.bind bearerToken
  | .restGetIssue authorization _ => authorization.bind bearerToken
  | .mcpLine line => t.toolToken line

def auth : Option AuthContext := (event.token t).bind event.authenticate

/-- The workspace that a request speaks for. -/
def owner : Option Uuid := (event.auth t).map AuthContext.workspaceId

def transport : Transport := { t with authenticate := event.authenticate }

/-- The reply over a pooled connection with a session value. -/
def serve (session : Option String) (db : Db) : WireReply × Db :=
  match event.request with
  | .restCreateIssue authorization body => Prod.map .http id
      ((event.transport t).restCreateIssue authorization body
        ⟨event.generated, ⟨session, event.faults⟩⟩ db)
  | .restGetIssue authorization issueId => Prod.map .http id
      ((event.transport t).restGetIssue authorization issueId
        ⟨event.generated, ⟨session, event.faults⟩⟩ db)
  | .mcpLine line => Prod.map .mcp id
      ((event.transport t).respond line ⟨event.generated, ⟨session, event.faults⟩⟩ db)

end WireEvent

/-- No row of `others` has an id that was generated for a request. -/
structure IssueAppService.Generated.FreshIn (generated : IssueAppService.Generated) (others : Db) :
    Prop where
  issue : ∀ row ∈ others.issues, row.id ≠ generated.issueId
  activity : ∀ row ∈ others.activities, row.id ≠ generated.store.activityId
  outbox : ∀ row ∈ others.outbox, row.id ≠ generated.store.outboxId ∧ row.eventId ≠ generated.eventId

/-! ## Confined computations -/

/-- A computation answers without the database and leaves it as it is. -/
def Constant {ρ : Type} (f : Option String → Db → ρ × Db) : Prop :=
  ∃ r, ∀ session db, f session db = (r, db)

/-- A computation does the same on the rows of its tenant as on the whole database, over any connection,
and leaves the rows of the others alone, where they meet a condition. -/
def Confined {ρ : Type} (tenant : Uuid) (condition : Db → Prop)
    (f : Option String → Db → ρ × Db) : Prop :=
  ∀ session db, condition (db.others tenant) →
    f none (db.own tenant) = Prod.map id (Db.own tenant) (f session db) ∧
      (f session db).2.others tenant = db.others tenant

section Confined

variable {ρ ρ' : Type} {tenant : Uuid} {condition : Db → Prop} {f : Option String → Db → ρ × Db}
  {f' : Option String → Db → ρ' × Db}

theorem Constant.confined (h : Constant f) : Confined tenant condition f := by
  obtain ⟨r, hr⟩ := h
  intro session db _
  rw [hr, hr]
  exact ⟨rfl, rfl⟩

theorem Constant.map (h : Constant f) (answer : ρ → ρ') :
    Constant (fun session db => Prod.map answer id (f session db)) := by
  obtain ⟨r, hr⟩ := h
  exact ⟨answer r, fun session db => congrArg (Prod.map answer id) (hr session db)⟩

/-- What answers as a confined computation answers, and leaves the database as it does, is confined. -/
theorem Confined.of_answers (hf : Confined tenant condition f)
    (h : ∀ r, ∃ r', ∀ session db db', f session db = (r, db') → f' session db = (r', db')) :
    Confined tenant condition f' := by
  intro session db hcondition
  obtain ⟨hown, hothers⟩ := hf session db hcondition
  cases hall : f session db with
  | mk r db' =>
      rw [hall] at hown hothers
      obtain ⟨r', hr'⟩ := h r
      rw [hr' _ _ _ hall, hr' _ _ _ hown]
      exact ⟨rfl, hothers⟩

theorem Confined.map (hf : Confined tenant condition f) (answer : ρ → ρ') :
    Confined tenant condition (fun session db => Prod.map answer id (f session db)) :=
  hf.of_answers fun r => ⟨answer r, fun session db db' h => by rw [h]; rfl⟩

/-- On two databases with the same rows of the tenant, a confined computation gives the same. -/
theorem Confined.agree (hf : Confined tenant condition f) {session₁ session₂ : Option String}
    {db₁ db₂ : Db} (h₁ : condition (db₁.others tenant)) (h₂ : condition (db₂.others tenant))
    (hown : db₁.own tenant = db₂.own tenant) : (f session₁ db₁).1 = (f session₂ db₂).1 ∧
      (f session₁ db₁).2.own tenant = (f session₂ db₂).2.own tenant := by
  have hall : Prod.map id (Db.own tenant) (f session₁ db₁) =
      Prod.map id (Db.own tenant) (f session₂ db₂) := by
    rw [← (hf session₁ db₁ h₁).1, ← (hf session₂ db₂ h₂).1, hown]
  have hreply := congrArg Prod.fst hall
  have hrows := congrArg Prod.snd hall
  exact ⟨hreply, hrows⟩

end Confined

/-! ## The service -/

namespace IssueAppService

variable {codec : Codec} {policy : PolicyEngine} {auth : AuthContext} {request : CreateIssueRequest}
  {generated : Generated} {call : CreateIssueCall}

theorem prepared_call (h : prepare codec policy auth request generated = .ok call) :
    ∃ key, call = ⟨auth, commandOfRequest codec auth request generated key,
      eventOfCommand (commandOfRequest codec auth request generated key) generated,
      generated.store⟩ := by
  unfold prepare at h
  split at h
  · cases h
  · split at h
    · cases h
    · next key _ =>
        dsimp only at h
        split at h
        · cases h
        · split at h
          · cases h
          · cases h
            exact ⟨key, rfl⟩

theorem Generated.FreshIn.freshIssue {others : Db} (hfresh : generated.FreshIn others)
    (h : prepare codec policy auth request generated = .ok call) : FreshIssue codec call others := by
  obtain ⟨key, rfl⟩ := prepared_call h
  refine ⟨fun row hrow => ⟨hfresh.issue row hrow, rfl⟩, fun row hrow => ⟨hfresh.activity row hrow, rfl⟩,
    fun row hrow => ⟨(hfresh.outbox row hrow).1, ?_⟩⟩
  exact decide_eq_false fun heq => (hfresh.outbox row hrow).2 heq.symm

theorem confined_createIssue (codec : Codec) (policy : PolicyEngine) (auth : AuthContext)
    (request : CreateIssueRequest) (generated : Generated) (faults : List Bool) :
    Confined auth.workspaceId generated.FreshIn
      (fun session db => createIssue codec policy auth request generated ⟨session, faults⟩ db) := by
  cases hprepare : prepare codec policy auth request generated with
  | error e =>
      exact Constant.confined ⟨.error e, fun session db => by simp only [createIssue, hprepare]⟩
  | ok call =>
      have hauth : call.auth = auth := by
        obtain ⟨key, rfl⟩ := prepared_call hprepare
        rfl
      have hstore : Confined auth.workspaceId generated.FreshIn (fun session db =>
          createIssueTransactional codec call ⟨session, faults⟩ db) := by
        intro session db hfresh
        rw [← hauth] at hfresh ⊢
        exact @StoreOperation.isolatedAt_createIssue codec ⟨session, faults⟩ db call
          (hfresh.freshIssue hprepare)
      refine hstore.of_answers fun result => ?_
      cases result with
      | error e => exact ⟨_, fun session db db' h => by simp only [createIssue, hprepare, h]; rfl⟩
      | ok result => exact ⟨_, fun session db db' h => by simp only [createIssue, hprepare, h]; rfl⟩

theorem confined_getIssue (codec : Codec) (policy : PolicyEngine) (auth : AuthContext)
    (issueId : Uuid) (generated : Generated) (faults : List Bool) :
    Confined auth.workspaceId generated.FreshIn
      (fun session db => getIssue codec policy auth issueId ⟨session, faults⟩ db) := by
  cases hpolicy : enforcePolicy policy auth .issueRead (.issue auth.workspaceId issueId) with
  | error e =>
      exact Constant.confined ⟨.error e, fun session db => by simp only [getIssue, hpolicy]⟩
  | ok _ =>
      have hstore : Confined auth.workspaceId generated.FreshIn (fun session db =>
          IssueRepository.getIssue codec auth issueId ⟨session, faults⟩ db) := by
        intro session db _
        exact @transaction_isolated codec auth.workspaceId .sqlx _ _ ⟨session, faults⟩ db
          (isolated_fetchIssueInTx issueId)
      refine hstore.of_answers fun result => ?_
      cases result with
      | error e => exact ⟨_, fun session db db' h => by simp only [getIssue, hpolicy, h]; rfl⟩
      | ok issue =>
          cases issue with
          | none => exact ⟨_, fun session db db' h => by simp only [getIssue, hpolicy, h]; rfl⟩
          | some issue => exact ⟨_, fun session db db' h => by simp only [getIssue, hpolicy, h]; rfl⟩

end IssueAppService

/-! ## The transports -/

namespace Transport

variable {t : Transport} {auth : AuthContext} {generated : IssueAppService.Generated}
  {faults : List Bool}

theorem confined_handleRestCreateIssue (t : Transport) (auth : AuthContext)
    (request : CreateIssueRequest) (generated : IssueAppService.Generated) (faults : List Bool) :
    Confined auth.workspaceId generated.FreshIn (fun session db =>
      t.handleRestCreateIssue auth request ⟨generated, ⟨session, faults⟩⟩ db) := by
  refine Confined.of_answers
    (IssueAppService.confined_createIssue t.codec t.policy auth request generated faults) fun result => ?_
  cases result with
  | error e => exact ⟨_, fun session db db' h => by simp only [handleRestCreateIssue, h]; rfl⟩
  | ok response => exact ⟨_, fun session db db' h => by simp only [handleRestCreateIssue, h]; rfl⟩

theorem confined_handleRestGetIssue (t : Transport) (auth : AuthContext) (issueId : Uuid)
    (generated : IssueAppService.Generated) (faults : List Bool) :
    Confined auth.workspaceId generated.FreshIn (fun session db =>
      t.handleRestGetIssue auth issueId ⟨generated, ⟨session, faults⟩⟩ db) := by
  refine Confined.of_answers
    (IssueAppService.confined_getIssue t.codec t.policy auth issueId generated faults) fun result => ?_
  cases result with
  | error e => exact ⟨_, fun session db db' h => by simp only [handleRestGetIssue, h]; rfl⟩
  | ok response => exact ⟨_, fun session db db' h => by simp only [handleRestGetIssue, h]; rfl⟩

theorem confined_handleMcpCreateIssue (t : Transport) (auth : AuthContext) (params : Value)
    (generated : IssueAppService.Generated) (faults : List Bool) :
    Confined auth.workspaceId generated.FreshIn (fun session db =>
      t.handleMcpCreateIssue auth params ⟨generated, ⟨session, faults⟩⟩ db) := by
  cases hrequest : decodeCreateIssueRequest valueDeserializer t.codec params with
  | none =>
      exact Constant.confined ⟨_, fun session db => by simp only [handleMcpCreateIssue, hrequest]; rfl⟩
  | some request =>
      exact (t.confined_handleRestCreateIssue auth request generated faults).of_answers
        fun reply => ⟨_, fun session db db' h => by simp only [handleMcpCreateIssue, hrequest, h]; rfl⟩

theorem confined_handleMcpGetIssue (t : Transport) (auth : AuthContext) (params : Value)
    (generated : IssueAppService.Generated) (faults : List Bool) :
    Confined auth.workspaceId generated.FreshIn (fun session db =>
      t.handleMcpGetIssue auth params ⟨generated, ⟨session, faults⟩⟩ db) := by
  cases hissue : t.mcpIssueId params with
  | error e =>
      exact Constant.confined ⟨_, fun session db => by simp only [handleMcpGetIssue, hissue]; rfl⟩
  | ok issueId =>
      exact (t.confined_handleRestGetIssue auth issueId generated faults).of_answers
        fun reply => ⟨_, fun session db db' h => by simp only [handleMcpGetIssue, hissue, h]; rfl⟩

theorem confined_handleToolCall (toolName : String) {token : String} (params : Value)
    (hauth : t.authenticate token = some auth) :
    Confined auth.workspaceId generated.FreshIn (fun session db =>
      t.handleToolCall toolName token params ⟨generated, ⟨session, faults⟩⟩ db) := by
  unfold handleToolCall
  simp only [hauth]
  split
  · exact t.confined_handleMcpCreateIssue auth params generated faults
  · exact t.confined_handleMcpGetIssue auth params generated faults
  · exact Constant.confined ⟨_, fun session db => rfl⟩

section Routes

variable {authorization : Option String}

theorem constant_restCreateIssue (body : String)
    (hauth : (authorization.bind bearerToken).bind t.authenticate = none) :
    Constant (fun session db =>
      t.restCreateIssue authorization body ⟨generated, ⟨session, faults⟩⟩ db) := by
  by_cases hsize : t.bodyLimit < body.utf8ByteSize
  · exact ⟨_, fun session db => by simp only [restCreateIssue, if_pos hsize]; rfl⟩
  · exact ⟨_, fun session db => by simp only [restCreateIssue, if_neg hsize, hauth]; rfl⟩

theorem confined_restCreateIssue (body : String)
    (hauth : (authorization.bind bearerToken).bind t.authenticate = some auth) :
    Confined auth.workspaceId generated.FreshIn (fun session db =>
      t.restCreateIssue authorization body ⟨generated, ⟨session, faults⟩⟩ db) := by
  by_cases hsize : t.bodyLimit < body.utf8ByteSize
  · exact Constant.confined ⟨_, fun session db => by simp only [restCreateIssue, if_pos hsize]; rfl⟩
  · cases hrequest : t.createIssueFromSlice body with
    | error error =>
        exact Constant.confined
          ⟨_, fun session db => by simp only [restCreateIssue, if_neg hsize, hauth, hrequest]; rfl⟩
    | ok request =>
        exact (t.confined_handleRestCreateIssue auth request generated faults).of_answers
          fun reply => ⟨_, fun session db db' h => by
            simp only [restCreateIssue, if_neg hsize, hauth, hrequest, h]; rfl⟩

theorem constant_restGetIssue (issueId : String)
    (hauth : (authorization.bind bearerToken).bind t.authenticate = none) :
    Constant (fun session db =>
      t.restGetIssue authorization issueId ⟨generated, ⟨session, faults⟩⟩ db) :=
  ⟨_, fun session db => by simp only [restGetIssue, hauth]; rfl⟩

theorem confined_restGetIssue (issueId : String)
    (hauth : (authorization.bind bearerToken).bind t.authenticate = some auth) :
    Confined auth.workspaceId generated.FreshIn (fun session db =>
      t.restGetIssue authorization issueId ⟨generated, ⟨session, faults⟩⟩ db) := by
  cases hid : t.codec.parseUuid issueId with
  | none => exact Constant.confined ⟨_, fun session db => by simp only [restGetIssue, hauth, hid]; rfl⟩
  | some id =>
      exact (t.confined_handleRestGetIssue auth id generated faults).of_answers
        fun reply => ⟨_, fun session db db' h => by simp only [restGetIssue, hauth, hid, h]; rfl⟩

end Routes

theorem toolToken_of_ok {line : String} {request : JsonRpcRequest} {params : ToolCallParams}
    (h : t.parseJsonRpcRequest line = .ok request)
    (hparams : toolCallParams request.params = some params) : t.toolToken line = some params.token := by
  rw [toolToken, h]
  exact congrArg (Option.map ToolCallParams.token) hparams

/-- A line is answered without the database, or it is a call of a tool with its token. -/
theorem respond_cases (t : Transport) (line : String) :
    Constant (fun session db => t.respond line ⟨generated, ⟨session, faults⟩⟩ db) ∨
      ∃ requestId, ∃ params : ToolCallParams, t.toolToken line = some params.token ∧ ∀ session db,
        t.respond line ⟨generated, ⟨session, faults⟩⟩ db =
          Prod.map (fun envelope => .ok requestId (.object [("envelope", envelope.toValue id)])) id
            (t.handleToolCall params.name params.token params.arguments
              ⟨generated, ⟨session, faults⟩⟩ db) := by
  unfold respond
  cases hparse : t.parseJsonRpcRequest line with
  | error error => exact Or.inl ⟨_, fun session db => rfl⟩
  | ok request =>
      simp only [handleJsonRpc]
      split_ifs
      · exact Or.inl ⟨_, fun session db => rfl⟩
      · split
        · exact Or.inl ⟨_, fun session db => rfl⟩
        · exact Or.inl ⟨_, fun session db => rfl⟩
        · cases hparams : toolCallParams request.params with
          | none => exact Or.inl ⟨_, fun session db => rfl⟩
          | some params =>
              exact Or.inr ⟨request.id, params, toolToken_of_ok hparse hparams, fun session db => rfl⟩
        · exact Or.inl ⟨_, fun session db => rfl⟩

theorem constant_respond {line : String} (hauth : (t.toolToken line).bind t.authenticate = none) :
    Constant (fun session db => t.respond line ⟨generated, ⟨session, faults⟩⟩ db) := by
  rcases t.respond_cases line with hconstant | ⟨requestId, params, htoken, hrespond⟩
  · exact hconstant
  · rw [htoken, Option.bind_some] at hauth
    exact ⟨_, fun session db => by simp only [hrespond, handleToolCall, hauth]; rfl⟩

theorem confined_respond {line : String}
    (hauth : (t.toolToken line).bind t.authenticate = some auth) :
    Confined auth.workspaceId generated.FreshIn
      (fun session db => t.respond line ⟨generated, ⟨session, faults⟩⟩ db) := by
  rcases t.respond_cases line with hconstant | ⟨requestId, params, htoken, hrespond⟩
  · exact hconstant.confined
  · rw [htoken, Option.bind_some] at hauth
    exact (confined_handleToolCall params.name params.arguments hauth).of_answers
      fun reply => ⟨_, fun session db db' h => by rw [hrespond, h]; rfl⟩

end Transport

/-! ## Events -/

namespace WireEvent

variable {t : Transport} {event : WireEvent} {auth : AuthContext}

/-- A request without an accepted token is answered without the database. -/
theorem constant_serve (h : event.auth t = none) : Constant (event.serve t) := by
  obtain ⟨request, authenticate, generated, faults⟩ := event
  set u : Transport := { t with authenticate := authenticate }
  cases request with
  | restCreateIssue authorization body =>
      have hauth : (authorization.bind bearerToken).bind u.authenticate = none := h
      exact (Transport.constant_restCreateIssue body hauth).map WireReply.http
  | restGetIssue authorization issueId =>
      have hauth : (authorization.bind bearerToken).bind u.authenticate = none := h
      exact (Transport.constant_restGetIssue issueId hauth).map WireReply.http
  | mcpLine line =>
      have hauth : (u.toolToken line).bind u.authenticate = none := h
      exact (Transport.constant_respond hauth).map WireReply.mcp

/-- A request with an accepted token is confined to the workspace of the token. -/
theorem confined_serve (h : event.auth t = some auth) :
    Confined auth.workspaceId event.generated.FreshIn (event.serve t) := by
  obtain ⟨request, authenticate, generated, faults⟩ := event
  set u : Transport := { t with authenticate := authenticate }
  cases request with
  | restCreateIssue authorization body =>
      have hauth : (authorization.bind bearerToken).bind u.authenticate = some auth := h
      exact (Transport.confined_restCreateIssue body hauth).map WireReply.http
  | restGetIssue authorization issueId =>
      have hauth : (authorization.bind bearerToken).bind u.authenticate = some auth := h
      exact (Transport.confined_restGetIssue issueId hauth).map WireReply.http
  | mcpLine line =>
      have hauth : (u.toolToken line).bind u.authenticate = some auth := h
      exact (Transport.confined_respond hauth).map WireReply.mcp

end WireEvent

/-! ## Traffic -/

namespace Transport

variable (t : Transport)

/-- Requests of many callers on one database, each over a connection with whatever session value. A
caller sees the rows of its workspace, and one without a token sees none. -/
def traffic : Unwinding Db (WireEvent × Option String) WireEvent WireReply (Option Uuid)
    (Option Db) where
  step db x := some (x.1.serve t x.2 db).2
  request := Prod.fst
  owner := WireEvent.owner t
  reply db x := (x.1.serve t x.2 db).1
  view observer db := observer.map (fun workspaceId => db.own workspaceId)
  admits db x := ∀ auth, x.1.auth t = some auth →
    x.1.generated.FreshIn (db.others auth.workspaceId)
  consistent db₁ db₂ x₁ x₂ db₁' db₂' hfresh₁ hfresh₂ hsame hview h₁ h₂ := by
    obtain ⟨event, session₁⟩ := x₁
    obtain ⟨event', session₂⟩ := x₂
    cases hsame
    cases h₁
    cases h₂
    unfold WireEvent.owner at hview ⊢
    cases hauth : event.auth t with
    | none =>
        obtain ⟨r, hr⟩ := WireEvent.constant_serve hauth
        simp only [hr, Option.map_none, and_self]
    | some auth =>
        simp only [hauth, Option.map_some, Option.some.injEq] at hview ⊢
        exact (WireEvent.confined_serve hauth).agree (hfresh₁ auth hauth) (hfresh₂ auth hauth) hview
  respects db x db' observer hfresh h hne := by
    obtain ⟨event, session⟩ := x
    cases h
    cases hauth : event.auth t with
    | none =>
        obtain ⟨r, hr⟩ := WireEvent.constant_serve hauth
        simp only [hr]
    | some auth =>
        cases observer with
        | none => rfl
        | some workspaceId =>
            have hworkspace : auth.workspaceId ≠ workspaceId := by
              rintro rfl
              exact hne (by rw [WireEvent.owner, hauth]; rfl)
            have hothers := (WireEvent.confined_serve hauth session db (hfresh auth hauth)).2
            exact congrArg some (Db.own_eq_of_others_eq hworkspace hothers)

/-- The database after the traffic. -/
def after (db : Db) (history : List (WireEvent × Option String)) : Db :=
  history.foldl (fun db x => (x.1.serve t x.2 db).2) db

variable {t}

theorem run_after {db : Db} {history : List (WireEvent × Option String)} :
    Run t.traffic.step db history (t.after db history) := by
  induction history generalizing db with
  | nil => exact .nil db
  | cons x history ih => exact .cons rfl ih

/-- Two histories in which an observer makes the same requests, from databases with the same rows of its
workspace: it gets the same replies and ends with the same rows, whatever the others ask, whatever rows
they have, and over whatever connections. An observer without an accepted token sees nothing of the
database at all. -/
theorem traffic_confined (t : Transport) (observer : Option Uuid)
    (history₁ history₂ : List (WireEvent × Option String)) (db₁ db₂ : Db)
    (hsame : t.traffic.requestsOf observer history₁ = t.traffic.requestsOf observer history₂)
    (hown : ∀ workspaceId, observer = some workspaceId → db₁.own workspaceId = db₂.own workspaceId)
    (hfresh₁ : Run.Along t.traffic.step t.traffic.admits db₁ history₁)
    (hfresh₂ : Run.Along t.traffic.step t.traffic.admits db₂ history₂) :
    t.traffic.repliesTo observer db₁ history₁ = t.traffic.repliesTo observer db₂ history₂ ∧
      ∀ workspaceId, observer = some workspaceId →
        (t.after db₁ history₁).own workspaceId = (t.after db₂ history₂).own workspaceId := by
  have hview : t.traffic.view observer db₁ = t.traffic.view observer db₂ := by
    cases observer with
    | none => rfl
    | some workspaceId => exact congrArg some (hown workspaceId rfl)
  obtain ⟨hreplies, hend⟩ :=
    Unwinding.noninterference hsame hview run_after hfresh₁ run_after hfresh₂
  refine ⟨hreplies, ?_⟩
  rintro workspaceId rfl
  exact Option.some.inj hend

/-! ## A neighbour on the wire -/

/-- Tenant 2 asks for an issue, over a connection on which tenant 3 was served. -/
def neighbourGet : WireEvent × Option String :=
  (⟨.restGetIssue (some "Bearer token") "1111", fun _ => some ⟨2, 8⟩, ⟨4, 4, 4, 0, ⟨0, 0, 4, 4⟩⟩, []⟩,
    some (Codec.unary.uuidText 3))

/-- Tenant 1 creates an issue. -/
def ownCreate (session : Option String) : WireEvent × Option String :=
  (⟨.restCreateIssue (some "Bearer token") (requestText ["issue"]).text, fun _ => some ⟨1, 9⟩,
    ⟨4, 4, 4, 0, ⟨0, 0, 4, 4⟩⟩, []⟩, session)

def wireSample : Transport := sample (sentTexts ["issue"])

theorem freshIn_of_empty {generated : IssueAppService.Generated} {db : Db} {workspaceId : Uuid}
    (hissues : db.issues.rows = []) (hactivities : db.activities.rows = [])
    (houtbox : db.outbox.rows = []) : generated.FreshIn (db.others workspaceId) := by
  refine ⟨fun row hrow => ?_, fun row hrow => ?_, fun row hrow => ?_⟩
  · have hmem : row ∈ db.issues.rows := (Table.mem_filter.mp hrow).1
    rw [hissues] at hmem
    cases hmem
  · have hmem : row ∈ db.activities.rows := (Table.mem_filter.mp hrow).1
    rw [hactivities] at hmem
    cases hmem
  · have hmem : row ∈ db.outbox.rows := (Table.mem_filter.mp hrow).1
    rw [houtbox] at hmem
    cases hmem

theorem neighbourGet_db : wireSample.traffic.step projectDb neighbourGet = some projectDb := by
  have hbearer : bearerToken "Bearer token" = some "token" := by decide +kernel
  simp only [traffic, neighbourGet, WireEvent.serve, WireEvent.transport, restGetIssue, Option.bind_some,
    hbearer]
  rfl

theorem requestsOf_beside (session : Option String) :
    wireSample.traffic.requestsOf (some 1) [neighbourGet, ownCreate none] =
      wireSample.traffic.requestsOf (some 1) [ownCreate session] := by
  have hbearer : bearerToken "Bearer token" = some "token" := by decide +kernel
  have hneighbour : neighbourGet.1.owner wireSample ≠ some 1 := by
    have htoken : neighbourGet.1.token wireSample = some "token" := hbearer
    rw [WireEvent.owner, WireEvent.auth, htoken]
    decide
  exact List.filterMap_cons_none (if_neg hneighbour)

theorem traffic_confined_beside_neighbour :
    wireSample.traffic.repliesTo (some 1) projectDb [neighbourGet, ownCreate none] =
        wireSample.traffic.repliesTo (some 1) neighbourDb [ownCreate (some (Codec.unary.uuidText 3))] ∧
      ∀ workspaceId, some (1 : Uuid) = some workspaceId →
        (wireSample.after projectDb [neighbourGet, ownCreate none]).own workspaceId =
          (wireSample.after neighbourDb [ownCreate (some (Codec.unary.uuidText 3))]).own workspaceId :=
  traffic_confined wireSample (some 1) [neighbourGet, ownCreate none]
    [ownCreate (some (Codec.unary.uuidText 3))] projectDb neighbourDb
    (requestsOf_beside (some (Codec.unary.uuidText 3)))
    (fun workspaceId h => by cases h; rfl)
    (.cons neighbourGet_db (fun _ _ => freshIn_of_empty rfl rfl rfl)
      (.cons rfl (fun _ _ => freshIn_of_empty rfl rfl rfl) trivial))
    (.cons rfl (fun _ _ => freshIn_of_empty rfl rfl rfl) trivial)

end Transport
end Dandori
