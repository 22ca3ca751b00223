import Dandori.IdempotentCreate
import Dandori.Transports

/-!
# Parity of the two ways to create an issue

A text reaches the issue service as the body of an HTTP request or as the arguments in a line of the
MCP server. Both readings run the same deserializer, one on the text and one on the value the line was
read into, and they differ on repeated keys only. Where they agree the service does the rest.
-/

namespace Dandori

open IssueRepository

/-! ## One deserializer, two readings -/

section Decode

variable {lib : JsonLibrary} {codec : Codec} {remaining : ℕ} {raw : RawJson} {v : Value}

namespace JsonLibrary

end JsonLibrary

end Decode

/-! ## The codes of the service's errors -/

section Codes

variable {codec : Codec} {call : CreateIssueCall}

namespace IssueAppService

variable {policy : PolicyEngine} {auth : AuthContext} {request : CreateIssueRequest}
  {generated : Generated} {e : AppServiceError}

end IssueAppService
end Codes

/-! ## Outcomes -/

namespace Transport

variable (t : Transport)

section Replies

variable {t : Transport} {auth : AuthContext} {serving : Serving} {db : Db} {body line token : String}
  {tree lineTree : RawJson} {request : JsonRpcRequest} {v : Value}

end Replies

end Transport

section Outcomes

variable {α : Type} {f : α → Value}

end Outcomes

namespace Transport

section Parity

variable {t : Transport} {auth : AuthContext} {serving : Serving} {db : Db} {body : String}
  {authorization : Option String} {tree : RawJson} {v requestId : Value}

end Parity

def requestText (titles : List String) : RawJson :=
  .object ([("idempotency_key", .string "key"), ("project_id", .string "11")] ++
    titles.map (fun title => ("title", .string title)) ++ [("priority", .string "medium")])

def createLine (arguments : RawJson) : RawJson :=
  .object [("jsonrpc", .string "2.0"), ("id", .number "1"), ("method", .string "tools/call"),
    ("params", .object [("name", .string "issue.create"), ("token", .string "token"),
      ("arguments", arguments)])]

def sentTexts (titles : List String) : List RawJson :=
  [requestText titles, createLine (requestText titles)]

end Transport
end Dandori
