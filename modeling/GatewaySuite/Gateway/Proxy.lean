import GatewaySuite.Gateway.Policy
import GatewaySuite.Python.Json

/-! The `/mcp` endpoint, for single messages and batches. What it posts downstream is
recorded in order; what each post is answered with is an input. -/
namespace GatewaySuite.Gateway
open Python

def PARSE_ERROR : Int := -32700
def INVALID_REQUEST : Int := -32600
def INVALID_PARAMS : Int := -32602
def INTERNAL_ERROR : Int := -32603
def UNAUTHORIZED_TOOL_CALL : Int := -32001
def UNAUTHENTICATED : Int := -32002
def UPSTREAM_UNAVAILABLE : Int := -32003

structure Config where
  policy : ToolPolicy
  filterToolsList : Bool
  allowBatch : Bool
  downstreamToken : Str

/-- `requestId` is the header's value or a fresh one. -/
structure Request where
  authorization : Option Str
  requestId : Str
  body : List UInt8

/-- What a post is answered with. `json` is what `response.json()` returns or raises, `raw`
the body as it came; `post` has read that body. -/
inductive Answer where
  | timeout
  | httpError
  | exception
  | response (status : Nat) (contentType : Str) (json : Except LoadsError Json) (raw : List UInt8)

structure Post where
  payload : Dict
  headers : List (Str × Str)

inductive Escape where
  | AttributeError
  | RecursionError
  | ValueError
  | UnicodeEncodeError
  | StreamConsumed
deriving DecidableEq, Repr

/-- A rendered value, or an iterator that is read when the response is sent. -/
inductive Body where
  | json (content : Json)
  | stream (chunks : Except Escape (List UInt8))

structure Response where
  status : Nat
  headers : List (Str × Str)
  body : Body

/-- `JSONResponse(…)`, which renders its content when it is built. -/
def jsonResponse (status : Nat) (headers : List (Str × Str)) (content : Json) :
    Except Escape Response :=
  if !content.finite then .error .ValueError
  else if !content.encodable then .error .UnicodeEncodeError
  else .ok ⟨status,headers,.json content⟩

/-- `response.aiter_raw()` -/
def aiterRaw (isStreamConsumed : Bool) (raw : List UInt8) : Except Escape (List UInt8) :=
  if isStreamConsumed then .error .StreamConsumed else .ok raw

inductive Payload where
  | value (content : Json)
  | bytes (raw : List UInt8)

/-- What the caller receives when the response is sent. -/
def Response.send (response : Response) : Except Escape (Nat × Payload) :=
  match response.body with
  | .json content => .ok (response.status,.value content)
  | .stream chunks => chunks.map fun raw => (response.status,.bytes raw)

def rpcError (requestId : Json) (code : Int) (message : Str) (data : Option Dict) : Json :=
  let error : Dict := [(lit "code",.int code),(lit "message",.str message)]
  let error := match data with
    | some data => error ++ [(lit "data",.obj data)]
    | none => error
  .obj [(lit "jsonrpc",.str (lit "2.0")),(lit "id",requestId),(lit "error",.obj error)]

/-- `payload.get("id")`, where an absent id is `None`. -/
def idOf (payload : Dict) : Json := (payload.get "id").getD .null

/-- `payload.get("method")`, where it is a string. -/
def methodOf (payload : Dict) : Option Str := (payload.get "method").bind Json.str?

/-- `looks_like_rpc_request`, with the dictionary it accepts. -/
def rpcRequest? (payload : Json) : Option Dict :=
  match payload with
  | .obj payload =>
    if (Dict.get payload "jsonrpc").bind Json.str? = some (lit "2.0") ∧ (methodOf payload).isSome then
      some payload
    else none
  | _ => none

def downstreamHeaders (config : Config) (principal : Principal) (requestId : Str) : List (Str × Str) :=
  [(lit "Content-Type",lit "application/json"),
    (lit "Accept",lit "application/json, text/event-stream"),
    (lit "Authorization",lit "Bearer " ++ config.downstreamToken),
    (lit "X-MCP-Gateway-Subject",principal.subject),
    (lit "X-MCP-Gateway-Role",principal.role),
    (lit "X-MCP-Gateway-Tenant",principal.tenant),
    (lit "X-Request-Id",requestId)]

def forward (config : Config) (payload : Dict) (principal : Principal) (requestId : Str) : Post :=
  ⟨payload,downstreamHeaders config principal requestId⟩

/-- `sorted` on strings. -/
def sorted (roles : List Str) : List Str :=
  roles.mergeSort fun a b => !List.lex b a fun x y => decide (x < y)

/-- The error to send back, or `none` to allow the call. -/
def authorize (u : Unicode) (policy : ToolPolicy) (payload : Dict) (principal : Principal)
    (requestId : Str) : Option Json :=
  match (methodOf payload).filter isWellformedMethod with
  | none =>
    some (rpcError (idOf payload) INVALID_REQUEST
      (lit "method contains characters outside the permitted set")
      (some [(lit "permitted",.str (lit "^[A-Za-z0-9_.\x2f-]\x7b1,128\x7d$"))]))
  | some method =>
    if normalizeMethod u method ≠ lit "tools/call" then none
    else
      match payload.get "params" with
      | some (.obj params) =>
        match (Dict.get params "name").bind Json.str? with
        | none | some [] =>
          some (rpcError (idOf payload) INVALID_PARAMS
            (lit "params.name must be a non-empty string") none)
        | some name =>
          if !isWellformedToolName name then
            some (rpcError (idOf payload) INVALID_PARAMS
              (lit "params.name contains characters outside the permitted tool-name set")
              (some [(lit "permitted",.str (lit "^[A-Za-z0-9_.-]\x7b1,128\x7d$"))]))
          else if (policy.evaluate u name principal).allowed then none
          else
            let required := ((policy.firstRule (normalizeToolName u name)).map Prod.snd).getD []
            some (rpcError (idOf payload) UNAUTHORIZED_TOOL_CALL (lit "Unauthorized Tool Call")
              (some [(lit "tool",.str name),
                (lit "required_role",.arr ((sorted required).map .str)),
                (lit "caller_role",.str principal.role),
                (lit "request_id",.str requestId)]))
      | _ =>
        some (rpcError (idOf payload) INVALID_PARAMS
          (lit "params must be an object for tools/call") none)

def visible (u : Unicode) (policy : ToolPolicy) (principal : Principal) (tool : Json) : Bool :=
  match tool with
  | .obj tool =>
    match (Dict.get tool "name").bind Json.str? with
    | some name => policy.visibleTo u name principal
    | none => false
  | _ => false

/-- `filter_tools_response`; a result that is no dictionary has no `get`. -/
def filterToolsResponse (u : Unicode) (policy : ToolPolicy) (body : Dict) (principal : Principal) :
    Except Escape Dict :=
  match (body.get "result").getD (.obj []) with
  | .obj result =>
    match Dict.get result "tools" with
    | some (.arr tools) =>
      .ok (body.set "result" (.obj (Dict.set result "tools"
        (.arr (tools.filter (visible u policy principal))))))
    | _ => .ok body
  | _ => .error .AttributeError

def filterAnswer (u : Unicode) (config : Config) (payload : Dict) (principal : Principal)
    (body : Json) : Except Escape Json :=
  if config.filterToolsList && decide (methodOf payload = some (lit "tools/list")) then
    match body with
    | .obj body => (filterToolsResponse u config.policy body principal).map .obj
    | body => .ok body
  else .ok body

def requestIdData (requestId : Str) : Option Dict := some [(lit "request_id",.str requestId)]

/-- The answer to a single message, after the post. -/
def respond (u : Unicode) (config : Config) (payload : Dict) (principal : Principal)
    (requestId : Str) : Answer → Except Escape Response
  | .timeout =>
    jsonResponse 504 [] (rpcError (idOf payload) UPSTREAM_UNAVAILABLE
      (lit "Upstream MCP server timed out") (requestIdData requestId))
  | .httpError =>
    jsonResponse 502 [] (rpcError (idOf payload) UPSTREAM_UNAVAILABLE
      (lit "Upstream MCP server unavailable") (requestIdData requestId))
  | .exception =>
    jsonResponse 500 [] (rpcError (idOf payload) INTERNAL_ERROR
      (lit "Internal gateway error") (requestIdData requestId))
  | .response status contentType json raw =>
    if (lit "text/event-stream").isPrefixOf contentType then
      .ok ⟨status,[(lit "X-Request-Id",requestId),(lit "Cache-Control",lit "no-cache")],
        .stream (aiterRaw true raw)⟩
    else
      match json with
      | .error .RecursionError => .error .RecursionError
      | .error _ =>
        jsonResponse 502 [] (rpcError (idOf payload) UPSTREAM_UNAVAILABLE
          (lit "Upstream MCP server returned a malformed response") (requestIdData requestId))
      | .ok body => do
        let body ← filterAnswer u config payload principal body
        jsonResponse status [(lit "X-Request-Id",requestId)] body

/-- The body of a batch entry: every exception of the post and of `json()` is caught. -/
def batchBody (payload : Dict) (requestId : Str) : Answer → Json
  | .timeout =>
    rpcError (idOf payload) UPSTREAM_UNAVAILABLE (lit "Upstream MCP server timed out")
      (requestIdData requestId)
  | .response _ _ (.ok body) _ => body
  | _ =>
    rpcError (idOf payload) UPSTREAM_UNAVAILABLE (lit "Upstream MCP server unavailable")
      (requestIdData requestId)

/-- The loop of `handle_batch`; `sent` posts were made before. -/
def batchLoop (u : Unicode) (config : Config) (principal : Principal) (requestId : Str)
    (answers : Nat → Answer) : List Json → Nat → List Post × Except Escape (List Json)
  | [],_ => ([],.ok [])
  | entry::rest,sent =>
    match rpcRequest? entry with
    | none =>
      let (posts,responses) := batchLoop u config principal requestId answers rest sent
      let invalid := rpcError .null INVALID_REQUEST (lit "Invalid JSON-RPC 2.0 request") none
      (posts,responses.map (invalid :: ·))
    | some payload =>
      match authorize u config.policy payload principal requestId with
      | some denial =>
        let (posts,responses) := batchLoop u config principal requestId answers rest sent
        (posts,if (idOf payload).notNone then responses.map (denial :: ·) else responses)
      | none =>
        let post := forward config payload principal requestId
        match filterAnswer u config payload principal (batchBody payload requestId (answers sent)) with
        | .error escape => ([post],.error escape)
        | .ok body =>
          let (posts,responses) := batchLoop u config principal requestId answers rest (sent+1)
          (post::posts,if (idOf payload).notNone then responses.map (body :: ·) else responses)

def handleBatch (u : Unicode) (config : Config) (entries : List Json) (principal : Principal)
    (requestId : Str) (answers : Nat → Answer) : List Post × Except Escape Response :=
  let (posts,responses) := batchLoop u config principal requestId answers entries 0
  (posts,responses.bind fun responses =>
    if responses.isEmpty then jsonResponse 202 [] .null else jsonResponse 200 [] (.arr responses))

/-- Steps 3 to 5 of `proxy` for a body that is no array. -/
def handleSingle (u : Unicode) (config : Config) (payload : Json) (principal : Principal)
    (requestId : Str) (answer : Answer) : List Post × Except Escape Response :=
  match rpcRequest? payload with
  | none =>
    let id := (payload.dict?.map idOf).getD .null
    ([],jsonResponse 400 [] (rpcError id INVALID_REQUEST (lit "Invalid JSON-RPC 2.0 request") none))
  | some payload =>
    match authorize u config.policy payload principal requestId with
    | some denial => ([],jsonResponse 200 [] denial)
    | none =>
      ([forward config payload principal requestId],
        respond u config payload principal requestId answer)

def proxy (u : Unicode) (config : Config) (resolve : Option Str → Except AuthError Principal)
    (loads : List UInt8 → Except LoadsError Json) (request : Request) (answers : Nat → Answer) :
    List Post × Except Escape Response :=
  match resolve request.authorization with
  | .error refused =>
    ([],jsonResponse 401 [(lit "WWW-Authenticate",lit "Bearer realm=\x22mcp-gateway\x22")]
      (rpcError .null UNAUTHENTICATED refused.message (requestIdData request.requestId)))
  | .ok principal =>
    match loads request.body with
    | .error _ => ([],jsonResponse 400 [] (rpcError .null PARSE_ERROR (lit "Parse error") none))
    | .ok (.arr entries) =>
      if config.allowBatch then handleBatch u config entries principal request.requestId answers
      else
        ([],jsonResponse 400 [] (rpcError .null INVALID_REQUEST
          (lit "JSON-RPC batching is not supported (removed in MCP revision 2025-06-18)") none))
    | .ok payload => handleSingle u config payload principal request.requestId (answers 0)

end GatewaySuite.Gateway
