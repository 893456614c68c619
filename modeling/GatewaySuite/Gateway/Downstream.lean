import GatewaySuite.Gateway.Callable

/-! The gateway in front of the downstream server that comes with it. That server trusts whoever
posts to it, so what it runs and lists for a caller is up to the gateway. -/
namespace GatewaySuite.Gateway
open Python

def property (name : String) (schema : Dict) : Str × Json := (lit name,.obj schema)

def plain : Dict := [(lit "type",.str (lit "string"))]

def tool (name description : String) (properties : Dict) (required : String) : Json :=
  .obj [(lit "name",.str (lit name)),(lit "description",.str (lit description)),
    (lit "inputSchema",.obj [(lit "type",.str (lit "object")),(lit "properties",.obj properties),
      (lit "required",.arr [.str (lit required)]),(lit "additionalProperties",.bool false)])]

def TOOLS : List Json := [
  tool "get_customer_record" "Look up a customer by id."
    [property "customer_id" (plain ++ [(lit "pattern",.str (lit "^CUST-[0-9]\x7b5\x7d$"))])]
    "customer_id",
  tool "search_orders" "Search orders for a customer."
    [property "customer_id" plain,property "query" plain] "customer_id",
  tool "admin_reset_key" "Rotate a tenant's API key. Destructive." [property "tenant" plain] "tenant",
  tool "admin_delete_tenant" "Permanently delete a tenant. Destructive."
    [property "tenant" plain] "tenant"]

/-- `repr`; it escapes what cannot be printed, lone surrogates among it. -/
structure Formats where
  repr : Json → Str
  repr_encodes : ∀ value, encodes (repr value) = true

/-- What an f-string writes for a value. -/
def Formats.text (formats : Formats) : Json → Str
  | .str value => value
  | value => formats.repr value

inductive Raised where
  | AttributeError
  | TypeError

def result (requestId payload : Json) : Json :=
  .obj [(lit "jsonrpc",.str (lit "2.0")),(lit "id",requestId),(lit "result",payload)]

def error (requestId : Json) (code : Int) (message : Str) : Json :=
  .obj [(lit "jsonrpc",.str (lit "2.0")),(lit "id",requestId),
    (lit "error",.obj [(lit "code",.int code),(lit "message",.str message)])]

/-- `(body.get("params") or {}).get(key)` -/
def paramOf (body : Dict) (key : String) : Except Raised Json :=
  let params := (body.get "params").getD .null
  if params.truthy then
    match params with
    | .obj params => .ok ((Dict.get params key).getD .null)
    | _ => .error .AttributeError
  else .ok .null

/-- `name in known` -/
def knownTool : Json → Except Raised (Option Str)
  | .str name => .ok (if (TOOLS.filterMap toolName).contains name then some name else none)
  | .arr _ | .obj _ => .error .TypeError
  | _ => .ok none

def initialized : Json :=
  .obj [(lit "protocolVersion",.str (lit "2025-06-18")),
    (lit "capabilities",.obj [(lit "tools",.obj [(lit "listChanged",.bool false)])]),
    (lit "serverInfo",.obj [(lit "name",.str (lit "mock-downstream-mcp")),
      (lit "version",.str (lit "1.0.0"))])]

def executed (formats : Formats) (name : Str) (arguments : Json) : Json :=
  .obj [(lit "content",.arr [.obj [(lit "type",.str (lit "text")),
      (lit "text",.str (lit "executed " ++ name ++ lit " with " ++ formats.text arguments))]]),
    (lit "isError",.bool false)]

/-- `handle`, after the call was recorded. -/
def handle (formats : Formats) (body : Dict) : Except Raised Json := do
  let method := methodOf body
  let requestId := idOf body
  if method = some (lit "initialize") then return result requestId initialized
  if method = some (lit "tools/list") then
    return result requestId (.obj [(lit "tools",.arr TOOLS)])
  if method = some (lit "tools/call") then
    let name ← paramOf body "name"
    let arguments ← paramOf body "arguments"
    match ← knownTool name with
    | none => return error requestId (-32602) (lit "Unknown tool: " ++ formats.repr name)
    | some name =>
      return result requestId (executed formats name (if arguments.truthy then arguments else .obj []))
  if method = some (lit "ping") then return result requestId (.obj [])
  return error requestId (-32601)
    (lit "Method not found: " ++ formats.text ((body.get "method").getD .null))

/-- The response to a post: what cannot be rendered, and what raises, is an internal error. -/
def served (dumps : Json → List UInt8) (formats : Formats) (body : Dict) : Answer :=
  match (handle formats body).toOption.filter renders with
  | some content => .response 200 (lit "application/json") (.ok content) (dumps content)
  | none =>
    .response 500 (lit "text/plain; charset=utf-8") (.error .JSONDecodeError)
      ((lit "Internal Server Error").map fun c => UInt8.ofNat c.val)

/-- `client.post` encodes the headers as ASCII, and raises where it cannot before it sends. -/
def Post.sends (post : Post) : Bool := post.headers.all fun header => header.2.all isAscii

/-- What the gateway gets for a post. -/
def postAnswer (dumps : Json → List UInt8) (formats : Formats) (post : Post) : Answer :=
  if post.sends then served dumps formats post.payload else .exception

def runs (body : Dict) : Option Str :=
  if methodOf body = some (lit "tools/call") then
    ((paramOf body "name").bind knownTool).toOption.join
  else none

theorem knownTool_some {value : Json} {name : Str} (known : knownTool value = .ok (some name)) :
    value = .str name ∧ name ∈ TOOLS.filterMap toolName := by
  cases value with
  | str text =>
    simp only [knownTool,List.contains_iff_mem,Except.ok.injEq] at known
    split_ifs at known with member
    cases known
    exact ⟨rfl,member⟩
  | _ => simp [knownTool] at known

theorem known_wellformed {name : Str} (known : name ∈ TOOLS.filterMap toolName) :
    isWellformedToolName name = true := by
  have all : (TOOLS.filterMap toolName).all isWellformedToolName = true := by decide +kernel
  exact List.all_eq_true.mp all name known

theorem tools_render : TOOLS.all renders = true := by decide +kernel

/-- What the server runs was called by its exact name. -/
theorem runs_some {body : Dict} {name : Str} (run : runs body = some name) :
    CallsTool body (.str name) ∧ name ∈ TOOLS.filterMap toolName := by
  unfold runs at run
  split_ifs at run with method
  cases named : paramOf body "name" with
  | error raised => simp [named,Except.bind,Except.toOption] at run
  | ok value =>
    cases known : knownTool value with
    | error raised => simp [named,known,Except.bind,Except.toOption] at run
    | ok found =>
      simp only [named,known,Except.bind,Except.toOption,Option.join_some] at run
      subst found
      obtain ⟨rfl,member⟩ := knownTool_some known
      refine ⟨⟨method,?_⟩,member⟩
      unfold paramOf at named
      dsimp only at named
      split_ifs at named
      · split at named
        · rename_i params given
          rw [Except.ok.injEq] at named
          refine ⟨params,?_,?_⟩
          · cases held : body.get "params" with
            | none => simp [held] at given
            | some value => simpa [held] using given
          · cases held : Dict.get params "name" with
            | none => simp [held] at named
            | some value => simpa [held] using named
        · cases named
      · simp at named

theorem renders_get {body : Dict} (rendered : renders (.obj body) = true) {key : String}
    {value : Json} (held : body.get key = some value) : renders value = true := by
  rw [renders_obj,List.all_eq_true] at rendered
  obtain ⟨front,back,rfl,_⟩ := List.lookup_eq_some_iff.mp held
  have here := rendered (lit key,value) (by simp)
  simp only [Bool.and_eq_true] at here
  exact here.2

theorem renders_getD {body : Dict} (rendered : renders (.obj body) = true) (key : String) :
    renders ((body.get key).getD .null) = true := by
  cases held : body.get key with
  | none => simp
  | some value => exact renders_get rendered held

variable (formats : Formats)

theorem Formats.text_encodes {value : Json} (rendered : renders value = true) :
    encodes (formats.text value) = true := by
  cases value with
  | str text => simpa [Formats.text] using rendered
  | _ => exact formats.repr_encodes _

theorem known_encodes {name : Str} (known : name ∈ TOOLS.filterMap toolName) :
    encodes name = true := by
  have all : (TOOLS.filterMap toolName).all encodes = true := by decide +kernel
  exact List.all_eq_true.mp all name known

theorem encodes_append (front back : Str) : encodes (front ++ back) = (encodes front && encodes back) := by
  simp [encodes]

theorem result_renders (id payload : Json) :
    renders (result id payload) = (renders id && renders payload) := by
  simp [result,renders_obj,lit_encodes]

theorem handle_runs {body : Dict} {name : Str} (run : runs body = some name)
    (rendered : renders (.obj body) = true) :
    ∃ arguments, handle formats body = .ok (result (idOf body) (executed formats name arguments)) ∧
      renders (result (idOf body) (executed formats name arguments)) = true := by
  obtain ⟨⟨method,params,given,named⟩,known⟩ := runs_some run
  have some : (Json.obj params).truthy = true := by
    cases params with
    | nil => cases named
    | cons entry rest => rfl
  have ofName : paramOf body "name" = .ok (.str name) := by simp [paramOf,given,some,named]
  have ofArguments : paramOf body "arguments" =
      .ok ((Dict.get params "arguments").getD .null) := by simp [paramOf,given,some]
  have argued := renders_getD (renders_get rendered given) "arguments"
  have here : knownTool (.str name) = .ok (Option.some name) := by
    simp [knownTool,known]
  generalize (Dict.get params "arguments").getD .null = arguments at ofArguments argued
  refine ⟨if arguments.truthy then arguments else .obj [],?_,?_⟩
  · have first : lit "tools/call" ≠ lit "initialize" := by decide
    have second : lit "tools/call" ≠ lit "tools/list" := by decide
    simp [handle,method,first,second,ofName,ofArguments,here,bind,Except.bind,pure,Except.pure]
  · have shown : renders (if arguments.truthy then arguments else .obj []) = true := by
      split_ifs
      · exact argued
      · rfl
    rw [result_renders,Bool.and_eq_true]
    refine ⟨renders_getD rendered "id",?_⟩
    have no : renders (.bool false) = true := rfl
    simp [executed,renders_obj,renders_arr,lit_encodes,encodes_append,known_encodes known,
      formats.text_encodes shown,no]

theorem handle_list {body : Dict} (method : methodOf body = some (lit "tools/list")) :
    handle formats body = .ok (result (idOf body) (.obj [(lit "tools",.arr TOOLS)])) := by
  have first : lit "tools/list" ≠ lit "initialize" := by decide
  simp [handle,method,first,pure,Except.pure]

def allowedTools (u : Unicode) (policy : ToolPolicy) (principal : Principal) : List Json :=
  TOOLS.filter fun tool => (toolName tool).any fun name => policy.visibleTo u name principal

theorem visible_toolName (u : Unicode) (policy : ToolPolicy) (principal : Principal) (tool : Json) :
    visible u policy principal tool =
      (toolName tool).any fun name => policy.visibleTo u name principal := by
  cases tool with
  | obj tool =>
    simp only [visible,toolName,Json.dict?,Option.bind_some]
    cases (Dict.get tool "name").bind Json.str? <;> rfl
  | _ => rfl

theorem withoutDenied_list (u : Unicode) (policy : ToolPolicy) (principal : Principal) (id : Json) :
    withoutDenied u policy principal (result id (.obj [(lit "tools",.arr TOOLS)])) =
      result id (.obj [(lit "tools",.arr (allowedTools u policy principal))]) := by
  have same : TOOLS.filter (visible u policy principal) = allowedTools u policy principal :=
    List.filter_congr fun tool _ => visible_toolName u policy principal tool
  rw [← same]
  rfl

theorem authorize_denied {u : Unicode} {policy : ToolPolicy} {principal : Principal}
    (requestId : Str) {body : Dict} {name : Str} (calls : CallsTool body (.str name))
    (known : name ∈ TOOLS.filterMap toolName) (denied : policy.visibleTo u name principal = false) :
    ∃ data, authorize u policy body principal requestId =
      some (rpcError (idOf body) UNAUTHORIZED_TOOL_CALL (lit "Unauthorized Tool Call") data) := by
  obtain ⟨method,params,given,named⟩ := calls
  have formed := known_wellformed known
  have solid : name ≠ [] := by
    rintro rfl
    rw [isWellformedToolName_nil] at formed
    cases formed
  obtain ⟨c,rest,rfl⟩ := List.exists_cons_of_ne_nil solid
  unfold ToolPolicy.visibleTo at denied
  simp only [authorize,method,Option.filter,isWellformedMethod_tools_call,if_true,
    normalizeMethod_tools_call u,ne_eq,not_true_eq_false,if_false,given,named,Option.bind_some,
    Json.str?,formed,Bool.not_true,Bool.false_eq_true,denied]
  exact ⟨_,rfl⟩

section
variable (u : Unicode) (config : Config) (dumps : Json → List UInt8)

/-- A message that the policy lets through is answered with what the server answers. -/
theorem single_served {payload : Dict} {principal : Principal} {requestId : Str} {answer : Answer}
    {content : Json} (read : rpcRequest? (.obj payload) = some payload)
    (passed : authorize u config.policy payload principal requestId = none)
    (answered : answer = served dumps formats payload)
    (handled : handle formats payload = .ok content) (rendered : renders content = true)
    (shaped : wellShaped content = true)
    (delivers : renders (shown u config principal payload content) = true) :
    (handleSingle u config (.obj payload) principal requestId answer).1 =
        [forward config payload principal requestId] ∧
      received (handleSingle u config (.obj payload) principal requestId answer).2 =
        .ok (200,.value (shown u config principal payload content)) := by
  have reply : answer = .response 200 (lit "application/json") (.ok content) (dumps content) := by
    rw [answered,served,handled]
    simp [Except.toOption,Option.filter,rendered]
  simp only [handleSingle,read,passed,true_and]
  rw [reply]
  have document : (lit "text/event-stream").isPrefixOf (lit "application/json") = false := by decide
  obtain ⟨_,sent⟩ | ⟨harm,_⟩ := received_respond u config payload principal requestId 200 content
    (dumps content) document
  · exact sent
  · exact absurd ⟨fun _ => shaped,delivers⟩ harm

/-- One that cannot be sent is answered with an internal error. -/
theorem single_unsent {payload : Dict} {principal : Principal} {requestId : Str} {answer : Answer}
    (read : rpcRequest? (.obj payload) = some payload)
    (passed : authorize u config.policy payload principal requestId = none)
    (raised : answer = .exception) :
    handleSingle u config (.obj payload) principal requestId answer =
      ([forward config payload principal requestId],jsonResponse 500 []
        (rpcError (idOf payload) INTERNAL_ERROR (lit "Internal gateway error")
          (requestIdData requestId))) := by
  simp only [handleSingle,read,passed]
  rw [raised]
  rfl

def Answered (resolve : Option Str → Except AuthError Principal)
    (loads : List UInt8 → Except LoadsError Json) (exchange : Exchange) : Prop :=
  ∀ i post, (proxy u config resolve loads exchange.request exchange.answers).1[i]? = some post →
    exchange.answers i = postAnswer dumps formats post

/-- What a caller gets for a single message. A call of a tool that the server has is denied and
not posted, or posted; where its post is sent, what the server executed comes back, and to the
list the tools that the caller may call; where it is not, an internal error. -/
def Ends (exchange : Exchange) (principal : Principal) (payload : Dict)
    (outcome : List Post × Except Escape Response) : Prop :=
  let post := forward config payload principal exchange.request.requestId
  let internal := jsonResponse 500 [] (rpcError (idOf payload) INTERNAL_ERROR
    (lit "Internal gateway error") (requestIdData exchange.request.requestId))
  (∀ name, runs payload = some name →
    if config.policy.visibleTo u name principal then
      outcome.1 = [post] ∧
        if post.sends then
          ∃ arguments, received outcome.2 =
            .ok (200,.value (result (idOf payload) (executed formats name arguments)))
        else outcome.2 = internal
    else
      outcome.1 = [] ∧ ∃ data, outcome.2 = jsonResponse 200 [] (rpcError (idOf payload)
        UNAUTHORIZED_TOOL_CALL (lit "Unauthorized Tool Call") data)) ∧
  (methodOf payload = some (lit "tools/list") → config.filterToolsList = true →
    if post.sends then
      received outcome.2 = .ok (200,.value (result (idOf payload)
        (.obj [(lit "tools",.arr (allowedTools u config.policy principal))])))
    else outcome.2 = internal)

theorem single_ends {resolve : Option Str → Except AuthError Principal}
    {loads : List UInt8 → Except LoadsError Json} {exchange : Exchange} {principal : Principal}
    {payload : Dict} (answered : Answered formats u config dumps resolve loads exchange)
    (who : resolve exchange.request.authorization = .ok principal)
    (what : loads exchange.request.body = .ok (.obj payload))
    (read : rpcRequest? (.obj payload) = some payload) (rendered : renders (.obj payload) = true) :
    Ends formats u config exchange principal payload
      (proxy u config resolve loads exchange.request exchange.answers) := by
  have single : proxy u config resolve loads exchange.request exchange.answers =
      handleSingle u config (.obj payload) principal exchange.request.requestId
        (exchange.answers 0) := by
    simp [proxy,who,what]
  have first (passed : authorize u config.policy payload principal exchange.request.requestId = none) :
      exchange.answers 0 = postAnswer dumps formats
        (forward config payload principal exchange.request.requestId) := by
    apply answered 0
    rw [single]
    simp [handleSingle,read,passed]
  have sent (passed : authorize u config.policy payload principal exchange.request.requestId = none)
      (sends : (forward config payload principal exchange.request.requestId).sends = true) :
      exchange.answers 0 = served dumps formats payload := by
    rw [first passed,postAnswer,if_pos sends]
    rfl
  have unsent (passed : authorize u config.policy payload principal exchange.request.requestId = none)
      (held : ¬(forward config payload principal exchange.request.requestId).sends = true) :=
    single_unsent u config read passed ((first passed).trans (if_neg held))
  rw [single]
  constructor
  · intro name run
    obtain ⟨calls,known⟩ := runs_some run
    by_cases allowed : config.policy.visibleTo u name principal = true
    · rw [if_pos allowed]
      have passed := (authorize_call u config.policy principal exchange.request.requestId calls).mpr
        ⟨name,rfl,known_wellformed known,allowed⟩
      obtain ⟨arguments,handled,content⟩ := handle_runs formats run rendered
      have open' : filters config payload = false := by
        have other : lit "tools/call" ≠ lit "tools/list" := by decide
        simp [filters,calls.method,other]
      have kept : shown u config principal payload
          (result (idOf payload) (executed formats name arguments)) =
            result (idOf payload) (executed formats name arguments) := by
        simp [shown,open']
      split_ifs with sends
      · have ends := single_served formats u config dumps read passed (sent passed sends) handled
          content rfl (by rw [kept]; exact content)
        rw [kept] at ends
        exact ⟨ends.1,arguments,ends.2⟩
      · rw [unsent passed sends]
        exact ⟨rfl,rfl⟩
    · rw [if_neg allowed]
      obtain ⟨data,denied⟩ := authorize_denied exchange.request.requestId calls known
        (Bool.eq_false_iff.mpr allowed)
      simp only [handleSingle,read,denied,true_and]
      exact ⟨data,rfl⟩
  · intro method on
    have passed : authorize u config.policy payload principal exchange.request.requestId = none := by
      have formed : isWellformedMethod (lit "tools/list") = true := by decide +kernel
      have plain : (lit "tools/list").all isAscii = true := by decide
      have same : normalizeMethod u (lit "tools/list") = lit "tools/list" := by
        rw [normalizeMethod,u.nfkc_ascii _ plain,u.strip_ascii plain (by decide),
          u.casefold_ascii _ plain]
        decide
      have other : lit "tools/list" ≠ lit "tools/call" := by decide
      simp [authorize,method,Option.filter,formed,same,other]
    have shows : shown u config principal payload (result (idOf payload)
        (.obj [(lit "tools",.arr TOOLS)])) = result (idOf payload)
          (.obj [(lit "tools",.arr (allowedTools u config.policy principal))]) := by
      simp only [shown,filters,on,method,decide_true,Bool.and_true,if_true]
      exact withoutDenied_list u config.policy principal (idOf payload)
    have some (tools : List Json) (sound : tools.all renders = true) :
        renders (result (idOf payload) (.obj [(lit "tools",.arr tools)])) = true := by
      rw [result_renders,Bool.and_eq_true]
      refine ⟨renders_getD rendered "id",?_⟩
      simp only [renders_obj,renders_arr,sound,lit_encodes,List.all_cons,List.all_nil,Bool.and_self]
    have fewer : (allowedTools u config.policy principal).all renders = true := by
      rw [List.all_eq_true]
      exact fun tool member => List.all_eq_true.mp tools_render tool (List.mem_filter.mp member).1
    split_ifs with sends
    · have ends := single_served formats u config dumps read passed (sent passed sends)
        (handle_list formats method) (some TOOLS tools_render) rfl
        (by rw [shows]; exact some _ fewer)
      rw [shows] at ends
      exact ends.2
    · rw [unsent passed sends]

end

/-- The formats and the rendering of what is executed without arguments. -/
def emptyFormats : Formats := ⟨fun _ => lit "\x7b\x7d",fun _ => by decide⟩

def executedRecord : List UInt8 :=
  (lit "\x7b\x22jsonrpc\x22:\x222.0\x22,\x22id\x22:1,\x22result\x22:\x7b\x22content\x22:" ++
    lit "[\x7b\x22type\x22:\x22text\x22,\x22text\x22:" ++
    lit "\x22executed get_customer_record with \x7b\x7d\x22\x7d]," ++
    lit "\x22isError\x22:false\x7d\x7d").map
    fun c => UInt8.ofNat c.val

def recordCall : Dict := toolCall (.int 1) (.str (lit "get_customer_record"))

def recordExchange : Exchange :=
  ⟨⟨some (lit "Bearer viewer-token-def456"),lit "r1",[]⟩,
    fun _ => postAnswer (fun _ => executedRecord) emptyFormats
      (forward defaultConfig recordCall viewer (lit "r1"))⟩

end GatewaySuite.Gateway
