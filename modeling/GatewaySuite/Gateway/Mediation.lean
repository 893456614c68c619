import GatewaySuite.Gateway.Proxy

/-! Every message that reaches the downstream was judged first: it is an entry of the
request, and if it folds to a tool call, the policy allows its tool for the caller. -/
namespace GatewaySuite.Gateway
open Python
variable (u : Unicode) (config : Config)

structure Exchange where
  request : Request
  answers : Nat → Answer

/-- A posted message that `authorize` let through for a principal. -/
structure Mediated (principal : Principal) (payload : Dict) : Prop where
  method : ∃ method, methodOf payload = some method ∧ isWellformedMethod method = true
  judged : ∀ method, methodOf payload = some method →
    normalizeMethod u method = lit "tools/call" →
    ∃ params name, payload.get "params" = some (.obj params) ∧
      Dict.get params "name" = some (.str name) ∧
      1 ≤ name.length ∧ name.length ≤ 128 ∧ (∀ c ∈ name, toolChar c = true) ∧
      (config.policy.evaluate u name principal).allowed = true

theorem authorize_none {payload : Dict} {principal : Principal} {requestId : Str}
    (passed : authorize u config.policy payload principal requestId = none) :
    Mediated u config principal payload := by
  unfold authorize at passed
  split at passed
  next => cases passed
  next method good =>
    obtain ⟨found,formed⟩ := Option.filter_eq_some_iff.mp good
    refine ⟨⟨method,found,formed⟩,fun method' same call => ?_⟩
    rw [found,Option.some.injEq] at same
    subst method'
    simp only [call,ne_eq,not_true_eq_false,if_false] at passed
    split at passed
    next params given =>
      split at passed
      next => cases passed
      next => cases passed
      next name nonempty named =>
        split_ifs at passed with malformed allowed
        have matched : isWellformedToolName name = true := by simpa using malformed
        obtain ⟨least,most,chars⟩ : _ ∧ _ ∧ ∀ c ∈ name, toolChar c = true :=
          nameRegex_matches matched
        have value : Dict.get params "name" = some (.str name) := by
          obtain ⟨json,held,text⟩ := Option.bind_eq_some_iff.mp named
          cases json <;> simp_all [Json.str?]
        exact ⟨params,name,given,value,least,most,chars,allowed⟩
    next => cases passed

/-- A post that `proxy` makes for a payload of the request, judged for its principal. -/
def Judged (principal : Principal) (requestId : Str) (payloads : List Json) (post : Post) : Prop :=
  .obj post.payload ∈ payloads ∧ post.headers = downstreamHeaders config principal requestId ∧
    Mediated u config principal post.payload

theorem rpcRequest?_some {entry : Json} {payload : Dict} (read : rpcRequest? entry = some payload) :
    entry = .obj payload := by
  unfold rpcRequest? at read
  split at read
  next fields =>
    split_ifs at read
    cases read
    rfl
  next => cases read

theorem batchLoop_judged (principal : Principal) (requestId : Str) (answers : Nat → Answer)
    (entries : List Json) (sent : Nat) :
    ∀ post ∈ (batchLoop u config principal requestId answers entries sent).1,
      Judged u config principal requestId entries post := by
  induction entries generalizing sent with
  | nil => simp [batchLoop]
  | cons entry rest ih =>
    have later (n : Nat) : ∀ post ∈ (batchLoop u config principal requestId answers rest n).1,
        Judged u config principal requestId (entry::rest) post := by
      intro post member
      obtain ⟨inside,headers,mediated⟩ := ih n post member
      exact ⟨List.mem_cons_of_mem entry inside,headers,mediated⟩
    simp only [batchLoop]
    split
    next => exact later sent
    next payload read =>
      have first : ∀ post ∈ [forward config payload principal requestId],
          authorize u config.policy payload principal requestId = none →
          Judged u config principal requestId (entry::rest) post := by
        intro post member passed
        rw [List.mem_singleton] at member
        subst post
        exact ⟨rpcRequest?_some read ▸ List.mem_cons_self,rfl,authorize_none u config passed⟩
      split
      next => exact later sent
      next passed =>
        split
        next => exact fun post member => first post member passed
        next =>
          intro post member
          rcases List.mem_cons.mp member with same | behind
          · exact first post (List.mem_singleton.mpr same) passed
          · exact later (sent+1) post behind

theorem handleSingle_judged (principal : Principal) (requestId : Str) (answer : Answer)
    (payload : Json) : ∀ post ∈ (handleSingle u config payload principal requestId answer).1,
      Judged u config principal requestId [payload] post := by
  intro post member
  unfold handleSingle at member
  split at member
  next => simp at member
  next fields read =>
    split at member
    next => simp at member
    next passed =>
      rw [List.mem_singleton] at member
      subst post
      refine ⟨?_,rfl,authorize_none u config passed⟩
      rw [rpcRequest?_some read]
      exact List.mem_cons_self

/-- What a request body carries: itself, or its entries when batching is on. -/
def carried (parsed : Json) : List Json :=
  match parsed with
  | .arr entries => if config.allowBatch then entries else []
  | payload => [payload]

theorem proxy_judged (resolve : Option Str → Except AuthError Principal)
    (loads : List UInt8 → Except LoadsError Json) (request : Request) (answers : Nat → Answer) :
    ∀ post ∈ (proxy u config resolve loads request answers).1,
      ∃ principal parsed, resolve request.authorization = .ok principal ∧
        loads request.body = .ok parsed ∧
        Judged u config principal request.requestId (carried config parsed) post := by
  intro post member
  unfold proxy at member
  cases who : resolve request.authorization with
  | error refused => simp [who] at member
  | ok principal =>
    simp only [who] at member
    cases what : loads request.body with
    | error raised => simp [what] at member
    | ok parsed =>
      refine ⟨principal,parsed,rfl,rfl,?_⟩
      simp only [what] at member
      cases parsed with
      | arr entries =>
        simp only [carried]
        split_ifs at member ⊢ with batching
        · exact batchLoop_judged u config principal request.requestId answers entries 0 post member
        · simp at member
      | null => exact handleSingle_judged u config principal request.requestId _ _ post member
      | bool value => exact handleSingle_judged u config principal request.requestId _ _ post member
      | int value => exact handleSingle_judged u config principal request.requestId _ _ post member
      | float bits => exact handleSingle_judged u config principal request.requestId _ _ post member
      | str value => exact handleSingle_judged u config principal request.requestId _ _ post member
      | obj fields => exact handleSingle_judged u config principal request.requestId _ _ post member

/-- A downstream that is lenient about names, but only up to compatibility form, blanks around
and case: it takes a method for a tool call, and resolves a tool name, only if these agree. -/
structure Downstream where
  calls : Str → Prop
  resolves : Str → Str → Prop
  calls_folds : ∀ method, calls method →
    u.casefold (u.strip (u.nfkc method)) = u.casefold (u.strip (u.nfkc (lit "tools/call")))
  resolves_folds : ∀ name tool, resolves name tool →
    u.casefold (u.strip (u.nfkc name)) = u.casefold (u.strip (u.nfkc tool))

def Downstream.Executes {u : Unicode} (downstream : Downstream u) (payload : Dict) (tool : Str) :
    Prop :=
  ∃ method params name, methodOf payload = some method ∧ downstream.calls method ∧
    payload.get "params" = some (.obj params) ∧ Dict.get params "name" = some (.str name) ∧
    downstream.resolves name tool

theorem normalizeMethod_tools_call : normalizeMethod u (lit "tools/call") = lit "tools/call" := by
  have plain : (lit "tools/call").all isAscii = true := by decide
  rw [normalizeMethod,u.nfkc_ascii _ plain,u.strip_ascii plain (by decide),u.casefold_ascii _ plain]
  decide

def posted (resolve : Option Str → Except AuthError Principal)
    (loads : List UInt8 → Except LoadsError Json) (exchanges : List Exchange) : List Post :=
  exchanges.flatMap fun exchange => (proxy u config resolve loads exchange.request exchange.answers).1

/-- Every message posted downstream is an entry of a request, judged for its caller; and no
requests of callers outside a rule's roles make a folding downstream run a tool that the
rule is the first to match. -/
theorem complete_mediation (resolve : Option Str → Except AuthError Principal)
    (loads : List UInt8 → Except LoadsError Json) (exchanges : List Exchange) :
    (∀ post ∈ posted u config resolve loads exchanges, ∃ exchange ∈ exchanges, ∃ principal parsed,
      resolve exchange.request.authorization = .ok principal ∧
      loads exchange.request.body = .ok parsed ∧
      Judged u config principal exchange.request.requestId (carried config parsed) post) ∧
    ∀ (downstream : Downstream u) (tool start : Str) (roles : List Str),
      config.policy.firstRule (normalizeToolName u tool) = some (start,roles) →
      (∀ exchange ∈ exchanges, ∀ principal,
        resolve exchange.request.authorization = .ok principal → principal.role ∉ roles) →
      ∀ post ∈ posted u config resolve loads exchanges, ¬ downstream.Executes post.payload tool := by
  have judged : ∀ post ∈ posted u config resolve loads exchanges, ∃ exchange ∈ exchanges,
      ∃ principal parsed, resolve exchange.request.authorization = .ok principal ∧
        loads exchange.request.body = .ok parsed ∧
        Judged u config principal exchange.request.requestId (carried config parsed) post := by
    intro post member
    obtain ⟨exchange,inside,sent⟩ := List.mem_flatMap.mp member
    exact ⟨exchange,inside,proxy_judged u config resolve loads _ _ post sent⟩
  refine ⟨judged,?_⟩
  rintro downstream tool start roles rule outside post member
    ⟨method,params,name,called,calls,given,named,resolves⟩
  obtain ⟨exchange,inside,principal,parsed,who,_,_,_,mediated⟩ := judged post member
  have folded : normalizeMethod u method = lit "tools/call" :=
    (downstream.calls_folds method calls).trans (normalizeMethod_tools_call u)
  obtain ⟨params',name',given',named',_,_,_,allowed⟩ := mediated.judged method called folded
  rw [given,Option.some.injEq,Json.obj.injEq] at given'
  subst params'
  rw [named,Option.some.injEq,Json.str.injEq] at named'
  subst name'
  have same : normalizeToolName u name = normalizeToolName u tool :=
    downstream.resolves_folds name tool resolves
  rw [← same] at rule
  exact outside exchange inside principal who (firstRule_evaluate u config.policy rule allowed)

def viewer : Principal := ⟨lit "grace@example.com",lit "viewer",lit "acme"⟩

def defaultConfig : Config :=
  ⟨⟨[(lit "admin_",[lit "admin"])],true⟩,false,true,lit "gateway-service-token"⟩

/-- A tool call that spells the method and the tool in capitals. -/
def shoutedCall : Json :=
  .obj [(lit "jsonrpc",.str (lit "2.0")),(lit "id",.int 1),(lit "method",.str (lit "TOOLS/CALL")),
    (lit "params",.obj [(lit "name",.str (lit "ADMIN_reset_key"))])]

def foldingDownstream : Downstream asciiUnicode where
  calls := fun method => normalizeMethod asciiUnicode method = lit "tools/call"
  resolves := fun name tool => normalizeToolName asciiUnicode name = normalizeToolName asciiUnicode tool
  calls_folds := fun _ folded => folded.trans (normalizeMethod_tools_call asciiUnicode).symm
  resolves_folds := fun _ _ folded => folded

theorem complete_mediation_viewer :
    let resolve := resolvePrincipal asciiUnicode id [(lit "viewer-token-def456",viewer)]
    let exchanges : List Exchange :=
      [⟨⟨some (lit "Bearer viewer-token-def456"),lit "r1",[]⟩,fun _ => .timeout⟩]
    ∀ post ∈ posted asciiUnicode defaultConfig resolve (fun _ => .ok shoutedCall) exchanges,
      ¬ foldingDownstream.Executes post.payload (lit "admin_reset_key") := by
  intro resolve exchanges
  apply (complete_mediation asciiUnicode defaultConfig resolve (fun _ => .ok shoutedCall) exchanges).2
    foldingDownstream (lit "admin_reset_key") (lit "admin_") [lit "admin"] (by decide +kernel)
  intro exchange member principal who
  rw [List.mem_singleton] at member
  subst exchange
  have known : resolve (some (lit "Bearer viewer-token-def456")) = .ok viewer := by rfl
  rw [known,Except.ok.injEq] at who
  subst principal
  decide +kernel

end GatewaySuite.Gateway
