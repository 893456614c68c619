import GatewaySuite.Gateway.Batch

/-! The tools that a caller is listed. The filter compares the method exactly, while the
downstream is only assumed to know it up to case: another spelling passes by the filter. -/
namespace GatewaySuite.Gateway
open Python
variable (u : Unicode) (config : Config) (principal : Principal) (requestId : Str)

/-- The descriptor has a name that the policy denies the caller. -/
def deniedTool (policy : ToolPolicy) (tool : Json) : Bool :=
  ((tool.dict?.bind fun tool => Dict.get tool "name").bind Json.str?).any fun name =>
    !(policy.evaluate u name principal).allowed

/-- A listed tool that the policy denies the caller. -/
def listsDenied (policy : ToolPolicy) (body : Json) : Bool :=
  ((listedTools body).getD []).any (deniedTool u principal policy)

theorem visible_allowed {policy : ToolPolicy} {tool : Json}
    (seen : visible u policy principal tool = true) : deniedTool u principal policy tool = false := by
  cases tool with
  | obj tool =>
    unfold visible at seen
    dsimp only at seen
    split at seen
    next name named => simpa [deniedTool,Json.dict?,named,ToolPolicy.visibleTo] using seen
    next => cases seen
  | _ => rfl

theorem listedTools_withoutDenied (policy : ToolPolicy) (body : Json) :
    listedTools (withoutDenied u policy principal body) =
      (listedTools body).map (List.filter (visible u policy principal)) := by
  cases body with
  | obj body =>
    cases given : Dict.get body "result" with
    | none => simp [withoutDenied,listedTools,Json.dict?,given]
    | some result =>
      cases result with
      | obj result =>
        cases listed : Dict.get result "tools" with
        | none => simp [withoutDenied,listedTools,Json.dict?,given,listed]
        | some tools => cases tools <;> simp [withoutDenied,listedTools,Json.dict?,given,listed]
      | _ => simp [withoutDenied,listedTools,Json.dict?,given]
  | _ => rfl

theorem withoutDenied_hides (policy : ToolPolicy) (body : Json) :
    listsDenied u principal policy (withoutDenied u policy principal body) = false := by
  rw [listsDenied,listedTools_withoutDenied,List.any_eq_false]
  cases listedTools body with
  | none => simp
  | some tools =>
    intro tool kept
    have seen := (List.mem_filter.mp kept).2
    simp [visible_allowed u principal seen]

theorem rpcError_hides (policy : ToolPolicy) (id : Json) (code : Int) (message : Str)
    (data : Option Dict) : listsDenied u principal policy (rpcError id code message data) = false := by
  cases data <;> rfl

/-- The tools that stand in what a caller receives; `read` finds them in a stream. -/
def Payload.tools (read : List UInt8 → List Json) : Payload → List Json
  | .value content => (listedTools content).getD []
  | .bytes raw => read raw

/-- Nothing that the caller receives lists a tool that the policy denies it. -/
def Hides (read : List UInt8 → List Json) (outcome : Except Escape Response) : Prop :=
  ∀ status payload, received outcome = .ok (status,payload) →
    (payload.tools read).any (deniedTool u principal config.policy) = false

theorem hides_jsonResponse (read : List UInt8 → List Json) (status : Nat)
    (headers : List (Str × Str)) (content : Json) :
    Hides u config principal read (jsonResponse status headers content) ↔
      (renders content = true → listsDenied u principal config.policy content = false) := by
  unfold Hides
  obtain ⟨rendered,sent⟩ | ⟨refused,escape,raised⟩ := received_json status headers content
  · simp only [sent,rendered,Except.ok.injEq,Prod.mk.injEq,forall_const]
    exact ⟨fun hides => hides status _ ⟨rfl,rfl⟩,by rintro hides _ _ ⟨rfl,rfl⟩; exact hides⟩
  · simp [raised,refused]

theorem authorize_list {payload : Dict} {method : Str} (spelled : methodOf payload = some method)
    (formed : isWellformedMethod method = true) (folds : normalizeMethod u method = lit "tools/list") :
    authorize u config.policy payload principal requestId = none := by
  have other : lit "tools/list" ≠ lit "tools/call" := by decide
  simp [authorize,spelled,Option.filter,formed,folds,other]

/-- The JSON reply that a single message is answered with, if it can be sent on. -/
def sendable : Answer → Option Json
  | .response _ contentType (.ok body) _ =>
    if (lit "text/event-stream").isPrefixOf contentType || !renders body then none else some body
  | _ => none

/-- The JSON value of a reply. -/
def replied : Answer → Option Json
  | .response _ _ (.ok body) _ => some body
  | _ => none

theorem respond_hides (on : config.filterToolsList = true) (read : List UInt8 → List Json)
    (payload : Dict) (answer : Answer) :
    Hides u config principal read (respond u config payload principal requestId answer) ↔
      methodOf payload = some (lit "tools/list") ∨
        ∀ body, sendable answer = some body → listsDenied u principal config.policy body = false := by
  have error (status : Nat) (headers : List (Str × Str)) (code : Int) (message : Str)
      (data : Option Dict) : Hides u config principal read
        (jsonResponse status headers (rpcError (idOf payload) code message data)) :=
    (hides_jsonResponse u config principal read _ _ _).mpr fun _ => rpcError_hides u principal _ _ _ _ _
  cases answer with
  | timeout => exact iff_of_true (error _ _ _ _ _) (Or.inr (by simp [sendable]))
  | httpError => exact iff_of_true (error _ _ _ _ _) (Or.inr (by simp [sendable]))
  | exception => exact iff_of_true (error _ _ _ _ _) (Or.inr (by simp [sendable]))
  | response status contentType json raw =>
    cases stream : (lit "text/event-stream").isPrefixOf contentType with
    | true =>
      -- The body was read by the post: the stream raises before its first byte.
      refine iff_of_true ?_ (Or.inr ?_)
      · intro status' received? sent
        simp [respond,stream,received,Except.bind,Response.send,aiterRaw,Except.map] at sent
      · cases json <;> simp [sendable,stream]
    | false =>
      cases json with
      | error raised =>
        refine iff_of_true ?_ (Or.inr (by simp [sendable]))
        cases raised with
        | RecursionError =>
          intro status' received? sent
          simp [respond,stream,received,Except.bind] at sent
        | JSONDecodeError => simpa [respond,stream] using error _ _ _ _ _
        | ValueError => simpa [respond,stream] using error _ _ _ _ _
      | ok body =>
        have sent := received_respond u config payload principal requestId status body raw stream
        by_cases exact : methodOf payload = some (lit "tools/list")
        · have filtered : filters config payload = true := by simp [filters,on,exact]
          refine iff_of_true ?_ (Or.inl exact)
          intro status' received' out
          obtain ⟨_,shows⟩ | ⟨_,escape,raises⟩ := sent
          · rw [shows,shown,filtered,if_pos rfl] at out
            cases out
            exact withoutDenied_hides u principal config.policy body
          · rw [raises] at out
            cases out
        · have unfiltered : filters config payload = false := by simp [filters,exact]
          simp only [shown,unfiltered,Bool.false_eq_true,if_false,false_implies,true_and] at sent
          rw [or_iff_right exact]
          unfold Hides
          obtain ⟨rendered,shows⟩ | ⟨refused,escape,raises⟩ := sent
          · simp only [shows,sendable,stream,rendered,Except.ok.injEq,Prod.mk.injEq,Bool.not_true,
              Bool.or_self,Bool.false_eq_true,if_false,Option.some.injEq,forall_eq']
            exact ⟨fun hides => hides status _ ⟨rfl,rfl⟩,by rintro hides _ _ ⟨rfl,rfl⟩; exact hides⟩
          · simp [raises,sendable,stream,refused]

/-- What a batch responds to entry `i` lists no tool that the policy denies the caller. -/
def HidesAt (entries : List Json) (i : Nat) (outcome : Except Escape Response) : Prop :=
  ∀ status responses response, received outcome = .ok (status,.value (.arr responses)) →
    responses[(entries.take i).countP owed]? = some response →
    listsDenied u principal config.policy response = false

theorem shown_batchBody_hides (on : config.filterToolsList = true) (payload : Dict) (answer : Answer) :
    listsDenied u principal config.policy (shown u config principal payload
        (batchBody payload requestId answer)) = false ↔
      methodOf payload = some (lit "tools/list") ∨
        ∀ body, replied answer = some body → listsDenied u principal config.policy body = false := by
  by_cases exact : methodOf payload = some (lit "tools/list")
  · have filtered : filters config payload = true := by simp [filters,on,exact]
    rw [shown,filtered,if_pos rfl]
    exact iff_of_true (withoutDenied_hides u principal config.policy _) (Or.inl exact)
  · have unfiltered : filters config payload = false := by simp [filters,exact]
    rw [or_iff_right exact,shown,unfiltered,if_neg Bool.false_ne_true]
    cases answer with
    | response status contentType json raw =>
      cases json with
      | error raised => simp [batchBody,replied,rpcError_hides]
      | ok body => simp [replied,batchBody]
    | _ => simp [batchBody,replied,rpcError_hides]

/-- The number of posts before that of entry `i`. -/
def postsBefore (entries : List Json) (i : Nat) : Nat :=
  ((entries.take i).filterMap (forwards u config principal requestId)).length

theorem batch_hides (on : config.filterToolsList = true) {entries : List Json} {i : Nat}
    {payload : Dict} (entry : entries[i]? = some (.obj payload))
    (request : rpcRequest? (.obj payload) = some payload)
    (passed : authorize u config.policy payload principal requestId = none)
    (identified : (idOf payload).notNone = true) (answers : Nat → Answer) :
    HidesAt u config principal entries i
        (handleBatch u config entries principal requestId answers).2 ↔
      methodOf payload = some (lit "tools/list") ∨
        ((∀ x ∈ asked u config principal requestId answers entries 0,
            Harmless u config principal requestId x) →
          ∀ body, replied (answers (postsBefore u config principal requestId entries i)) = some body →
            listsDenied u principal config.policy body = false) := by
  have made : forwards u config principal requestId (.obj payload) = some payload := by
    simp [forwards,request,Option.filter,passed]
  have own : (responses u config principal requestId answers entries)[i]? =
      some (some (shown u config principal payload (batchBody payload requestId
        (answers (postsBefore u config principal requestId entries i))))) := by
    simp [responses,asked_get,entry,made,ownResponse,request,identified,postsBefore]
  have place := response_place u config principal requestId entries answers own
  obtain ⟨harmless,returns⟩ | ⟨harm,escape,raises⟩ :=
    handleBatch_returns u config principal requestId entries answers
  · have sent : received (handleBatch u config entries principal requestId answers).2 = .ok
        (200,.value (.arr (responses u config principal requestId answers entries).reduceOption)) := by
      rw [returns,received,batchResponse,if_neg]
      · rfl
      · intro empty
        rw [List.isEmpty_iff.mp empty] at place
        cases place
    have seen : HidesAt u config principal entries i
          (handleBatch u config entries principal requestId answers).2 ↔
        listsDenied u principal config.policy (shown u config principal payload (batchBody payload
          requestId (answers (postsBefore u config principal requestId entries i)))) = false := by
      unfold HidesAt
      simp only [sent,Except.ok.injEq,Prod.mk.injEq]
      constructor
      · exact fun hides => hides 200 _ _ ⟨rfl,rfl⟩ place
      · rintro hides _ _ response ⟨rfl,same⟩ found
        cases same
        rw [place,Option.some.injEq] at found
        exact found ▸ hides
    rw [seen,shown_batchBody_hides u config principal requestId on]
    exact or_congr Iff.rfl ⟨fun hides _ => hides,fun hides => hides harmless⟩
  · refine iff_of_true ?_ (Or.inr fun harmless => absurd harmless harm)
    intro status responses response sent
    rw [raises] at sent
    cases sent

/-- A caller whose filter is on is listed no denied tool exactly if the method is spelled as the
filter compares it, or the reply that is sent on lists none to begin with. -/
theorem denied_tools_hidden (resolve : Option Str → Except AuthError Principal)
    (loads : List UInt8 → Except LoadsError Json) (request : Request)
    (who : resolve request.authorization = .ok principal) (on : config.filterToolsList = true)
    {payload : Dict} {method : Str} (formal : rpcRequest? (.obj payload) = some payload)
    (spelled : methodOf payload = some method) (formed : isWellformedMethod method = true)
    (folds : normalizeMethod u method = lit "tools/list") (read : List UInt8 → List Json)
    (answers : Nat → Answer) :
    (loads request.body = .ok (.obj payload) →
      (Hides u config principal read (proxy u config resolve loads request answers).2 ↔
        method = lit "tools/list" ∨ ∀ body, sendable (answers 0) = some body →
          listsDenied u principal config.policy body = false)) ∧
    ∀ entries i, loads request.body = .ok (.arr entries) → config.allowBatch = true →
      entries[i]? = some (.obj payload) →
      ((owed (.obj payload) = true →
          HidesAt u config principal entries i (proxy u config resolve loads request answers).2) ↔
        method = lit "tools/list" ∨ (owed (.obj payload) = true →
          (∀ x ∈ asked u config principal request.requestId answers entries 0,
            Harmless u config principal request.requestId x) →
          ∀ body, replied (answers (postsBefore u config principal request.requestId entries i)) =
            some body → listsDenied u principal config.policy body = false)) := by
  have passed := authorize_list u config principal request.requestId spelled formed folds
  have exactly : methodOf payload = some (lit "tools/list") ↔ method = lit "tools/list" := by
    rw [spelled,Option.some.injEq]
  constructor
  · intro parsed
    have single : (proxy u config resolve loads request answers).2 =
        respond u config payload principal request.requestId (answers 0) := by
      simp [proxy,who,parsed,handleSingle,formal,passed]
    rw [single,respond_hides u config principal request.requestId on,exactly]
  · intro entries i parsed batching entry
    have batch : (proxy u config resolve loads request answers).2 =
        (handleBatch u config entries principal request.requestId answers).2 := by
      simp [proxy,who,parsed,batching]
    have owes : owed (.obj payload) = (idOf payload).notNone := by simp [owed,formal]
    rw [batch,owes]
    cases identified : (idOf payload).notNone with
    | false => simp
    | true =>
      simp only [forall_const]
      rw [batch_hides u config principal request.requestId on entry formal passed identified,exactly]

def filterConfig : Config := { defaultConfig with filterToolsList := true }

def resolveViewer : Option Str → Except AuthError Principal :=
  resolvePrincipal asciiUnicode id [(lit "viewer-token-def456",viewer)]

def viewerRequest : Request := ⟨some (lit "Bearer viewer-token-def456"),lit "r1",[]⟩

def listRequest (method : String) : Dict :=
  [(lit "jsonrpc",.str (lit "2.0")),(lit "id",.int 1),(lit "method",.str (lit method))]

def adminTools : Json :=
  .obj [(lit "jsonrpc",.str (lit "2.0")),(lit "id",.int 1),(lit "result",
    .obj [(lit "tools",.arr [.obj [(lit "name",.str (lit "admin_reset_key"))]])])]

def listAdminTools : Nat → Answer :=
  fun _ => .response 200 (lit "application/json") (.ok adminTools) []

theorem denied_tools_hidden_viewer :
    Hides asciiUnicode filterConfig viewer (fun _ => []) (proxy asciiUnicode filterConfig resolveViewer
      (fun _ => .ok (.obj (listRequest "tools/list"))) viewerRequest listAdminTools).2 :=
  ((denied_tools_hidden asciiUnicode filterConfig viewer resolveViewer
    (fun _ => .ok (.obj (listRequest "tools/list"))) viewerRequest (by rfl) rfl (by rfl)
    (by rfl : methodOf (listRequest "tools/list") = some (lit "tools/list")) (by decide +kernel)
    (by decide +kernel) (fun _ => []) listAdminTools).1 rfl).mpr (Or.inl rfl)

/-- A capital in the method passes by the filter, and the viewer is listed an admin tool. -/
theorem shouted_list_leaks :
    ¬ Hides asciiUnicode filterConfig viewer (fun _ => []) (proxy asciiUnicode filterConfig resolveViewer
      (fun _ => .ok (.obj (listRequest "Tools/List"))) viewerRequest listAdminTools).2 := by
  intro hides
  have sent : received (proxy asciiUnicode filterConfig resolveViewer
      (fun _ => .ok (.obj (listRequest "Tools/List"))) viewerRequest listAdminTools).2 =
        .ok (200,.value adminTools) := by rfl
  have denied : (Payload.tools (fun _ => []) (.value adminTools)).any
      (deniedTool asciiUnicode viewer filterConfig.policy) = true := by decide +kernel
  rw [hides 200 _ sent] at denied
  cases denied

end GatewaySuite.Gateway
