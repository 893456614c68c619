import GatewaySuite.Gateway.Listing

/-! What passes through the endpoint. A reply that is a JSON value reaches the caller as it is,
as long as it renders; the stream of a reply that the post has read already never does. -/
namespace GatewaySuite.Gateway
open Python
variable (u : Unicode) (config : Config) (principal : Principal) (requestId : Str)

/-- What an authorised message is owed for a reply: its status, with the bytes of a stream or
the value of a JSON reply less the tools that the filter removes. Where that value cannot be
rendered, a clean error is owed in its place. -/
def Passes (payload : Dict) (answer : Answer) (delivered : Except Escape (Nat × Payload)) : Prop :=
  match answer with
  | .response status contentType json raw =>
    if (lit "text/event-stream").isPrefixOf contentType then delivered = .ok (status,.bytes raw)
    else ∀ body, json = .ok body →
      if renders (shown u config principal payload body) then
        delivered = .ok (status,.value (shown u config principal payload body))
      else ∃ status code message data,
        delivered = .ok (status,.value (rpcError (idOf payload) code message data))
  | _ => True

/-- A reply that the endpoint can pass on or answer for: no stream; a JSON value that the filter
takes and that renders; otherwise a failure whose error can be encoded. -/
def Smooth (payload : Dict) : Answer → Prop
  | .response _ contentType json _ =>
    (lit "text/event-stream").isPrefixOf contentType = false ∧
      match json with
      | .ok body => (filters config payload = true → wellShaped body = true) ∧
        renders (shown u config principal payload body) = true
      | .error .RecursionError => False
      | .error _ => renders (idOf payload) = true ∧ encodes requestId = true
  | _ => renders (idOf payload) = true ∧ encodes requestId = true

def Returns (outcome : Except Escape Response) : Prop :=
  ∃ status payload, received outcome = .ok (status,payload)

theorem returns_json (status : Nat) (headers : List (Str × Str)) (content : Json) :
    Returns (jsonResponse status headers content) ↔ renders content = true := by
  unfold Returns
  obtain ⟨rendered,sent⟩ | ⟨refused,escape,raised⟩ := received_json status headers content
  · exact iff_of_true ⟨_,_,sent⟩ rendered
  · simp [raised,refused]

theorem returns_error (status : Nat) (headers : List (Str × Str)) (id : Json) (code : Int)
    (message : String) : Returns (jsonResponse status headers
        (rpcError id code (lit message) (requestIdData requestId))) ↔
      renders id = true ∧ encodes requestId = true := by
  rw [returns_json,rpcError_renders,requestIdData_renders,Bool.and_eq_true]

/-- The caller of an authorised message is served exactly if the reply is smooth. -/
theorem respond_transparent (payload : Dict) (answer : Answer) :
    (Returns (respond u config payload principal requestId answer) ∧
      Passes u config principal payload answer
        (received (respond u config payload principal requestId answer))) ↔
      Smooth u config principal requestId payload answer := by
  cases answer with
  | timeout => simpa [Passes,Smooth,respond] using returns_error requestId 504 [] (idOf payload) _ _
  | httpError => simpa [Passes,Smooth,respond] using returns_error requestId 502 [] (idOf payload) _ _
  | exception => simpa [Passes,Smooth,respond] using returns_error requestId 500 [] (idOf payload) _ _
  | response status contentType json raw =>
    cases stream : (lit "text/event-stream").isPrefixOf contentType with
    | true =>
      have consumed : received (respond u config payload principal requestId
          (.response status contentType json raw)) = .error .StreamConsumed := by
        simp [respond,stream,received,Except.bind,Response.send,aiterRaw,Except.map]
      simp [Returns,consumed,Smooth,stream]
    | false =>
      cases json with
      | error raised =>
        cases raised with
        | RecursionError => simp [Returns,respond,stream,received,Except.bind,Smooth]
        | JSONDecodeError =>
          simpa [Passes,Smooth,respond,stream] using returns_error requestId 502 [] (idOf payload) _ _
        | ValueError =>
          simpa [Passes,Smooth,respond,stream] using returns_error requestId 502 [] (idOf payload) _ _
      | ok body =>
        obtain ⟨smooth,shows⟩ | ⟨rough,escape,raises⟩ :=
          received_respond u config payload principal requestId status body raw stream
        · refine iff_of_true ⟨⟨_,_,shows⟩,?_⟩ ⟨stream,smooth⟩
          simp [Passes,stream,smooth.2,shows]
        · simp only [Returns,raises,Smooth,stream,rough]
          simp

/-- What the endpoint can serve of a parsed request: every entry of a batch is harmless; what a
refusal of a single message quotes can be encoded; the reply to a forwarded one is smooth. -/
def Servable (answers : Nat → Answer) : Json → Prop
  | .arr entries => config.allowBatch = true →
    ∀ x ∈ asked u config principal requestId answers entries 0, Harmless u config principal requestId x
  | parsed =>
    match rpcRequest? parsed with
    | none => renders ((parsed.dict?.map idOf).getD .null) = true
    | some payload =>
      match authorize u config.policy payload principal requestId with
      | some _ => renders (idOf payload) = true ∧
          (quoted u config.policy payload principal requestId).all encodes = true
      | none => Smooth u config principal requestId payload (answers 0)

/-- The endpoint answers, and passes the reply to an authorised single message on. -/
structure Transparent (parsed : Except LoadsError Json) (answer : Answer)
    (outcome : Except Escape Response) : Prop where
  returns : Returns outcome
  passes : ∀ value payload, parsed = .ok value →
    forwards u config principal requestId value = some payload →
    Passes u config principal payload answer (received outcome)

theorem transparent_unsent {value : Json} {answer : Answer} {outcome : Except Escape Response}
    (unsent : forwards u config principal requestId value = none) :
    Transparent u config principal requestId (.ok value) answer outcome ↔ Returns outcome := by
  refine ⟨fun transparent => transparent.returns,fun returns => ⟨returns,?_⟩⟩
  intro _ _ same sent
  cases same
  rw [unsent] at sent
  cases sent

theorem single_transparent (answers : Nat → Answer) (parsed : Json) (single : ∀ entries, parsed ≠ .arr entries) :
    Transparent u config principal requestId (.ok parsed) (answers 0)
        (handleSingle u config parsed principal requestId (answers 0)).2 ↔
      Servable u config principal requestId answers parsed := by
  have served : Servable u config principal requestId answers parsed ↔
      match rpcRequest? parsed with
      | none => renders ((parsed.dict?.map idOf).getD .null) = true
      | some payload =>
        match authorize u config.policy payload principal requestId with
        | some _ => renders (idOf payload) = true ∧
            (quoted u config.policy payload principal requestId).all encodes = true
        | none => Smooth u config principal requestId payload (answers 0) := by
    cases parsed <;> first | rfl | exact absurd rfl (single _)
  rw [served]
  cases made : forwards u config principal requestId parsed with
  | none =>
    rw [transparent_unsent u config principal requestId made]
    obtain invalid | ⟨payload,denial,read,denied⟩ := forwards_none u config principal requestId made
    · simp [handleSingle,invalid,returns_json,rpcError_renders]
    · simp [handleSingle,read,denied,returns_json,denial_renders u denied]
  | some payload =>
    obtain ⟨read,passed⟩ := forwards_some u config principal requestId made
    simp only [handleSingle,read,passed,← respond_transparent]
    constructor
    · exact fun transparent => ⟨transparent.returns,transparent.passes parsed payload rfl made⟩
    · rintro ⟨returns,passes⟩
      refine ⟨returns,fun value payload' same sent => ?_⟩
      cases same
      rw [made,Option.some.injEq] at sent
      exact sent ▸ passes

theorem returns_batch (entries : List Json) (answers : Nat → Answer) :
    Returns (handleBatch u config entries principal requestId answers).2 ↔
      ∀ x ∈ asked u config principal requestId answers entries 0,
        Harmless u config principal requestId x := by
  obtain ⟨harmless,returns⟩ | ⟨harm,escape,raises⟩ :=
    handleBatch_returns u config principal requestId entries answers
  · refine iff_of_true ?_ harmless
    rw [returns]
    unfold batchResponse
    split_ifs
    · exact ⟨_,_,rfl⟩
    · exact ⟨_,_,rfl⟩
  · refine iff_of_false ?_ harm
    rintro ⟨status,payload,sent⟩
    rw [raises] at sent
    cases sent

/-- An authenticated request is answered, and its reply passed on, exactly if what it carries
can be served. -/
theorem proxy_transparent (resolve : Option Str → Except AuthError Principal)
    (loads : List UInt8 → Except LoadsError Json) (request : Request) (answers : Nat → Answer)
    (who : resolve request.authorization = .ok principal) :
    Transparent u config principal request.requestId (loads request.body) (answers 0)
        (proxy u config resolve loads request answers).2 ↔
      ∀ parsed, loads request.body = .ok parsed →
        Servable u config principal request.requestId answers parsed := by
  have fixed (status : Nat) (code : Int) (message : String) :
      Returns (jsonResponse status [] (rpcError .null code (lit message) none)) := by
    rw [returns_json,rpcError_renders]
    simp
  cases given : loads request.body with
  | error raised =>
    refine iff_of_true ⟨?_,by simp⟩ (by simp)
    simpa [proxy,who,given] using fixed _ _ _
  | ok parsed =>
    simp only [Except.ok.injEq,forall_eq']
    cases parsed with
    | arr entries =>
      rw [transparent_unsent u config principal request.requestId rfl]
      simp only [proxy,who,given,Servable]
      cases config.allowBatch with
      | true => simpa using returns_batch u config principal request.requestId entries answers
      | false => simpa using fixed _ _ _
    | _ =>
      simp only [proxy,who,given]
      exact single_transparent u config principal request.requestId answers _ (by simp)

def pingRequest : Json :=
  .obj [(lit "jsonrpc",.str (lit "2.0")),(lit "id",.int 1),(lit "method",.str (lit "ping"))]

theorem proxy_transparent_ping :
    Transparent asciiUnicode defaultConfig viewer (lit "r1") (.ok pingRequest) .timeout
      (proxy asciiUnicode defaultConfig resolveViewer (fun _ => .ok pingRequest) viewerRequest
        fun _ => .timeout).2 := by
  refine (proxy_transparent asciiUnicode defaultConfig viewer resolveViewer
    (fun _ => .ok pingRequest) viewerRequest (fun _ => .timeout) (by rfl)).mpr ?_
  intro parsed given
  cases given
  exact ⟨by rfl,by rfl⟩

/-- A stream of events: the post has read it, so it raises when the response is sent. -/
theorem stream_never_delivered :
    ¬ Transparent asciiUnicode defaultConfig viewer (lit "r1") (.ok pingRequest)
      (.response 200 (lit "text/event-stream") (.error .JSONDecodeError) [0x3a,0x0a,0x0a])
      (proxy asciiUnicode defaultConfig resolveViewer (fun _ => .ok pingRequest) viewerRequest
        fun _ => .response 200 (lit "text/event-stream") (.error .JSONDecodeError) [0x3a,0x0a,0x0a]).2 := by
  intro transparent
  obtain ⟨status,payload,sent⟩ := transparent.returns
  have consumed : received (proxy asciiUnicode defaultConfig resolveViewer (fun _ => .ok pingRequest)
      viewerRequest fun _ => .response 200 (lit "text/event-stream") (.error .JSONDecodeError)
        [0x3a,0x0a,0x0a]).2 = .error .StreamConsumed := by rfl
  rw [consumed] at sent
  cases sent

end GatewaySuite.Gateway
