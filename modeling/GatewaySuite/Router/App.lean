import GatewaySuite.Gateway.Auth
import GatewaySuite.Router.Accounting
import GatewaySuite.Router.Progress
import GatewaySuite.Router.Http

/-! The HTTP surface of the router. A request is refused at once, or becomes a call of `route`
whose end is its response; the bodies are what pydantic made of them. -/
namespace GatewaySuite.Router
open Python Limiter Lib

/-- `model_config` and the fields' bounds. -/
structure CompletionRequest where
  prompt : Str
  maxTokens : Int
  minLength : 1 ≤ prompt.length
  maxLength : prompt.length ≤ 100000
  gt : 0 < maxTokens
  le : maxTokens ≤ 8192

/-- What the handlers read of a request. `body` is absent where reading the JSON or validating
it raised; the `uuid4` are those of the endpoint, of `_api_key`, and of the last handler. A
header is decoded as Latin-1. -/
structure Request where
  authorization : Option Str
  xRequestId : Option Str
  body : Option CompletionRequest
  fresh : Str
  freshAuth : Str
  freshUnhandled : Str
  latin : ∀ requestId ∈ [fresh,freshAuth,freshUnhandled] ++ xRequestId.toList,
    requestId.all (fun c => c.val < 0x100) = true

namespace Request

/-- `request.headers.get("X-Request-Id") or uuid.uuid4().hex` -/
def idOr (request : Request) (fresh : Str) : Str :=
  match request.xRequestId with
  | some header => if header = [] then fresh else header
  | none => fresh

def requestId (request : Request) : Str := request.idOr request.fresh

theorem idOr_encodes (request : Request) {fresh : Str}
    (own : fresh ∈ [request.fresh,request.freshAuth,request.freshUnhandled]) :
    encodes (request.idOr fresh) = true := by
  have listed : request.idOr fresh ∈
      [request.fresh,request.freshAuth,request.freshUnhandled] ++ request.xRequestId.toList := by
    unfold idOr
    cases request.xRequestId with
    | none => exact List.mem_append_left _ own
    | some header =>
      dsimp only
      split_ifs
      · exact List.mem_append_left _ own
      · exact List.mem_append_right _ (List.mem_singleton_self header)
  have latin := List.all_eq_true.mp (request.latin _ listed)
  simp only [decide_eq_true_eq] at latin
  simp only [encodes,List.all_eq_true,Bool.or_eq_true,decide_eq_true_eq]
  exact fun c member => Or.inl (lt_trans (latin c member) (by decide))

end Request

/-- `_api_key`; the error carries its own request id. -/
def apiKey (unicode : Unicode) (request : Request) : Except Str Str :=
  match Gateway.splitOnce unicode (request.authorization.getD []) with
  | [scheme,credential] =>
    if unicode.lower scheme ≠ lit "bearer" ∨ unicode.strip credential = [] then
      .error (request.idOr request.freshAuth)
    else .ok (unicode.strip credential)
  | _ => .error (request.idOr request.freshAuth)

section
variable (double : ℚ → UInt64)

/-- `gateway_error_handler` for an error without metadata. -/
def plainError (code requestId : Str) : Response :=
  ⟨httpStatus code,[(lit "X-Request-Id",requestId)],toPayload double code requestId none⟩

def RoutedResponse.content (result : RoutedResponse) : Json :=
  .obj [
    (lit "id",.str result.requestId),
    (lit "text",.str result.completion.text),
    (lit "provider",.str result.completion.provider),
    (lit "failed_over",.bool (decide (1 < result.attempts.length))),
    (lit "usage",.obj [
      (lit "prompt_tokens",.int result.completion.promptTokens),
      (lit "completion_tokens",.int result.completion.completionTokens),
      (lit "total_tokens",.int result.completion.totalTokens)])]

/-- The end of `completions`, where the texts are the provider's. -/
def completed (result : RoutedResponse) : Option Response :=
  jsonResponse 200 [(lit "X-Request-Id",result.requestId)] result.content

/-- A request with what became of it: a response, or a call of `route`. -/
inductive Ticket where
  | refused (request : Request) (response : Response)
  | routed (request : Request) (apiKey : Str) (body : CompletionRequest) (call : Nat)

structure App where
  system : System
  tickets : List Ticket

inductive AppEvent where
  | completions (request : Request) (started reservedAt : ℚ)
  | transaction (job : Nat)
  | wake (call : Nat) (wakeup : Wakeup)

variable (unicode : Unicode) (limiter : SlidingWindowRateLimiter) (router : ModelRouter)

namespace App

def start (breakers : Nat → CircuitBreaker) : App := ⟨System.start breakers,[]⟩

def step (app : App) : AppEvent → Option App
  | .completions request started reservedAt =>
    match Router.apiKey unicode request with
    | .error requestId =>
      some {app with
        tickets := app.tickets ++ [.refused request (plainError double UNAUTHENTICATED requestId)]}
    | .ok apiKey =>
      match request.body with
      | none =>
        some {app with
          tickets := app.tickets ++
            [.refused request (plainError double BAD_REQUEST request.requestId)]}
      | some body =>
        (app.system.step limiter
          (.route router apiKey body.prompt body.maxTokens request.requestId started reservedAt)).map
            fun system => ⟨system,app.tickets ++
              [.routed request apiKey body app.system.calls.length]⟩
  | .transaction job =>
    (app.system.step limiter (.transaction job)).map fun system => {app with system := system}
  | .wake call wakeup =>
    (app.system.step limiter (.wake call wakeup)).map fun system => {app with system := system}

def response (app : App) : Ticket → Option Response
  | .refused _ response => some response
  | .routed request _ _ c =>
    match (app.system.calls[c]?).map Call.pc with
    | some (.ended (.returned result)) => some ((completed result).getD
        (unhandledHandler double request.xRequestId request.freshUnhandled))
    | some (.ended (.refused exn)) => handle double request.xRequestId request.freshUnhandled exn
    | some (.ended (.failed exn)) => handle double request.xRequestId request.freshUnhandled exn
    | _ => none

end App
end

variable (limiter : SlidingWindowRateLimiter)

/-- A reserve raises `ValueError` only for a negative estimate. -/
theorem reserve_valueError {books books' : Books} {apiKey : Str} {estimate : Int} {now : ℚ}
    {newId : Nat} (raised : books.reserve limiter apiKey estimate now newId =
      (.error .ValueError,books')) : estimate < 0 := by
  have same := books.reserve_reserveSync limiter apiKey estimate now newId
  rw [raised] at same
  unfold reserveSync at same
  dsimp only at same
  split_ifs at same with negative full
  · exact negative
  · cases same
  · cases same

namespace Call

def Refuses (call : Call) : Prop :=
  match call.pc with
  | .reserve (some (.error .ValueError)) => call.estimated < 0
  | .ended (.refused .valueError) => call.estimated < 0
  | .ended (.refused (.gateway error)) =>
    error.code = .rateLimited ∧ error.requestId = call.requestId
  | _ => True

theorem tryNext_refuses (call : Call) (reservation : Reservation) (breaker : CircuitBreaker)
    (candidates : List Provider) (readings : Readings) :
    (call.tryNext reservation breaker candidates readings).1.Refuses := by
  cases candidates with
  | nil => trivial
  | cons provider rest =>
    by_cases expired : call.remainingBudget readings.budget ≤ 0
    · simp only [tryNext,expired,if_true]
      trivial
    · simp only [tryNext,expired,if_false]
      trivial

theorem wakes_refuses {call : Call} {breaker : CircuitBreaker} {wakeup : Wakeup}
    {moved : Call × CircuitBreaker} (wakes : call.Wakes breaker wakeup moved)
    (refuses : call.Refuses) : moved.1.Refuses := by
  cases wakes with
  | reserved result readings awaited =>
    match result with
    | .error .ValueError =>
      simp only [Refuses,awaited] at refuses
      exact refuses
    | .error (.exceeded exc) => exact ⟨rfl,rfl⟩
    | .ok reservation =>
      unfold afterReserve
      dsimp only
      split_ifs <;> exact tryNext_refuses _ _ _ _ _
  | answered reservation provider rest timeoutS answer readings awaited =>
    unfold afterAttempt
    dsimp only
    split
    · trivial
    · by_cases rejected : (attemptRecord provider answer readings.durationMs).2.outcome = .clientError
      · simp only [rejected,if_true]
        trivial
      · simp only [rejected,if_false]
        exact tryNext_refuses _ _ _ _ _
  | _ => trivial

end Call

/-- The transaction that a reserving call awaits is the reserve of its own estimate. -/
theorem listed_reserve {s : System} (coherent : Coherent s) {i : Nat} {job : Job} {call : Call}
    (listed : s.jobs[i]? = some job) (known : s.calls[job.call]? = some call)
    (awaited : call.pc = .reserve none) :
    job.work = .reserve call.apiKey call.estimated call.reservedAt := by
  obtain ⟨⟨front,back,whole,_⟩,_⟩ := works_eraseIdx listed
  have here := coherent job.call
  rw [known,whole] at here
  dsimp only at here
  rw [awaited] at here
  generalize outstanding : front ++ job.work :: back = works at here
  generalize holds s.books.ledger job.call = entries at here
  cases here with
  | reserving =>
    have member : job.work ∈ front ++ job.work :: back := by simp
    rw [outstanding,List.mem_singleton] at member
    exact member

theorem deliver_refuses {s : System} (coherent : Coherent s) {i : Nat} {job : Job} {call : Call}
    (listed : s.jobs[i]? = some job) (known : s.calls[job.call]? = some call)
    (refuses : call.Refuses) :
    ({call with pc := call.pc.deliver (perform limiter s.books job.call job.work).1} :
      Call).Refuses := by
  obtain same | ⟨result,awaited,same⟩ | ⟨_,_,_,same⟩ | ⟨_,_,_,same⟩ :=
    deliver_cases call.pc (perform limiter s.books job.call job.work).1
  · rw [same]
    exact refuses
  · have work := listed_reserve coherent listed known awaited
    rw [awaited,work] at same
    rw [awaited,work]
    cases made : s.books.reserve limiter call.apiKey call.estimated call.reservedAt job.call with
    | mk outcome books =>
      simp only [perform,made,Pc.deliver]
      cases outcome with
      | ok reservation => trivial
      | error refused =>
        cases refused with
        | exceeded exc => trivial
        | ValueError => exact reserve_valueError limiter made
  · rw [same]
    trivial
  · rw [same]
    trivial

theorem step_refuses {s next : System} {event : Event} (coherent : Coherent s)
    (refuses : ∀ (c : Nat) call, s.calls[c]? = some call → call.Refuses)
    (stepped : s.step limiter event = some next) (c : Nat) (call : Call)
    (known : next.calls[c]? = some call) : call.Refuses := by
  obtain ⟨_,_,_,_,_,_,_,rfl⟩ | ⟨previous,old,rfl | ⟨i,job,listed,rfl,rfl⟩ |
    ⟨wakeup,after,_,wakes⟩⟩ := step_moved limiter stepped known
  · trivial
  · exact refuses c call old
  · exact deliver_refuses limiter coherent listed old (refuses _ previous old)
  · exact Call.wakes_refuses wakes (refuses c previous old)

def Call.Asks (call : Call) (apiKey : Str) (body : CompletionRequest) (requestId : Str) : Prop :=
  call.apiKey = apiKey ∧ call.prompt = body.prompt ∧ call.maxTokens = body.maxTokens ∧
    call.requestId = requestId

theorem step_asks {s next : System} {event : Event} (stepped : s.step limiter event = some next)
    {c : Nat} {apiKey : Str} {body : CompletionRequest} {requestId : Str}
    (asked : ∃ call, s.calls[c]? = some call ∧ call.Asks apiKey body requestId) :
    ∃ call, next.calls[c]? = some call ∧ call.Asks apiKey body requestId := by
  obtain ⟨call,known,asks⟩ := asked
  obtain ⟨call',known',⟨wakeup,_,turned⟩ | ⟨_,rfl | ⟨finished,rfl⟩⟩⟩ :=
    step_known limiter stepped known
  · refine ⟨call',known',?_⟩
    rw [turned.frame]
    exact asks
  · exact ⟨call',known',asks⟩
  · exact ⟨_,known',asks⟩

theorem step_length {s next : System} {event : Event} (stepped : s.step limiter event = some next) :
    next.calls.length = s.calls.length + if event.routes then 1 else 0 := by
  cases event with
  | route router apiKey prompt maxTokens requestId started reservedAt =>
    cases stepped
    simp [Event.routes]
  | transaction i =>
    obtain ⟨job,_,rfl⟩ := Option.map_eq_some_iff.mp stepped
    simp [Event.routes]
  | wake c wakeup =>
    obtain ⟨call,_,moves⟩ := Option.bind_eq_some_iff.mp stepped
    obtain ⟨moved,_,rfl⟩ := Option.map_eq_some_iff.mp moves
    simp [System.put,Event.routes]

def Ticket.call? : Ticket → Option Nat
  | .refused _ _ => none
  | .routed _ _ _ c => some c

section
variable (double : ℚ → UInt64) (unicode : Unicode) (router : ModelRouter)

/-- A ticket is what the endpoint makes of its request. -/
def Ticket.Matches (s : System) : Ticket → Prop
  | .refused request response =>
    (∃ requestId, Router.apiKey unicode request = .error requestId ∧
      response = plainError double UNAUTHENTICATED requestId) ∨
    ∃ apiKey, Router.apiKey unicode request = .ok apiKey ∧ request.body = none ∧
      response = plainError double BAD_REQUEST request.requestId
  | .routed request apiKey body c =>
    Router.apiKey unicode request = .ok apiKey ∧ request.body = some body ∧
      ∃ call, s.calls[c]? = some call ∧ call.Asks apiKey body request.requestId

structure App.Kept (app : App) : Prop where
  coherent : Coherent app.system
  trails : ∀ (c : Nat) call, app.system.calls[c]? = some call → call.Trail
  refuses : ∀ (c : Nat) call, app.system.calls[c]? = some call → call.Refuses
  numbered : app.tickets.filterMap Ticket.call? = List.range app.system.calls.length
  tickets : ∀ ticket ∈ app.tickets, ticket.Matches double unicode app.system

variable {limiter double unicode router}

theorem matches_step {s next : System} {event : Event} (stepped : s.step limiter event = some next)
    {ticket : Ticket} (matches_ : ticket.Matches double unicode s) :
    ticket.Matches double unicode next := by
  cases ticket with
  | refused request response => exact matches_
  | routed request apiKey body c =>
    exact ⟨matches_.1,matches_.2.1,step_asks limiter stepped matches_.2.2⟩

theorem App.Kept.system {app : App} (kept : app.Kept double unicode) {event : Event}
    {next : System} (stepped : app.system.step limiter event = some next) :
    Coherent next ∧ (∀ (c : Nat) call, next.calls[c]? = some call → call.Trail) ∧
      ∀ (c : Nat) call, next.calls[c]? = some call → call.Refuses :=
  ⟨step_coherent limiter _ _ _ kept.coherent stepped,step_trail limiter kept.trails stepped,
    step_refuses limiter kept.coherent kept.refuses stepped⟩

/-- A step of the calls that are there, without a new one. -/
theorem App.Kept.moved {app : App} (kept : app.Kept double unicode) {event : Event} {next : System}
    (stepped : app.system.step limiter event = some next) (old : event.routes = false) :
    App.Kept double unicode {app with system := next} := by
  obtain ⟨coherent,trails,refuses⟩ := kept.system stepped
  refine ⟨coherent,trails,refuses,?_,fun ticket member => ?_⟩
  · have same := step_length limiter stepped
    rw [old,if_neg Bool.false_ne_true,Nat.add_zero] at same
    dsimp only
    rw [same]
    exact kept.numbered
  · exact matches_step stepped (kept.tickets ticket member)

theorem App.Kept.refused {app : App} (kept : app.Kept double unicode) {request : Request}
    {response : Response} (matches_ : Ticket.Matches double unicode app.system
      (.refused request response)) :
    App.Kept double unicode {app with tickets := app.tickets ++ [.refused request response]} := by
  refine ⟨kept.coherent,kept.trails,kept.refuses,?_,fun ticket member => ?_⟩
  · rw [List.filterMap_append,kept.numbered]
    exact List.append_nil _
  · obtain old | new := List.mem_append.mp member
    · exact kept.tickets ticket old
    · rw [List.mem_singleton.mp new]
      exact matches_

theorem App.Kept.step {app next : App} {event : AppEvent} (kept : app.Kept double unicode)
    (stepped : app.step double unicode limiter router event = some next) :
    next.Kept double unicode := by
  cases event with
  | transaction job =>
    obtain ⟨system,moved,rfl⟩ := Option.map_eq_some_iff.mp stepped
    exact kept.moved moved rfl
  | wake call wakeup =>
    obtain ⟨system,moved,rfl⟩ := Option.map_eq_some_iff.mp stepped
    exact kept.moved moved rfl
  | completions request started reservedAt =>
    simp only [App.step] at stepped
    cases authorised : Router.apiKey unicode request with
    | error requestId =>
      rw [authorised] at stepped
      cases stepped
      exact kept.refused (Or.inl ⟨requestId,authorised,rfl⟩)
    | ok apiKey =>
      rw [authorised] at stepped
      cases given : request.body with
      | none =>
        rw [given] at stepped
        cases stepped
        exact kept.refused (Or.inr ⟨apiKey,authorised,given,rfl⟩)
      | some body =>
        rw [given] at stepped
        obtain ⟨system,moved,rfl⟩ := Option.map_eq_some_iff.mp stepped
        obtain ⟨coherent,trails,refuses⟩ := kept.system moved
        refine ⟨coherent,trails,refuses,?_,fun ticket member => ?_⟩
        · have longer := step_length limiter moved
          rw [Event.routes,if_pos rfl] at longer
          dsimp only
          rw [longer,List.range_succ,List.filterMap_append,kept.numbered]
          rfl
        · obtain old | new := List.mem_append.mp member
          · exact matches_step moved (kept.tickets ticket old)
          · rw [List.mem_singleton.mp new]
            cases moved
            refine ⟨authorised,given,_,List.getElem?_concat_length,rfl,rfl,rfl,rfl⟩

theorem run_kept {breakers : Nat → CircuitBreaker} {events : List AppEvent} {last : App}
    (ran : run (App.step double unicode limiter router) (App.start breakers) events = some last) :
    last.Kept double unicode := by
  refine run_invariant (fun _ _ _ kept stepped => kept.step stepped) ?_ ran
  exact ⟨start_coherent breakers,by simp [App.start,System.start],by simp [App.start,System.start],
    rfl,by simp [App.start]⟩

theorem asks_estimated {call : Call} {apiKey requestId : Str} {body : CompletionRequest}
    (asks : call.Asks apiKey body requestId) :
    2 ≤ call.estimated ∧ call.estimated ≤ 33192 := by
  obtain ⟨_,prompt,maxTokens,_⟩ := asks
  have long := body.maxLength
  have low := body.gt
  have high := body.le
  rw [Call.estimated,prompt,maxTokens,estimateTokens]
  omega

/-- The provider's texts can be written as JSON. -/
def RoutedResponse.written (response : RoutedResponse) : Bool :=
  encodes response.completion.text && encodes response.completion.provider

def Call.Unwritten (call : Call) : Prop :=
  ∃ result, call.pc = .ended (.returned result) ∧ result.written = false

/-- The id stands in the header and in the body. -/
def Response.Names (response : Response) (requestId : Str) : Prop :=
  (lit "X-Request-Id",requestId) ∈ response.headers ∧
    bodyId response.content = some (.str requestId)

def Ticket.Answered (double : ℚ → UInt64) (s : System) (response : Response) : Ticket → Prop
  | .refused request _ =>
    (response.statusCode = 401 ∨ response.statusCode = 400) ∧
      ∃ requestId, response.Names requestId ∧
        ∀ header, request.xRequestId = some header → header ≠ [] → requestId = header
  | .routed request _ _ c =>
    ∃ call, s.calls[c]? = some call ∧
      (call.Unwritten ∧
          response = unhandledHandler double request.xRequestId request.freshUnhandled ∨
        ¬call.Unwritten ∧ response.statusCode ∈ [200,429,502,503,504] ∧
          response.Names request.requestId)

theorem sound_apiKey {hold : Entry} {pc : Pc} {entries : List Entry} {works : List Work}
    (sound : Sound hold pc entries works) : ∀ e ∈ entries, e.apiKey = hold.apiKey := by
  cases sound with
  | draining done holds works state => cases state <;> simp
  | drained done holds works state => cases state <;> simp
  | _ => simp

theorem httpStatus_code (code : GatewayErrorCode) :
    httpStatus code.text ∈ [200,429,502,503,504] := by
  cases code <;> decide

theorem httpStatus_unauthenticated : httpStatus UNAUTHENTICATED = 401 := by decide

theorem httpStatus_badRequest : httpStatus BAD_REQUEST = 400 := by decide

theorem code_encodes (code : GatewayErrorCode) : encodes code.text = true := by
  cases code <;> exact lit_encodes _

theorem plainError_names (code requestId : Str) :
    (plainError double code requestId).Names requestId :=
  ⟨List.mem_singleton_self _,toPayload_id double code requestId none⟩

theorem gatewayErrorHandler_names (exc : GatewayError) :
    (gatewayErrorHandler double exc).Names exc.requestId :=
  ⟨List.mem_append_left _ (List.mem_singleton_self _),toPayload_id double _ _ _⟩

theorem content_renders {result : RoutedResponse} (named : encodes result.requestId = true) :
    renders result.content = result.written := by
  simp [RoutedResponse.content,RoutedResponse.written,renders_obj,lit_encodes,named]

theorem completed_written {result : RoutedResponse} (named : encodes result.requestId = true)
    (written : result.written = true) : completed result =
      some ⟨200,[(lit "X-Request-Id",result.requestId)],result.content⟩ := by
  rw [completed,jsonResponse,content_renders named,if_pos written]

theorem completed_unwritten {result : RoutedResponse} (named : encodes result.requestId = true)
    (unwritten : result.written = false) : completed result = none := by
  rw [completed,jsonResponse,content_renders named,unwritten]
  rfl

theorem idOr_header {request : Request} {header : Str} (sent : request.xRequestId = some header)
    (some : header ≠ []) (fresh : Str) : request.idOr fresh = header := by
  simp [Request.idOr,sent,some]

theorem apiKey_error {request : Request} {requestId : Str}
    (authorised : Router.apiKey unicode request = .error requestId) :
    requestId = request.idOr request.freshAuth := by
  unfold Router.apiKey at authorised
  split at authorised
  · split_ifs at authorised
    exact (Except.error.inj authorised).symm
  · exact (Except.error.inj authorised).symm

theorem refused_answered {app : App} {request : Request} {response : Response}
    (matches_ : Ticket.Matches double unicode app.system (.refused request response)) :
    Ticket.Answered double app.system response (.refused request response) := by
  obtain ⟨requestId,authorised,rfl⟩ | ⟨_,_,_,rfl⟩ := matches_
  · refine ⟨Or.inl httpStatus_unauthenticated,requestId,plainError_names _ _,
      fun header sent some => ?_⟩
    rw [apiKey_error authorised,idOr_header sent some]
  · refine ⟨Or.inr httpStatus_badRequest,request.requestId,plainError_names _ _,
      fun header sent some => ?_⟩
    rw [Request.requestId,idOr_header sent some]

/-- What a routed request is answered with, by the end of its call. -/
inductive Ends (double : ℚ → UInt64) (request : Request) : Outcome → Response → Prop
  | written (result : RoutedResponse) (own : result.requestId = request.requestId)
      (written : result.written = true) : Ends double request (.returned result)
        ⟨200,[(lit "X-Request-Id",result.requestId)],result.content⟩
  | unwritten (result : RoutedResponse) (unwritten : result.written = false) :
      Ends double request (.returned result)
        (unhandledHandler double request.xRequestId request.freshUnhandled)
  | refused (error : GatewayError) (own : error.requestId = request.requestId) :
      Ends double request (.refused (.gateway error)) (gatewayErrorHandler double error)
  | failed (error : GatewayError) (own : error.requestId = request.requestId) :
      Ends double request (.failed (.gateway error)) (gatewayErrorHandler double error)

theorem routed_ends {app : App} (kept : app.Kept double unicode) {request : Request}
    {apiKey : Str} {body : CompletionRequest} {c : Nat} {response : Response}
    (matches_ : Ticket.Matches double unicode app.system (.routed request apiKey body c))
    (answered : app.response double (.routed request apiKey body c) = some response) :
    ∃ call outcome, app.system.calls[c]? = some call ∧ call.pc = .ended outcome ∧
      Ends double request outcome response := by
  obtain ⟨_,_,call,known,asks⟩ := matches_
  have trail := kept.trails c call known
  have refuses := kept.refuses c call known
  have own : call.requestId = request.requestId := asks.2.2.2
  simp only [App.response,known,Option.map_some] at answered
  unfold Call.Trail at trail
  unfold Call.Refuses at refuses
  cases awaited : call.pc with
  | ended outcome =>
    rw [awaited] at answered trail refuses
    refine ⟨call,outcome,known,awaited,?_⟩
    cases outcome with
    | returned result =>
      have named : result.requestId = request.requestId := trail.2.2.trans own
      have encoded : encodes result.requestId = true := by
        rw [named]
        exact request.idOr_encodes List.mem_cons_self
      dsimp only at answered
      cases written : result.written with
      | false =>
        rw [completed_unwritten encoded written] at answered
        cases answered
        exact .unwritten result written
      | true =>
        rw [completed_written encoded written] at answered
        cases answered
        exact .written result named written
    | refused exn =>
      cases exn with
      | gateway error =>
        cases answered
        exact .refused error (refuses.2.trans own)
      | valueError => exact absurd refuses (not_lt.mpr (by linarith [(asks_estimated asks).1]))
      | cancelled => cases answered
    | failed exn =>
      cases exn with
      | gateway error =>
        cases answered
        exact .failed error (trail.1.trans own)
      | valueError => cases trail
      | cancelled => cases answered
  | _ =>
    rw [awaited] at answered
    cases answered

theorem ends_answered {app : App} {request : Request} {apiKey : Str} {body : CompletionRequest}
    {c : Nat} {call : Call} {outcome : Outcome} {response : Response}
    (known : app.system.calls[c]? = some call) (ended : call.pc = .ended outcome)
    (ends : Ends double request outcome response) :
    Ticket.Answered double app.system response (.routed request apiKey body c) := by
  refine ⟨call,known,?_⟩
  unfold Call.Unwritten
  rw [ended]
  cases ends with
  | written result own written =>
    refine Or.inr ⟨by simp [written],List.mem_cons_self,?_⟩
    rw [← own]
    exact ⟨List.mem_singleton_self _,rfl⟩
  | unwritten result unwritten => exact Or.inl ⟨⟨result,rfl,unwritten⟩,rfl⟩
  | refused error own =>
    refine Or.inr ⟨by simp,httpStatus_code error.code,?_⟩
    rw [← own]
    exact gatewayErrorHandler_names error
  | failed error own =>
    refine Or.inr ⟨by simp,httpStatus_code error.code,?_⟩
    rw [← own]
    exact gatewayErrorHandler_names error

section
variable (finite : ∀ seconds, renders (.float (double seconds)) = true)
include finite

theorem ends_renders {request : Request} {outcome : Outcome} {response : Response}
    (ends : Ends double request outcome response) : renders response.content = true := by
  cases ends with
  | written result own written =>
    rw [← written]
    refine content_renders ?_
    rw [own]
    exact request.idOr_encodes List.mem_cons_self
  | unwritten result unwritten =>
    exact toPayload_renders double finite (lit_encodes _)
      (request.idOr_encodes (by simp)) none
  | refused error own =>
    refine toPayload_renders double finite (code_encodes error.code) ?_ _
    rw [own]
    exact request.idOr_encodes List.mem_cons_self
  | failed error own =>
    refine toPayload_renders double finite (code_encodes error.code) ?_ _
    rw [own]
    exact request.idOr_encodes List.mem_cons_self

theorem refused_renders {app : App} {request : Request} {response : Response}
    (matches_ : Ticket.Matches double unicode app.system (.refused request response)) :
    renders response.content = true := by
  obtain ⟨requestId,authorised,rfl⟩ | ⟨_,_,_,rfl⟩ := matches_
  · refine toPayload_renders double finite (lit_encodes _) ?_ none
    rw [apiKey_error authorised]
    exact request.idOr_encodes (by simp)
  · exact toPayload_renders double finite (lit_encodes _)
      (request.idOr_encodes List.mem_cons_self) none

end

theorem row_routed {app : App} (kept : app.Kept double unicode) {row : Row}
    (stored : row ∈ app.system.books.table) : ∃ request body,
      .routed request row.apiKey body row.id ∈ app.tickets := by
  have inside := absent_rows kept.coherent stored
  have listed : row.id ∈ app.tickets.filterMap Ticket.call? := by
    rw [kept.numbered,List.mem_range]
    exact inside
  obtain ⟨ticket,member,numbered⟩ := List.mem_filterMap.mp listed
  cases ticket with
  | refused request response => cases numbered
  | routed request apiKey body c =>
    cases numbered
    obtain ⟨_,_,call,known,asks⟩ := kept.tickets _ member
    have own : row ∈ app.system.books.table.filter fun other => other.id = row.id := by
      simpa using stored
    have here := kept.coherent row.id
    rw [known] at here
    dsimp only at here
    rw [own_rows kept.coherent] at own
    split_ifs at own
    · cases own
    · obtain ⟨e,entry,rfl⟩ := List.mem_map.mp own
      have key : e.apiKey = call.apiKey := sound_apiKey here e (List.mem_of_mem_filter entry)
      refine ⟨request,body,?_⟩
      rw [show e.row.apiKey = apiKey from key.trans asks.1]
      exact member

end

def sampleBody : CompletionRequest :=
  ⟨lit "hello",256,by decide,by decide,by decide,by decide⟩

def sampleRequest (authorization : String) (body : Option CompletionRequest) : Request :=
  ⟨some (lit authorization),some (lit "r1"),body,lit "f0",lit "f1",lit "f2",by decide⟩

/-- Without a key, without a body, and two requests that the primary answers, the second with a
lone surrogate in its text. -/
def sampleEvents : List AppEvent :=
  [.completions (sampleRequest "Basic tenant-a" (some sampleBody)) 0 0,
    .completions (sampleRequest "Bearer tenant-a" none) 0 0,
    .completions (sampleRequest "Bearer tenant-a" (some sampleBody)) 0 0,.transaction 0,
    .wake 0 (.finished ⟨0,0,0⟩),
    .wake 0 (.answered (.completed ⟨lit "hi",2,5,lit "primary"⟩) ⟨1,1,1⟩),.transaction 0,
    .wake 0 (.finished ⟨1,1,0⟩),
    .completions (sampleRequest "Bearer tenant-a" (some sampleBody)) 2 2,.transaction 0,
    .wake 1 (.finished ⟨2,2,0⟩),
    .wake 1 (.answered (.completed ⟨[⟨0xD800,by decide⟩],2,5,lit "primary"⟩) ⟨3,3,1⟩),
    .transaction 0,.wake 1 (.finished ⟨3,3,0⟩)]

end GatewaySuite.Router
