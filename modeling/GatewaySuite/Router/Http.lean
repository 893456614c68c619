import GatewaySuite.Limiter.Retry
import GatewaySuite.Python.Json
import GatewaySuite.Router.Route

/-! What the client of a failed call receives: the envelope of `errors.py`, and the handlers
that turn an exception into a response. -/
namespace GatewaySuite.Router
open Python Limiter

def RATE_LIMITED : Str := lit "rate_limited"
def ALL_PROVIDERS_FAILED : Str := lit "all_providers_failed"
def UPSTREAM_TIMEOUT : Str := lit "upstream_timeout"
def UPSTREAM_ERROR : Str := lit "upstream_error"
def BAD_REQUEST : Str := lit "bad_request"
def UNAUTHENTICATED : Str := lit "unauthenticated"
def INTERNAL : Str := lit "internal_error"

def SAFE_MESSAGES : List (Str × Str) := [
  (RATE_LIMITED,lit "Token rate limit exceeded for this API key."),
  (ALL_PROVIDERS_FAILED,lit "All model providers are currently unavailable."),
  (UPSTREAM_TIMEOUT,lit "The model provider did not respond in time."),
  (UPSTREAM_ERROR,lit "The model provider returned an error."),
  (BAD_REQUEST,lit "The request payload was invalid."),
  (UNAUTHENTICATED,lit "A valid API key is required."),
  (INTERNAL,lit "An internal error occurred.")]

def HTTP_STATUS : List (Str × Int) := [
  (RATE_LIMITED,429),
  (ALL_PROVIDERS_FAILED,503),
  (UPSTREAM_TIMEOUT,504),
  (UPSTREAM_ERROR,502),
  (BAD_REQUEST,400),
  (UNAUTHENTICATED,401),
  (INTERNAL,500)]

def GatewayErrorCode.text : GatewayErrorCode → Str
  | .rateLimited => RATE_LIMITED
  | .allProvidersFailed => ALL_PROVIDERS_FAILED
  | .upstreamTimeout => UPSTREAM_TIMEOUT
  | .upstreamError => UPSTREAM_ERROR

def AttemptOutcome.text : AttemptOutcome → Str
  | .success => lit "success"
  | .timeout => lit "timeout"
  | .retryableError => lit "retryable_error"
  | .clientError => lit "client_error"
  | .circuitOpen => lit "circuit_open"
  | .deadlineExhausted => lit "deadline_exhausted"

def httpStatus (code : Str) : Int := (HTTP_STATUS.lookup code).getD 500

/-- `d.update(other)` -/
def update (d : Dict) (other : List (String × Json)) : Dict :=
  other.foldl (fun d entry => d.set entry.1 entry.2) d

/-- The `Retry-After` of a refusal, from `metadata.get("retry_after_seconds", 1)`. -/
def Metadata.retryAfter : Metadata → Int
  | .budget _ _ retryAfterSeconds => Limiter.retryAfterSeconds retryAfterSeconds
  | .summary _ _ => Limiter.retryAfterSeconds 1

structure Response where
  statusCode : Int
  headers : List (Str × Str)
  content : Json

/-- `JSONResponse(...)` renders its content as it is built, and raises where that fails. -/
def jsonResponse (statusCode : Int) (headers : List (Str × Str)) (content : Json) :
    Option Response :=
  if renders content then some ⟨statusCode,headers,content⟩ else none

/-- The request id that a body names: under `error`, or as `id`. -/
def bodyId (content : Json) : Option Json :=
  match content.dict? with
  | some body =>
    match Dict.get body "error" with
    | some error => error.dict?.bind fun error => Dict.get error "request_id"
    | none => Dict.get body "id"
  | none => none

section
-- the double that holds an exact number of seconds
variable (double : ℚ → UInt64)

def Metadata.entries : Metadata → List (String × Json)
  | .budget limitTokensPerMinute usedTokens retryAfterSeconds => [
    ("limit_tokens_per_minute",.int limitTokensPerMinute),
    ("used_tokens",.int usedTokens),
    ("retry_after_seconds",.float (double retryAfterSeconds))]
  | .summary providersAttempted outcomes => [
    ("providers_attempted",.int providersAttempted),
    ("outcomes",.arr (outcomes.map fun outcome => .str outcome.text))]

/-- The dictionary under `error`. No metadata that is given is empty. -/
def errorFields (code requestId : Str) (metadata : Option Metadata) : Dict :=
  let error : Dict := [
    (lit "type",.str (lit "gateway_error")),
    (lit "code",.str code),
    (lit "message",.str ((SAFE_MESSAGES.lookup code).getD (lit "An error occurred."))),
    (lit "request_id",.str requestId)]
  match metadata with
  | some metadata => update error (metadata.entries double)
  | none => error

def toPayload (code requestId : Str) (metadata : Option Metadata) : Json :=
  .obj [(lit "error",.obj (errorFields double code requestId metadata))]

def gatewayErrorHandler (exc : GatewayError) : Response :=
  let headers := [(lit "X-Request-Id",exc.requestId)]
  let retry := if exc.code.text = RATE_LIMITED then
    [(lit "Retry-After",lit (toString exc.metadata.retryAfter))] else []
  ⟨httpStatus exc.code.text,headers ++ retry,
    toPayload double exc.code.text exc.requestId (some exc.metadata)⟩

/-- `fresh` is the `uuid4` of a request without an `X-Request-Id`. -/
def unhandledHandler (xRequestId : Option Str) (fresh : Str) : Response :=
  let requestId := match xRequestId with
    | some header => if header = [] then fresh else header
    | none => fresh
  ⟨500,[],toPayload double INTERNAL requestId none⟩

/-- A `CancelledError` is no `Exception`: whoever cancelled the call gets no response. -/
def handle (xRequestId : Option Str) (fresh : Str) : Exn → Option Response
  | .gateway error => some (gatewayErrorHandler double error)
  | .valueError => some (unhandledHandler double xRequestId fresh)
  | .cancelled => none

/-- The keys that `to_payload` sets itself. -/
def ENVELOPE : List String := ["type","code","message","request_id"]

theorem get_update (d : Dict) (other : List (String × Json)) (key : String)
    (apart : ∀ entry ∈ other, lit key ≠ lit entry.1) : (update d other).get key = d.get key := by
  unfold update
  induction other generalizing d with
  | nil => rfl
  | cons entry rest ih =>
    rw [List.foldl_cons,ih _ fun e member => apart e (List.mem_cons_of_mem entry member)]
    exact Dict.get_set_ne d entry.2 (apart entry List.mem_cons_self)

theorem entries_apart (metadata : Metadata) (key : String) (own : key ∈ ENVELOPE) :
    ∀ entry ∈ metadata.entries double, lit key ≠ lit entry.1 := by
  have distinct : ∀ key ∈ ENVELOPE, ∀ name ∈ ["limit_tokens_per_minute","used_tokens",
      "retry_after_seconds","providers_attempted","outcomes"], lit key ≠ lit name := by decide
  intro entry listed
  apply distinct key own
  cases metadata with
  | budget limitTokensPerMinute usedTokens retryAfterSeconds =>
    simp only [Metadata.entries,List.mem_cons,List.not_mem_nil,or_false] at listed
    obtain rfl | rfl | rfl := listed <;> simp
  | summary providersAttempted outcomes =>
    simp only [Metadata.entries,List.mem_cons,List.not_mem_nil,or_false] at listed
    obtain rfl | rfl := listed <;> simp

/-- The metadata adds to the envelope and replaces nothing in it. -/
theorem envelope_kept (code requestId : Str) (metadata : Option Metadata) (key : String)
    (own : key ∈ ENVELOPE) : (errorFields double code requestId metadata).get key =
      (errorFields double code requestId none).get key := by
  cases metadata with
  | none => rfl
  | some metadata => exact get_update _ _ key (entries_apart double metadata key own)

theorem toPayload_id (code requestId : Str) (metadata : Option Metadata) :
    bodyId (toPayload double code requestId metadata) = some (.str requestId) := by
  have named := envelope_kept double code requestId metadata "request_id" (by decide)
  exact named

/-- A value is added to a dictionary that can be written: so can the result, if the value can. -/
theorem renders_set {d : Dict} (written : renders (.obj d) = true) (key : String) {value : Json}
    (added : renders value = true) : renders (.obj (d.set key value)) = true := by
  rw [renders_obj,List.all_eq_true] at written ⊢
  unfold Dict.set
  split_ifs
  · intro entry member
    obtain ⟨old,listed,rfl⟩ := List.mem_map.mp member
    have kept := written old listed
    split_ifs
    · simp only [Bool.and_eq_true] at kept ⊢
      exact ⟨kept.1,added⟩
    · exact kept
  · intro entry member
    obtain old | new := List.mem_append.mp member
    · exact written entry old
    · rw [List.mem_singleton.mp new,lit_encodes,added]
      rfl

theorem renders_update {d : Dict} (written : renders (.obj d) = true)
    {other : List (String × Json)} (added : ∀ entry ∈ other, renders entry.2 = true) :
    renders (.obj (update d other)) = true := by
  unfold update
  induction other generalizing d with
  | nil => exact written
  | cons entry rest ih =>
    exact ih (renders_set written entry.1 (added entry List.mem_cons_self))
      fun e member => added e (List.mem_cons_of_mem entry member)

theorem outcome_encodes (outcome : AttemptOutcome) : encodes outcome.text = true := by
  cases outcome <;> exact lit_encodes _

theorem entries_render (finite : ∀ seconds, renders (.float (double seconds)) = true)
    (metadata : Metadata) : ∀ entry ∈ metadata.entries double, renders entry.2 = true := by
  intro entry listed
  cases metadata with
  | budget limitTokensPerMinute usedTokens retryAfterSeconds =>
    simp only [Metadata.entries,List.mem_cons,List.not_mem_nil,or_false] at listed
    obtain rfl | rfl | rfl := listed
    · exact renders_int _
    · exact renders_int _
    · exact finite retryAfterSeconds
  | summary providersAttempted outcomes =>
    simp only [Metadata.entries,List.mem_cons,List.not_mem_nil,or_false] at listed
    obtain rfl | rfl := listed
    · exact renders_int _
    · simp [renders_arr,outcome_encodes]

theorem message_encodes (code : Str) :
    encodes ((SAFE_MESSAGES.lookup code).getD (lit "An error occurred.")) = true := by
  cases found : SAFE_MESSAGES.lookup code with
  | none => exact lit_encodes _
  | some message =>
    obtain ⟨front,back,listed,_⟩ := List.lookup_eq_some_iff.mp found
    have member : (code,message) ∈ SAFE_MESSAGES := by simp [listed]
    have every : ∀ entry ∈ SAFE_MESSAGES, encodes entry.2 = true := by
      simp [SAFE_MESSAGES,lit_encodes]
    exact every _ member

/-- No error envelope fails to render, so the handlers of the errors raise nothing themselves. -/
theorem toPayload_renders (finite : ∀ seconds, renders (.float (double seconds)) = true)
    {code requestId : Str} (coded : encodes code = true) (named : encodes requestId = true)
    (metadata : Option Metadata) : renders (toPayload double code requestId metadata) = true := by
  have envelope : renders (.obj (errorFields double code requestId none)) = true := by
    simp [errorFields,renders_obj,lit_encodes,message_encodes,coded,named]
  have fields : renders (.obj (errorFields double code requestId metadata)) = true := by
    cases metadata with
    | none => exact envelope
    | some metadata => exact renders_update envelope (entries_render double finite metadata)
  simp [toPayload,renders_obj (_::_),lit_encodes,fields]

end

end GatewaySuite.Router
