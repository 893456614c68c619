import GatewaySuite.Limiter.Store
import GatewaySuite.Router.Providers

/-! `ModelRouter.route`, cut where it suspends. Between two suspension points a call runs
undisturbed on the event loop; `Pc` says what it awaits, and each function below is the
stretch of code from one await to the next. -/
namespace GatewaySuite.Router
open Python Limiter

inductive AttemptOutcome where
  | success
  | timeout
  | retryableError
  | clientError
  | circuitOpen
  | deadlineExhausted
deriving DecidableEq

structure AttemptRecord where
  provider : Str
  outcome : AttemptOutcome
  durationMs : ℚ
  statusCode : Option Int
deriving DecidableEq

inductive GatewayErrorCode where
  | rateLimited
  | allProvidersFailed
  | upstreamTimeout
  | upstreamError
deriving DecidableEq

/-- The parts of the logged text: `str(exc)`, `{name} returned {status_code}`, and
`all providers failed: {attempts}`. -/
inductive Detail where
  | exceeded (exc : RateLimitExceeded)
  | returned (name : Str) (statusCode : Option Int)
  | allFailed (attempts : List AttemptRecord)
deriving DecidableEq

inductive Metadata where
  | budget (limitTokensPerMinute usedTokens : Int) (retryAfterSeconds : ℚ)
  | summary (providersAttempted : Nat) (outcomes : List AttemptOutcome)
deriving DecidableEq

structure GatewayError where
  code : GatewayErrorCode
  requestId : Str
  detail : Detail
  metadata : Metadata
deriving DecidableEq

def publicAttemptSummary (attempts : List AttemptRecord) : Metadata :=
  .summary attempts.length (attempts.map AttemptRecord.outcome)

structure RoutedResponse where
  completion : Completion
  requestId : Str
  attempts : List AttemptRecord
deriving DecidableEq

/-- The breaker is an object that several routers may share, given by its number. -/
structure ModelRouter where
  primary : Provider
  secondary : Provider
  attemptTimeoutS : ℚ
  totalDeadlineS : Option ℚ
  breaker : Nat

inductive Exn where
  | gateway (error : GatewayError)
  | valueError
  | cancelled
deriving DecidableEq

/-- How a call ends: with its response, with an exception of the reserve, which comes before
the `try`, or with one that went through the `finally`. -/
inductive Outcome where
  | returned (response : RoutedResponse)
  | refused (exn : Exn)
  | failed (exn : Exn)
deriving DecidableEq

/-- What a call awaits: a worker thread, with the result it has left if it is done, or a
provider, with the candidates after it. -/
inductive Pc where
  | reserve (result : Option (Except ReserveError Reservation))
  | attempt (reservation : Reservation) (provider : Provider) (rest : List Provider) (timeoutS : ℚ)
  | commit (reservation : Reservation) (completion : Completion) (done : Bool)
  | release (reservation : Reservation) (exn : Exn) (done : Bool)
  | ended (outcome : Outcome)

/-- A call of `route`: its arguments, the readings it started with, and its locals.
`dialled` lists the providers whose `complete` it has called. -/
structure Call where
  router : ModelRouter
  apiKey : Str
  prompt : Str
  maxTokens : Int
  requestId : Str
  started : ℚ
  reservedAt : ℚ
  attempts : List AttemptRecord
  dialled : List Provider
  pc : Pc

inductive Answer where
  | completed (completion : Completion)
  | timeout
  | providerError (error : ProviderError)
  | unexpected (message : Str)

/-- The clocks as one stretch of code reads them: for the breaker, for the budget, and the
duration of the attempt that it ends. -/
structure Readings where
  breaker : ℚ
  budget : ℚ
  durationMs : ℚ

namespace Call

def estimated (call : Call) : Int := estimateTokens call.prompt call.maxTokens

def remainingBudget (call : Call) (now : ℚ) : ℚ :=
  match call.router.totalDeadlineS with
  | none => call.router.attemptTimeoutS
  | some total => total - (now - call.started)

def enter (router : ModelRouter) (apiKey prompt : Str) (maxTokens : Int) (requestId : Str)
    (started reservedAt : ℚ) : Call :=
  ⟨router,apiKey,prompt,maxTokens,requestId,started,reservedAt,[],[],.reserve none⟩

def allFailed (call : Call) (reservation : Reservation) : Call :=
  let timedOut := call.attempts.all fun record =>
    record.outcome == .timeout || record.outcome == .deadlineExhausted
  {call with pc := .release reservation (.gateway
    ⟨if timedOut then .upstreamTimeout else .allProvidersFailed,call.requestId,
      .allFailed call.attempts,publicAttemptSummary call.attempts⟩) false}

/-- The head of the loop over the candidates. -/
def tryNext (call : Call) (reservation : Reservation) (breaker : CircuitBreaker)
    (candidates : List Provider) (readings : Readings) : Call × CircuitBreaker :=
  match candidates with
  | [] => (call.allFailed reservation,breaker)
  | provider::rest =>
    let remaining := call.remainingBudget readings.budget
    if remaining ≤ 0 then
      let record : AttemptRecord := ⟨provider.name,.deadlineExhausted,0,none⟩
      (({call with attempts := call.attempts ++ [record]} : Call).allFailed reservation,
        if provider = call.router.primary then breaker.abandonProbe else breaker)
    else
      ({call with
        dialled := call.dialled ++ [provider]
        pc := .attempt reservation provider rest (min call.router.attemptTimeoutS remaining)},
        breaker)

def afterReserve (call : Call) (result : Except ReserveError Reservation)
    (breaker : CircuitBreaker) (readings : Readings) : Call × CircuitBreaker :=
  match result with
  | .error .ValueError => ({call with pc := .ended (.refused .valueError)},breaker)
  | .error (.exceeded exc) =>
    ({call with pc := .ended (.refused (.gateway
      ⟨.rateLimited,call.requestId,.exceeded exc,.budget exc.limit exc.used exc.retryAfterS⟩))},
      breaker)
  | .ok reservation =>
    let (allowed,breaker) := breaker.allowsRequest readings.breaker
    if allowed then
      call.tryNext reservation breaker [call.router.primary,call.router.secondary] readings
    else
      let record : AttemptRecord := ⟨call.router.primary.name,.circuitOpen,0,none⟩
      ({call with attempts := call.attempts ++ [record]} : Call).tryNext reservation breaker
        [call.router.secondary] readings

/-- `_attempt`, from the end of its await. -/
def attemptRecord (provider : Provider) (answer : Answer) (durationMs : ℚ) :
    Option Completion × AttemptRecord :=
  match answer with
  | .completed completion => (some completion,⟨provider.name,.success,durationMs,none⟩)
  | .timeout => (none,⟨provider.name,.timeout,durationMs,none⟩)
  | .providerError error =>
    (none,⟨provider.name,if error.isRetryable then .retryableError else .clientError,durationMs,
      error.statusCode⟩)
  | .unexpected _ => (none,⟨provider.name,.retryableError,durationMs,none⟩)

def report (outcome : AttemptOutcome) (breaker : CircuitBreaker) (now : ℚ) : CircuitBreaker :=
  match outcome with
  | .success | .clientError => breaker.recordSuccess
  | .timeout | .retryableError => breaker.recordFailure now
  | .circuitOpen | .deadlineExhausted => breaker

def afterAttempt (call : Call) (reservation : Reservation) (provider : Provider)
    (rest : List Provider) (answer : Answer) (breaker : CircuitBreaker) (readings : Readings) :
    Call × CircuitBreaker :=
  let (completion,record) := attemptRecord provider answer readings.durationMs
  let call := {call with attempts := call.attempts ++ [record]}
  let breaker :=
    if provider = call.router.primary then report record.outcome breaker readings.breaker
    else breaker
  match completion with
  | some completion => ({call with pc := .commit reservation completion false},breaker)
  | none =>
    if record.outcome = .clientError then
      ({call with pc := .release reservation (.gateway
        ⟨.upstreamError,call.requestId,.returned provider.name record.statusCode,
          publicAttemptSummary call.attempts⟩) false},breaker)
    else call.tryNext reservation breaker rest readings

/-- The `CancelledError` at the await: before the `try` it ends the call, in the `try` it goes
to the `finally`, and in the `finally` it replaces what was being raised. -/
def cancelled (call : Call) (breaker : CircuitBreaker) : Option (Call × CircuitBreaker) :=
  match call.pc with
  | .reserve _ => some ({call with pc := .ended (.refused .cancelled)},breaker)
  | .attempt reservation provider _ _ =>
    some ({call with pc := .release reservation .cancelled false},
      if provider = call.router.primary then breaker.abandonProbe else breaker)
  | .commit reservation _ _ => some ({call with pc := .release reservation .cancelled false},breaker)
  | .release _ _ _ => some ({call with pc := .ended (.failed .cancelled)},breaker)
  | .ended _ => none

end Call
end GatewaySuite.Router
