import GatewaySuite.Limiter.Ledger
import GatewaySuite.Lib.Run
import GatewaySuite.Router.Route
import Mathlib.Logic.Function.Basic

/-! Any number of calls of `route` over one limiter. The event loops run one stretch of one
call at a time, and the worker threads run the limiter's transactions one at a time, in the
order in which they get the write lock; a thread finishes its transaction whether or not
anyone still waits for it. -/
namespace GatewaySuite.Router
open Python Limiter Lib

inductive Work where
  | reserve (apiKey : Str) (estimatedTokens : Int) (now : ℚ)
  | commit (reservationId : Nat) (actualTokens : Int)
  | release (reservationId : Nat)
deriving DecidableEq

structure Job where
  call : Nat
  work : Work

inductive Finished where
  | reserved (result : Except ReserveError Reservation)
  | committed
  | released

inductive Wakeup where
  | finished (readings : Readings)
  | answered (answer : Answer) (readings : Readings)
  | cancelled

inductive Event where
  | route (router : ModelRouter) (apiKey prompt : Str) (maxTokens : Int) (requestId : Str)
      (started reservedAt : ℚ)
  | transaction (job : Nat)
  | wake (call : Nat) (wakeup : Wakeup)

structure System where
  books : Books
  breakers : Nat → CircuitBreaker
  calls : List Call
  jobs : List Job

/-- The result of a thread reaches the call if the call still awaits it. -/
def Pc.deliver (pc : Pc) (finished : Finished) : Pc :=
  match pc,finished with
  | .reserve none,.reserved result => .reserve (some result)
  | .commit reservation completion false,.committed => .commit reservation completion true
  | .release reservation exn false,.released => .release reservation exn true
  | pc,_ => pc

namespace Call

def submits (call : Call) : List Work :=
  match call.pc with
  | .reserve none => [.reserve call.apiKey call.estimated call.reservedAt]
  | .commit reservation completion false => [.commit reservation.id completion.totalTokens]
  | .release reservation _ false => [.release reservation.id]
  | _ => []

def wake (call : Call) (breaker : CircuitBreaker) : Wakeup → Option (Call × CircuitBreaker)
  | .finished readings =>
    match call.pc with
    | .reserve (some result) => some (call.afterReserve result breaker readings)
    | .commit _ completion true =>
      some ({call with pc := .ended (.returned ⟨completion,call.requestId,call.attempts⟩)},breaker)
    | .release _ exn true => some ({call with pc := .ended (.failed exn)},breaker)
    | _ => none
  | .answered answer readings =>
    match call.pc with
    | .attempt reservation provider rest _ =>
      some (call.afterAttempt reservation provider rest answer breaker readings)
    | _ => none
  | .cancelled => call.cancelled breaker

end Call

/-- A transaction; `newId`, the number of the call, stands for the `uuid4` of its reserve. -/
def perform (limiter : SlidingWindowRateLimiter) (books : Books) (newId : Nat) :
    Work → Finished × Books
  | .reserve apiKey estimatedTokens now =>
    let (result,books) := books.reserve limiter apiKey estimatedTokens now newId
    (.reserved result,books)
  | .commit reservationId actualTokens => (.committed,books.commit reservationId actualTokens)
  | .release reservationId => (.released,books.release reservationId)

namespace System

def start (breakers : Nat → CircuitBreaker) : System := ⟨Books.empty,breakers,[],[]⟩

def put (s : System) (c : Nat) (moved : Call × CircuitBreaker) : System :=
  {s with
    breakers := Function.update s.breakers moved.1.router.breaker moved.2
    calls := s.calls.set c moved.1
    jobs := s.jobs ++ moved.1.submits.map (Job.mk c)}

def step (limiter : SlidingWindowRateLimiter) (s : System) : Event → Option System
  | .route router apiKey prompt maxTokens requestId started reservedAt =>
    let call := Call.enter router apiKey prompt maxTokens requestId started reservedAt
    some {s with
      calls := s.calls ++ [call]
      jobs := s.jobs ++ call.submits.map (Job.mk s.calls.length)}
  | .transaction i =>
    (s.jobs[i]?).map fun job =>
      let (finished,books) := perform limiter s.books job.call job.work
      {s with
        books := books
        calls := s.calls.modify job.call fun call => {call with pc := call.pc.deliver finished}
        jobs := s.jobs.eraseIdx i}
  | .wake c wakeup =>
    (s.calls[c]?).bind fun call =>
      (call.wake (s.breakers call.router.breaker) wakeup).map (s.put c)

end System

/-- The reservations of a call, whether evicted or not. -/
def holds (ledger : List Entry) (c : Nat) : List Entry :=
  (ledger.filter fun e => e.id = c).map fun e => {e with evicted := false}

def works (jobs : List Job) (c : Nat) : List Work :=
  (jobs.filter fun job => job.call = c).map Job.work

end GatewaySuite.Router
