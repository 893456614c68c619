import GatewaySuite.Python.Text
import Mathlib.Algebra.Order.Ring.Rat
import Mathlib.Data.Rat.Defs

/-! What the router reads of its providers, and the circuit breaker in front of the primary
one. Every method of the breaker is given the clock reading it would take. -/
namespace GatewaySuite.Router
open Python

/-- A provider object; `is` compares the identity. -/
structure Provider where
  identity : Nat
  name : Str
deriving DecidableEq

structure ProviderError where
  message : Str
  statusCode : Option Int

/-- 429 and 5xx are worth trying elsewhere, and so is a transport failure. -/
def ProviderError.isRetryable (self : ProviderError) : Bool :=
  match self.statusCode with
  | none => true
  | some status => status == 429 || decide (500 ≤ status)

structure Completion where
  text : Str
  promptTokens : Int
  completionTokens : Int
  provider : Str
deriving DecidableEq

def Completion.totalTokens (self : Completion) : Int := self.promptTokens + self.completionTokens

def estimateTokens (prompt : Str) (maxTokens : Int) : Int :=
  max 1 ((prompt.length / 4 : Nat) : Int) + maxTokens

inductive BreakerState where
  | closed
  | open
  | halfOpen
deriving DecidableEq

structure CircuitBreaker where
  failureThreshold : Int
  recoveryTimeS : ℚ
  consecutiveFailures : Int
  openedAt : Option ℚ
  probeInFlight : Bool

namespace CircuitBreaker

/-- `CircuitBreaker()` -/
def default : CircuitBreaker := ⟨5,30,0,none,false⟩

def state (self : CircuitBreaker) (now : ℚ) : BreakerState :=
  match self.openedAt with
  | none => .closed
  | some openedAt => if self.recoveryTimeS ≤ now - openedAt then .halfOpen else .open

def allowsRequest (self : CircuitBreaker) (now : ℚ) : Bool × CircuitBreaker :=
  match self.state now with
  | .closed => (true,self)
  | .open => (false,self)
  | .halfOpen =>
    if self.probeInFlight then (false,self) else (true,{self with probeInFlight := true})

def abandonProbe (self : CircuitBreaker) : CircuitBreaker := {self with probeInFlight := false}

def recordSuccess (self : CircuitBreaker) : CircuitBreaker :=
  {self with consecutiveFailures := 0, openedAt := none, probeInFlight := false}

def recordFailure (self : CircuitBreaker) (now : ℚ) : CircuitBreaker :=
  let failures := self.consecutiveFailures+1
  {self with
    consecutiveFailures := failures
    probeInFlight := false
    openedAt := if self.failureThreshold ≤ failures then some now else self.openedAt}

end CircuitBreaker
end GatewaySuite.Router
