import GatewaySuite.Python.Text
import Mathlib.Algebra.Order.Floor.Ring
import Mathlib.Algebra.Order.Ring.Rat
import Mathlib.Data.Rat.Floor

/-! The sliding-window limiter, one transaction at a time. The table is the list of its
rows in the order of insertion, and times are exact; `newId` is the `uuid4` of the call.
A database error leaves the table as it was, like a transaction that never ran. -/
namespace GatewaySuite.Limiter
open Python

inductive RowState where
  | reserved
  | committed
deriving DecidableEq, Repr

structure Row where
  id : Nat
  apiKey : Str
  tokens : Int
  createdAt : ℚ
  state : RowState
deriving DecidableEq

structure SlidingWindowRateLimiter where
  limit : Int
  window : ℚ

structure Reservation where
  id : Nat
  apiKey : Str
  estimatedTokens : Int
deriving DecidableEq

structure RateLimitExceeded where
  used : Int
  limit : Int
  retryAfterS : ℚ
deriving DecidableEq

inductive ReserveError where
  | ValueError
  | exceeded (error : RateLimitExceeded)
deriving DecidableEq

structure UsageSnapshot where
  apiKey : Str
  usedTokens : Int
  limitTokens : Int
deriving DecidableEq

def UsageSnapshot.remainingTokens (self : UsageSnapshot) : Int :=
  max 0 (self.limitTokens - self.usedTokens)

/-- `SELECT … WHERE api_key = ? AND created_at >= ?` -/
def selectRows (table : List Row) (apiKey : Str) (cutoff : ℚ) : List Row :=
  table.filter fun row => row.apiKey == apiKey && decide (cutoff ≤ row.createdAt)

/-- `COALESCE(SUM(tokens), 0)` of the selected rows. -/
def sumTokens (table : List Row) (apiKey : Str) (cutoff : ℚ) : Int :=
  ((selectRows table apiKey cutoff).map Row.tokens).sum

/-- `MIN(created_at)` of the selected rows. -/
def oldestCreated (table : List Row) (apiKey : Str) (cutoff : ℚ) : Option ℚ :=
  ((selectRows table apiKey cutoff).map Row.createdAt).min?

/-- `round(x)`: to the nearest integer, ties to the even one. -/
def roundHalfEven (x : ℚ) : Int :=
  let below := ⌊x⌋
  if x - below < 1/2 then below
  else if 1/2 < x - below then below+1
  else if below % 2 = 0 then below else below+1

/-- `round(x, 3)` -/
def round3 (x : ℚ) : ℚ := roundHalfEven (x*1000) / 1000

/-- A timestamp of zero counts as absent here. -/
def retryAfter (self : SlidingWindowRateLimiter) (oldest : Option ℚ) (now : ℚ) : ℚ :=
  match oldest with
  | some oldest => if oldest = 0 then 0 else max 0 ((oldest + self.window) - now)
  | none => 0

def reserveSync (self : SlidingWindowRateLimiter) (table : List Row) (apiKey : Str) (estimatedTokens : Int)
    (now : ℚ) (newId : Nat) : Except ReserveError Reservation × List Row :=
  if estimatedTokens < 0 then (.error .ValueError,table)
  else
    let cutoff := now - self.window
    let used := sumTokens table apiKey cutoff
    if used + estimatedTokens > self.limit then
      let retry := retryAfter self (oldestCreated table apiKey cutoff) now
      (.error (.exceeded ⟨used,self.limit,round3 retry⟩),table)
    else
      let kept := table.filter fun row => !decide (row.createdAt < cutoff)
      (.ok ⟨newId,apiKey,estimatedTokens⟩,
        kept ++ [⟨newId,apiKey,estimatedTokens,now,.reserved⟩])

def commitSync (table : List Row) (reservationId : Nat) (actualTokens : Int) : List Row :=
  table.map fun row =>
    if row.id = reservationId then {row with tokens := actualTokens, state := .committed} else row

def releaseSync (table : List Row) (reservationId : Nat) : List Row :=
  table.filter fun row => !decide (row.id = reservationId)

def usageSync (self : SlidingWindowRateLimiter) (table : List Row) (apiKey : Str) (now : ℚ) : UsageSnapshot :=
  ⟨apiKey,sumTokens table apiKey (now - self.window),self.limit⟩

end GatewaySuite.Limiter
