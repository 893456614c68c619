import GatewaySuite.Limiter.Ledger
import Mathlib.Algebra.BigOperators.Group.List.Basic
import Mathlib.Tactic.Linarith
import Mathlib.Tactic.Ring

/-! The advice of a refusal: when the oldest row leaves the window, in whole seconds. -/
namespace GatewaySuite.Limiter
open Python
variable (limiter : SlidingWindowRateLimiter)

/-- `int(x)`: towards zero. -/
def truncate (x : ℚ) : Int := if 0 ≤ x then ⌊x⌋ else ⌈x⌉

/-- The seconds of the `Retry-After` header. -/
def retryAfterSeconds (retryAfterS : ℚ) : Int := truncate retryAfterS + 1

/-- What rounding up to whole seconds adds to a wait. -/
def grace (wait : ℚ) : ℚ := ⌊round3 wait⌋ + 1 - wait

/-- The rows created before this have left the window when the wait is over: those created
within the grace after the oldest. A timestamp of zero counts as absent. -/
def leftBefore (oldest : Option ℚ) (now : ℚ) : ℚ :=
  match oldest with
  | some oldest =>
    if oldest = 0 then now + 1 - limiter.window
    else oldest + grace (oldest + limiter.window - now)
  | none => now + 1 - limiter.window

/-- What the rows of a key hold that are in the window and were created before `left`. -/
def freedTokens (table : List Row) (apiKey : Str) (cutoff left : ℚ) : Int :=
  (((selectRows table apiKey cutoff).filter fun row => decide (row.createdAt < left)).map Row.tokens).sum

def shortfall (table : List Row) (apiKey : Str) (estimatedTokens : Int) (now : ℚ) : Int :=
  sumTokens table apiKey (now - limiter.window) + estimatedTokens - limiter.limit

theorem roundHalfEven_bounds (x : ℚ) : ⌊x⌋ ≤ roundHalfEven x ∧ x - 1/2 ≤ roundHalfEven x := by
  have below := Int.floor_le x
  have above := Int.lt_floor_add_one x
  unfold roundHalfEven
  dsimp only
  split_ifs with low high even
  · exact ⟨le_rfl,by linarith⟩
  · exact ⟨by omega,by push_cast; linarith⟩
  · exact ⟨le_rfl,by linarith⟩
  · exact ⟨by omega,by push_cast; linarith⟩

theorem round3_nonneg {x : ℚ} (nonneg : 0 ≤ x) : 0 ≤ round3 x := by
  have scaled : 0 ≤ ⌊x*1000⌋ := Int.floor_nonneg.mpr (by linarith)
  have rounded : (0 : ℚ) ≤ roundHalfEven (x*1000) := by
    exact_mod_cast scaled.trans (roundHalfEven_bounds (x*1000)).1
  unfold round3
  linarith

theorem oldestCreated_mem {table : List Row} {apiKey : Str} {cutoff oldest : ℚ}
    (found : oldestCreated table apiKey cutoff = some oldest) :
    ∃ row ∈ selectRows table apiKey cutoff, row.createdAt = oldest :=
  List.mem_map.mp (List.min?_mem found)

theorem selectRows_recent {table : List Row} {apiKey : Str} {cutoff : ℚ} {row : Row}
    (member : row ∈ selectRows table apiKey cutoff) : cutoff ≤ row.createdAt := by
  have counts := (List.mem_filter.mp member).2
  rw [Bool.and_eq_true,decide_eq_true_eq] at counts
  exact counts.2

/-- The advertised seconds end when the rows before `leftBefore` have left the window. -/
theorem wait_leaves (table : List Row) (apiKey : Str) (now : ℚ) :
    now + retryAfterSeconds (round3 (retryAfter limiter
      (oldestCreated table apiKey (now - limiter.window)) now)) - limiter.window =
        leftBefore limiter (oldestCreated table apiKey (now - limiter.window)) now := by
  have zero : retryAfterSeconds (round3 0) = 1 := by decide +kernel
  cases found : oldestCreated table apiKey (now - limiter.window) with
  | none =>
    simp only [retryAfter,leftBefore,zero]
    push_cast
    rfl
  | some oldest =>
    simp only [retryAfter,leftBefore]
    split_ifs with epoch
    · rw [zero]
      push_cast
      rfl
    · obtain ⟨row,member,rfl⟩ := oldestCreated_mem found
      have recent := selectRows_recent member
      have wait : 0 ≤ row.createdAt + limiter.window - now := by linarith
      rw [max_eq_right wait,retryAfterSeconds,truncate,if_pos (round3_nonneg wait),grace]
      push_cast
      ring

theorem sumTokens_later (table : List Row) (apiKey : Str) {cutoff later : ℚ} (forward : cutoff ≤ later) :
    sumTokens table apiKey cutoff =
      freedTokens table apiKey cutoff later + sumTokens table apiKey later := by
  have stay : selectRows table apiKey later =
      (selectRows table apiKey cutoff).filter fun row => !decide (row.createdAt < later) := by
    unfold selectRows
    rw [List.filter_filter]
    apply List.filter_congr
    intro row _
    by_cases recent : later ≤ row.createdAt
    · simp [recent,forward.trans recent,not_lt.mpr recent]
    · simp [recent,not_le.mp recent]
  unfold sumTokens freedTokens
  rw [stay]
  generalize selectRows table apiKey cutoff = chosen
  induction chosen with
  | nil => rfl
  | cons row rest ih =>
    by_cases gone : row.createdAt < later
    · simp [gone] at ih ⊢
      omega
    · simp [gone] at ih ⊢
      omega

theorem reserveSync_admits (table : List Row) (apiKey : Str) {estimate : Int} (now : ℚ) (newId : Nat)
    (nonneg : 0 ≤ estimate) :
    (∃ reservation after, reserveSync limiter table apiKey estimate now newId =
      (.ok reservation,after)) ↔ sumTokens table apiKey (now - limiter.window) + estimate ≤ limiter.limit := by
  unfold reserveSync
  rw [if_neg (not_lt.mpr nonneg)]
  dsimp only
  split_ifs with full
  · simp [not_le.mpr full]
  · simp [not_lt.mp full]

theorem reserveSync_exceeded {table after : List Row} {apiKey : Str} {estimate : Int} {now : ℚ}
    {newId : Nat} {exc : RateLimitExceeded}
    (refused : reserveSync limiter table apiKey estimate now newId = (.error (.exceeded exc),after)) :
    0 ≤ estimate ∧ exc.retryAfterS =
      round3 (retryAfter limiter (oldestCreated table apiKey (now - limiter.window)) now) := by
  unfold reserveSync at refused
  dsimp only at refused
  split_ifs at refused with negative full
  · cases refused
  · cases refused
    exact ⟨not_lt.mp negative,rfl⟩
  · cases refused

/-- A refused reserve is admitted when the advertised seconds have passed exactly if the rows
that have left the window by then held what it was short of. -/
theorem retry_guidance {table after : List Row} {apiKey : Str} {estimate : Int} {now : ℚ}
    {newId : Nat} {exc : RateLimitExceeded}
    (refused : reserveSync limiter table apiKey estimate now newId = (.error (.exceeded exc),after))
    (laterId : Nat) :
    (∃ reservation later, reserveSync limiter table apiKey estimate
        (now + retryAfterSeconds exc.retryAfterS) laterId = (.ok reservation,later)) ↔
      shortfall limiter table apiKey estimate now ≤
        freedTokens table apiKey (now - limiter.window)
          (leftBefore limiter (oldestCreated table apiKey (now - limiter.window)) now) := by
  obtain ⟨nonneg,advice⟩ := reserveSync_exceeded limiter refused
  have ends := wait_leaves limiter table apiKey now
  rw [← advice] at ends
  have forward : now - limiter.window ≤ now + retryAfterSeconds exc.retryAfterS - limiter.window := by
    have positive : 0 ≤ exc.retryAfterS := by
      rw [advice]
      apply round3_nonneg
      unfold retryAfter
      split
      · split_ifs
        · exact le_rfl
        · exact le_max_left _ _
      · exact le_rfl
    have whole : 0 ≤ retryAfterSeconds exc.retryAfterS := by
      rw [retryAfterSeconds,truncate,if_pos positive]
      exact add_nonneg (Int.floor_nonneg.mpr positive) zero_le_one
    have cast : (0 : ℚ) ≤ retryAfterSeconds exc.retryAfterS := by exact_mod_cast whole
    linarith
  rw [reserveSync_admits limiter table apiKey _ laterId nonneg,← ends,shortfall,
    sumTokens_later table apiKey forward]
  constructor <;> intro room <;> linarith

/-- The rows of a key that reserved 10 tokens and, thirty seconds later, 90. -/
def unevenTable : List Row :=
  [⟨0,lit "tenant-a",10,1000,.reserved⟩,⟨1,lit "tenant-a",90,1030,.reserved⟩]

/-- Ten tokens are refused with 20 seconds of advice, which the oldest row makes good. -/
theorem retry_guidance_uneven :
    reserveSync ⟨100,60⟩ unevenTable (lit "tenant-a") 10 1040 2 =
      (.error (.exceeded ⟨100,100,20⟩),unevenTable) ∧
    ∃ reservation later, reserveSync ⟨100,60⟩ unevenTable (lit "tenant-a") 10
      (1040 + retryAfterSeconds 20) 3 = (.ok reservation,later) := by
  have refused : reserveSync ⟨100,60⟩ unevenTable (lit "tenant-a") 10 1040 2 =
      (.error (.exceeded ⟨100,100,20⟩),unevenTable) := by decide +kernel
  exact ⟨refused,(retry_guidance ⟨100,60⟩ refused 3).mpr (by decide +kernel)⟩

/-- The oldest row holds 10 tokens, and 20 are wanted. -/
theorem oldest_row_too_small :
    ¬∀ (limiter : SlidingWindowRateLimiter) (table after : List Row) (apiKey : Str) (estimate : Int)
      (now : ℚ) (newId laterId : Nat) (exc : RateLimitExceeded), (∀ row ∈ table, 0 ≤ row.tokens) →
      estimate ≤ limiter.limit →
      reserveSync limiter table apiKey estimate now newId = (.error (.exceeded exc),after) →
      ∃ reservation later, reserveSync limiter table apiKey estimate
        (now + retryAfterSeconds exc.retryAfterS) laterId = (.ok reservation,later) := by
  intro every
  have admitted := every ⟨100,60⟩ unevenTable unevenTable (lit "tenant-a") 20 1040 2 3 ⟨100,100,20⟩
    (by decide) (by decide) (by decide +kernel)
  rw [reserveSync_admits _ _ _ _ _ (by decide)] at admitted
  exact absurd admitted (by decide +kernel)

end GatewaySuite.Limiter
