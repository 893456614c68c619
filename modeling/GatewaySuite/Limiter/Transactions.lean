import GatewaySuite.Limiter.Window

/-! The limiter's calls on one table, in the order in which they get the write lock, and the
sign of what they store. -/
namespace GatewaySuite.Limiter
open Python
variable (limiter : SlidingWindowRateLimiter)

/-- A call of the limiter. `reserve` and `usage` carry the clock as it was read when they were
called; `newId` is the `uuid4` of the reserve. -/
inductive Operation where
  | reserve (newId : Nat) (apiKey : Str) (estimatedTokens : Int) (now : ℚ)
  | commit (reservation : Reservation) (actualTokens : Int)
  | release (reservation : Reservation)
  | usage (apiKey : Str) (now : ℚ)

namespace Operation

def apiKey : Operation → Str
  | .reserve _ apiKey _ _ => apiKey
  | .commit reservation _ => reservation.apiKey
  | .release reservation => reservation.apiKey
  | .usage apiKey _ => apiKey

def reading : Operation → Option ℚ
  | .reserve _ _ _ now => some now
  | .commit _ _ => none
  | .release _ => none
  | .usage _ now => some now

def row? : Operation → Option Nat
  | .reserve newId _ _ _ => some newId
  | .commit reservation _ => some reservation.id
  | .release reservation => some reservation.id
  | .usage _ _ => none

end Operation

inductive Result where
  | reserved (result : Except ReserveError Reservation)
  | done
  | snapshot (usage : UsageSnapshot)

def execute (table : List Row) : Operation → Result × List Row
  | .reserve newId apiKey estimatedTokens now =>
    let (result,table) := reserveSync limiter table apiKey estimatedTokens now newId
    (.reserved result,table)
  | .commit reservation actualTokens => (.done,commitSync table reservation.id actualTokens)
  | .release reservation => (.done,releaseSync table reservation.id)
  | .usage apiKey now => (.snapshot (usageSync limiter table apiKey now),table)

def tableAfter : List Row → List Operation → List Row
  | table,[] => table
  | table,op::rest => tableAfter (execute limiter table op).2 rest

def results : List Row → List Operation → List (Operation × Result)
  | _,[] => []
  | table,op::rest =>
    (op,(execute limiter table op).1) :: results (execute limiter table op).2 rest

theorem tableAfter_append (table : List Row) (first second : List Operation) :
    tableAfter limiter table (first++second) =
      tableAfter limiter (tableAfter limiter table first) second := by
  induction first generalizing table with
  | nil => rfl
  | cons op rest ih => exact ih (execute limiter table op).2

/-- No row holds less than nothing, so no count is below zero and no key has more than the limit. -/
structure Solvent (table : List Row) : Prop where
  tokens : ∀ row ∈ table, 0 ≤ row.tokens
  used : ∀ apiKey now, 0 ≤ (usageSync limiter table apiKey now).usedTokens
  remaining : ∀ apiKey now,
    (usageSync limiter table apiKey now).remainingTokens ≤ max 0 limiter.limit
  admitted : ∀ apiKey estimate now newId reservation after,
    reserveSync limiter table apiKey estimate now newId = (.ok reservation,after) →
      estimate ≤ limiter.limit

theorem sumTokens_nonneg {table : List Row} (tokens : ∀ row ∈ table, 0 ≤ row.tokens) (apiKey : Str)
    (cutoff : ℚ) : 0 ≤ sumTokens table apiKey cutoff := by
  apply List.sum_nonneg
  intro count member
  obtain ⟨row,inside,rfl⟩ := List.mem_map.mp member
  exact tokens row (List.mem_of_mem_filter inside)

theorem solvent_tokens {table : List Row} (tokens : ∀ row ∈ table, 0 ≤ row.tokens) :
    Solvent limiter table where
  tokens := tokens
  used := fun apiKey now => sumTokens_nonneg tokens apiKey (now - limiter.window)
  remaining := by
    intro apiKey now
    have used := sumTokens_nonneg tokens apiKey (now - limiter.window)
    simp only [UsageSnapshot.remainingTokens,usageSync]
    omega
  admitted := by
    intro apiKey estimate now newId reservation after made
    have used := sumTokens_nonneg tokens apiKey (now - limiter.window)
    have room := (reserveSync_ok made).2.2.1
    omega

/-- A commit that stores a negative count in a row. -/
def Overdraws (table : List Row) : Operation → Prop
  | .commit reservation actual => actual < 0 ∧ ∃ row ∈ table, row.id = reservation.id
  | _ => False

theorem execute_tokens {table : List Row} (tokens : ∀ row ∈ table, 0 ≤ row.tokens) (op : Operation)
    (covered : ¬Overdraws table op) : ∀ row ∈ (execute limiter table op).2, 0 ≤ row.tokens := by
  cases op with
  | reserve newId apiKey estimate now =>
    simp only [execute]
    cases made : reserveSync limiter table apiKey estimate now newId with
    | mk result after =>
      cases result with
      | error error =>
        rw [reserveSync_error made]
        exact tokens
      | ok reservation =>
        obtain ⟨_,nonneg,_,rfl⟩ := reserveSync_ok made
        intro row member
        obtain old | new := List.mem_append.mp member
        · exact tokens row (List.mem_of_mem_filter old)
        · rw [List.mem_singleton] at new
          subst row
          exact nonneg
  | commit reservation actual =>
    intro row member
    obtain ⟨old,inside,rfl⟩ := List.mem_map.mp member
    split_ifs with mine
    · by_contra negative
      exact covered ⟨not_le.mp negative,old,inside,mine⟩
    · exact tokens old inside
  | release reservation => exact fun row member => tokens row (List.mem_of_mem_filter member)
  | usage apiKey now => exact tokens

theorem tableAfter_tokens {table : List Row} (tokens : ∀ row ∈ table, 0 ≤ row.tokens)
    (operations : List Operation)
    (covered : ∀ before op after, operations = before ++ op :: after →
      ¬Overdraws (tableAfter limiter table before) op) :
    ∀ row ∈ tableAfter limiter table operations, 0 ≤ row.tokens := by
  induction operations generalizing table with
  | nil => exact tokens
  | cons op rest ih =>
    apply ih (execute_tokens limiter tokens op (covered [] op rest rfl))
    intro before later after split
    exact covered (op::before) later after (by rw [split,List.cons_append])

/-- In every run, and at every moment of it: no count is negative exactly if no commit stores
a negative count in a row. -/
theorem usage_never_negative (operations : List Operation) :
    (∀ before after, operations = before ++ after → Solvent limiter (tableAfter limiter [] before)) ↔
      ∀ before op after, operations = before ++ op :: after →
        ¬Overdraws (tableAfter limiter [] before) op := by
  constructor
  · intro solvent before op after split overdraws
    have sound := solvent (before ++ [op]) after (by rw [split,List.append_assoc]; rfl)
    rw [tableAfter_append] at sound
    cases op with
    | reserve newId apiKey estimate now => exact overdraws
    | release reservation => exact overdraws
    | usage apiKey now => exact overdraws
    | commit reservation actual =>
      obtain ⟨negative,row,inside,mine⟩ := overdraws
      have stored := sound.tokens {row with tokens := actual, state := .committed}
        (List.mem_map.mpr ⟨row,inside,by rw [if_pos mine]⟩)
      exact absurd negative (not_lt.mpr stored)
  · intro covered before after split
    apply solvent_tokens
    apply tableAfter_tokens limiter (by simp)
    intro first op last here
    exact covered first op (last++after) (by rw [split,here,List.append_assoc]; rfl)

/-- A commit of -5 tokens is accepted, and leaves its key a count below zero. -/
theorem negative_commit_makes_headroom :
    ¬∀ (limiter : SlidingWindowRateLimiter) (operations before after : List Operation),
      operations = before ++ after → Solvent limiter (tableAfter limiter [] before) := by
  intro every
  let reservation : Reservation := ⟨0,lit "tenant-a",10⟩
  let operations : List Operation := [.reserve 0 (lit "tenant-a") 10 0,.commit reservation (-5)]
  have solvent := every ⟨100,60⟩ operations operations [] rfl
  have used := solvent.used (lit "tenant-a") 1
  exact absurd used (by decide +kernel)

end GatewaySuite.Limiter
