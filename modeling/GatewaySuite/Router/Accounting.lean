import GatewaySuite.Router.Coherence
import Mathlib.Data.List.Perm.Basic
import Mathlib.Data.List.Range

/-! Without cancellations the table is an exact account of the calls: a reserved row for each
call that has reserved and not yet committed or released, a committed row for each call
whose commit has run, and no other row. -/
namespace GatewaySuite.Router
open Python Limiter Lib
variable (limiter : SlidingWindowRateLimiter)

/-- It has reserved and not yet committed or released. -/
def Pc.holding : Pc → Bool
  | .reserve (some (.ok _)) => true
  | .attempt _ _ _ _ => true
  | .commit _ _ done => !done
  | .release _ _ done => !done
  | _ => false

def Pc.billed : Pc → Option Completion
  | .commit _ completion true => some completion
  | .ended (.returned response) => some response.completion
  | _ => none

def Call.rows (call : Call) (c : Nat) : List Row :=
  if call.pc.holding then [⟨c,call.apiKey,call.estimated,call.reservedAt,.reserved⟩]
  else match call.pc.billed with
    | some completion => [⟨c,call.apiKey,completion.totalTokens,call.reservedAt,.committed⟩]
    | none => []

/-- The row of the call was deleted because of its age. -/
def evicted (ledger : List Entry) (c : Nat) : Bool :=
  (ledger.filter fun e => e.id = c).any Entry.evicted

/-- The rows of a key that the calls account for. -/
def System.account (s : System) (apiKey : Str) : List Row :=
  (List.range s.calls.length).flatMap fun c =>
    match s.calls[c]? with
    | some call => if call.apiKey = apiKey ∧ evicted s.books.ledger c = false then call.rows c else []
    | none => []

theorem rows_filter_id (ledger : List Entry) (c : Nat) :
    (rows ledger).filter (fun row => row.id = c) = rows (ledger.filter fun e => e.id = c) := by
  unfold rows
  rw [List.filter_map,List.filter_filter,List.filter_filter]
  congr 1
  apply List.filter_congr
  intro e _
  exact Bool.and_comm _ _

theorem rows_single (ledger : List Entry) (c : Nat) (single : (holds ledger c).length ≤ 1) :
    rows (ledger.filter fun e => e.id = c) =
      if evicted ledger c then [] else rows (holds ledger c) := by
  unfold holds at single ⊢
  unfold evicted
  generalize ledger.filter (fun e => e.id = c) = own at single ⊢
  match own with
  | [] => rfl
  | [e] =>
    obtain ⟨id,apiKey,estimate,createdAt,actual,released,gone⟩ := e
    cases gone <;> simp [rows,Entry.present]
  | e::e'::rest => simp at single

theorem sound_single {hold : Entry} {pc : Pc} {entries : List Entry} {works : List Work}
    (sound : Sound hold pc entries works) : entries.length ≤ 1 := by
  cases sound with
  | draining done holds works state => cases state <;> exact le_rfl
  | drained done holds works state => cases state <;> exact le_rfl
  | _ => simp

theorem own_rows {s : System} (coherent : Coherent s) (c : Nat) :
    s.books.table.filter (fun row => row.id = c) =
      if evicted s.books.ledger c then [] else rows (holds s.books.ledger c) := by
  rw [s.books.balanced,rows_filter_id]
  apply rows_single
  have here := coherent c
  cases known : s.calls[c]? with
  | none =>
    rw [known] at here
    simp [here.1]
  | some call =>
    rw [known] at here
    exact sound_single here

theorem absent_rows {s : System} (coherent : Coherent s) {row : Row} (stored : row ∈ s.books.table) :
    row.id < s.calls.length := by
  by_contra beyond
  have here := coherent row.id
  rw [List.getElem?_eq_none (not_lt.mp beyond)] at here
  have own : row ∈ s.books.table.filter fun other => other.id = row.id := by simpa using stored
  rw [own_rows coherent,here.1] at own
  simp [rows] at own

def Exn.plain : Exn → Bool
  | .cancelled => false
  | _ => true

def Pc.steady : Pc → Bool
  | .release _ exn _ => exn.plain
  | .ended (.refused exn) => exn.plain
  | .ended (.failed exn) => exn.plain
  | _ => true

theorem plain_iff (exn : Exn) : exn.plain = true ↔ exn ≠ .cancelled := by
  cases exn <;> simp [Exn.plain]

theorem turn_steady {before after : Pc} (turn : Turn false before after)
    (steady : before.steady = true) : after.steady = true := by
  cases turn with
  | refuse error exn plain => exact (plain_iff exn).mpr plain
  | expire reservation exn plain => exact (plain_iff exn).mpr plain
  | fail reservation provider rest timeoutS exn plain => exact (plain_iff exn).mpr plain
  | raise reservation exn => exact steady
  | _ => rfl

theorem deliver_steady (pc : Pc) (finished : Finished) (steady : pc.steady = true) :
    (pc.deliver finished).steady = true := by
  unfold Pc.deliver
  split
  · rfl
  · rfl
  · exact steady
  · exact steady

theorem steady_rows {c : Nat} {call : Call} {entries : List Entry} {works : List Work}
    (sound : Sound (call.hold c) call.pc entries works) (steady : call.pc.steady = true) :
    rows entries = call.rows c := by
  unfold Call.rows
  generalize pc : call.pc = here at sound steady
  -- the states that only a cancellation leads to are excluded, the others account for one row
  cases sound with
  | draining done holds works state => cases steady
  | drained done holds works state => cases steady
  | hungUp => cases steady
  | hungUpRefused => cases steady
  | leaked => cases steady
  | _ => rfl

theorem rows_by_id (table : List Row) (n : Nat) (bounded : ∀ row ∈ table, row.id < n) :
    table.Perm ((List.range n).flatMap fun c => table.filter fun row => row.id = c) := by
  induction n generalizing table with
  | zero =>
    have empty : table = [] := List.eq_nil_iff_forall_not_mem.mpr fun row stored =>
      absurd (bounded row stored) (Nat.not_lt_zero _)
    rw [empty]
    exact List.Perm.nil
  | succ n ih =>
    have lower := ih (table.filter fun row => row.id < n) (by simp)
    have parts : ((List.range n).flatMap fun c =>
        (table.filter fun row => row.id < n).filter fun row => row.id = c) =
        (List.range n).flatMap fun c => table.filter fun row => row.id = c := by
      apply List.flatMap_congr
      intro c below
      rw [List.filter_filter]
      apply List.filter_congr
      intro row _
      have small := List.mem_range.mp below
      by_cases own : row.id = c <;> simp [own,small]
    have last : (table.filter fun row => !decide (row.id < n)) = table.filter fun row => row.id = n := by
      apply List.filter_congr
      intro row stored
      have := bounded row stored
      by_cases own : row.id = n
      · simp [own]
      · simp [own]
        omega
    rw [List.range_succ,List.flatMap_append,List.flatMap_singleton,← parts,← last]
    exact (List.filter_append_perm _ table).symm.trans (lower.append_right _)

theorem own_account {s : System} (coherent : Coherent s) {c : Nat} {call : Call}
    (known : s.calls[c]? = some call) (steady : call.pc.steady = true) :
    s.books.table.filter (fun row => row.id = c) =
      if evicted s.books.ledger c then [] else call.rows c := by
  have here := coherent c
  rw [known] at here
  rw [own_rows coherent,steady_rows here steady]

theorem call_rows_key {call : Call} {c : Nat} {row : Row} (own : row ∈ call.rows c) :
    row.apiKey = call.apiKey := by
  unfold Call.rows at own
  split at own
  · simp_all
  · split at own <;> simp_all

theorem account_perm {s : System} (coherent : Coherent s)
    (steady : ∀ (c : Nat) (call : Call), s.calls[c]? = some call → call.pc.steady = true) (apiKey : Str) :
    (s.books.table.filter fun row => row.apiKey = apiKey).Perm (s.account apiKey) := by
  have sorted := rows_by_id (s.books.table.filter fun row => row.apiKey = apiKey) s.calls.length
    fun row stored => absent_rows coherent (List.mem_filter.mp stored).1
  refine sorted.trans (List.Perm.of_eq ?_)
  apply List.flatMap_congr
  intro c below
  cases known : s.calls[c]? with
  | none => exact absurd (List.mem_range.mp below) (not_lt.mpr (List.getElem?_eq_none_iff.mp known))
  | some call =>
    have own := own_account coherent known (steady c call known)
    have swap : (s.books.table.filter fun row => row.apiKey = apiKey).filter
        (fun row => row.id = c) =
          (s.books.table.filter fun row => row.id = c).filter fun row => row.apiKey = apiKey :=
      List.filter_comm _ _ _
    rw [swap,own]
    dsimp only
    by_cases gone : evicted s.books.ledger c = true
    · simp [gone]
    · rw [if_neg gone]
      by_cases mine : call.apiKey = apiKey
      · rw [if_pos ⟨mine,by simpa using gone⟩,List.filter_eq_self]
        intro row stored
        simpa using (call_rows_key stored).trans mine
      · rw [if_neg fun both => mine both.1,List.filter_eq_nil_iff]
        intro row stored
        simpa [call_rows_key stored] using mine

/-- It has called no provider while it has no reservation. -/
def Call.undialled (call : Call) : Prop :=
  (∀ result, call.pc = .reserve result → call.dialled = []) ∧
    ∀ exn, call.pc = .ended (.refused exn) → call.dialled = []

theorem turned_undialled {call next : Call} {cancelled : Bool} (before : call.undialled)
    (turned : call.Turned next cancelled) : next.undialled := by
  obtain ⟨_,turn,kept⟩ := turned
  constructor
  · intro result awaits
    rw [awaits] at turn
    exact (turn_reserve turn).elim
  · intro exn refused
    rw [refused] at turn
    obtain ⟨result,awaited⟩ := turn_refused turn
    rw [kept exn refused]
    exact before.1 result awaited

theorem delivered_undialled (call : Call) (finished : Finished) (before : call.undialled) :
    ({call with pc := call.pc.deliver finished} : Call).undialled := by
  constructor
  · intro result awaits
    obtain ⟨old,awaited⟩ := deliver_reserve awaits
    exact before.1 old awaited
  · intro exn refused
    exact before.2 exn (deliver_ended.mp refused)

def Event.cancels : Event → Bool
  | .wake _ wakeup => wakeup.isCancelled
  | _ => false

/-- After every run without cancellations, at every moment: the un-evicted rows of a key are
those the calls account for; a refused call has left no row and called no provider; and a
failed call has left no row. -/
theorem exact_accounting (breakers : Nat → CircuitBreaker) (events : List Event) (last : System)
    (undisturbed : ∀ event ∈ events, event.cancels = false)
    (ran : run (System.step limiter) (System.start breakers) events = some last) :
    (∀ apiKey, (last.books.table.filter fun row => row.apiKey = apiKey).Perm
      (last.account apiKey)) ∧
    ∀ c call, last.calls[c]? = some call →
      (∀ exn, call.pc = .ended (.refused exn) →
        call.dialled = [] ∧ ∀ row ∈ last.books.table, row.id ≠ c) ∧
      ∀ exn, call.pc = .ended (.failed exn) → ∀ row ∈ last.books.table, row.id ≠ c := by
  have coherent := run_invariant (step_coherent limiter) (start_coherent breakers) ran
  have steady : ∀ (c : Nat) (call : Call), last.calls[c]? = some call → call.pc.steady = true := by
    intro c call known
    refine calls_invariant limiter (fun call => call.pc.steady = true)
      (fun wakeup => wakeup.isCancelled = false) ?_ ?_ ?_ ?_ ran known
    · intro call awaits _
      rw [awaits]
      rfl
    · exact fun call finished before => deliver_steady call.pc finished before
    · intro call next wakeup admitted before turned
      rw [admitted] at turned
      exact turn_steady turned.turn before
    · rintro event member c wakeup rfl
      exact undisturbed _ member
  refine ⟨account_perm coherent steady,?_⟩
  intro c call known
  have undialled : call.undialled := by
    refine calls_invariant limiter Call.undialled (fun _ => True) ?_ delivered_undialled ?_
      (fun _ _ _ _ _ => trivial) ran known
    · exact fun call _ none => ⟨fun _ _ => none,fun _ _ => none⟩
    · exact fun call next wakeup _ before turned => turned_undialled before turned
  have rowless (nothing : call.rows c = []) : ∀ row ∈ last.books.table, row.id ≠ c := by
    intro row stored own
    have listed : row ∈ last.books.table.filter fun row => row.id = c := by simpa [own] using stored
    rw [own_account coherent known (steady c call known),nothing,ite_self] at listed
    cases listed
  constructor
  · intro exn refused
    exact ⟨undialled.2 exn refused,rowless (by simp [Call.rows,refused,Pc.holding,Pc.billed])⟩
  · intro exn failed
    exact rowless (by simp [Call.rows,failed,Pc.holding,Pc.billed])

def sampleRouter : ModelRouter := ⟨⟨0,lit "primary"⟩,⟨1,lit "secondary"⟩,3,none,0⟩

/-- Two tenants at once: the first is answered and committed, the second fails over. -/
def sharedRun : List Event :=
  [.route sampleRouter (lit "tenant-a") (lit "hello") 256 (lit "r1") 0 0,
    .route sampleRouter (lit "tenant-b") (lit "hello") 512 (lit "r2") 0 0,
    .transaction 1,.transaction 0,.wake 1 (.finished ⟨0,0,0⟩),.wake 0 (.finished ⟨0,0,0⟩),
    .wake 0 (.answered (.completed ⟨lit "hi",1,2,lit "primary"⟩) ⟨1,1,10⟩),
    .wake 1 (.answered (.providerError ⟨lit "unavailable",some 503⟩) ⟨1,1,10⟩),.transaction 0]

theorem exact_accounting_shared :
    ∃ last, run (System.step ⟨50000,60⟩) (System.start fun _ => CircuitBreaker.default) sharedRun =
        some last ∧
      ∀ apiKey, (last.books.table.filter fun row => row.apiKey = apiKey).Perm
        (last.account apiKey) := by
  have offered : (run (System.step ⟨50000,60⟩) (System.start fun _ => CircuitBreaker.default)
      sharedRun).isSome = true := by decide +kernel
  obtain ⟨last,ran⟩ := Option.isSome_iff_exists.mp offered
  exact ⟨last,ran,(exact_accounting _ _ sharedRun last (by decide) ran).1⟩

end GatewaySuite.Router
