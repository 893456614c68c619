import GatewaySuite.Limiter.Ledger
import GatewaySuite.Lib.Run
import Mathlib.Algebra.BigOperators.Group.List.Basic
import Mathlib.Algebra.Order.BigOperators.Group.List
import Mathlib.Tactic.Linarith

/-! No window is oversubscribed, at any position. What an entry holds within its estimate
only shrinks after its admission, so the admission that was last in a window bounds it. -/
namespace GatewaySuite.Limiter
open Python Lib
variable (limiter : SlidingWindowRateLimiter)

inductive Transaction where
  | reserve (apiKey : Str) (estimate : Int) (now : ℚ)
  | commit (id : Nat) (actual : Int)
  | release (id : Nat)

structure Window where
  books : Books
  nextId : Nat
  clock : ℚ

def Window.opening (clock : ℚ) : Window := ⟨Books.empty,0,clock⟩

def uncommitted (ledger : List Entry) (id : Nat) : Bool :=
  ledger.all fun e => decide (e.id ≠ id) || e.actual.isNone

/-- One transaction. It is offered when the clock has not gone back, and a commit when it is
the first of its reservation and its count is not negative. -/
def Window.step (s : Window) : Transaction → Option Window
  | .reserve apiKey estimate now =>
    if s.clock ≤ now then
      some ⟨(s.books.reserve limiter apiKey estimate now s.nextId).2,s.nextId+1,now⟩
    else none
  | .commit id actual =>
    if uncommitted s.books.ledger id && decide (0 ≤ actual) then
      some {s with books := s.books.commit id actual}
    else none
  | .release id => some {s with books := s.books.release id}

namespace Entry

/-- What is charged within the estimate. -/
def held (e : Entry) : Int := e.charge - e.overrun

theorem held_open (e : Entry) (here : e.released = false) (fresh : e.actual = none) :
    e.held = e.estimate := by simp [held,charge,overrun,here,fresh]

theorem held_released (e : Entry) (back : e.released = true) : e.held = 0 := by
  simp [held,charge,overrun,back]

theorem held_committed (e : Entry) (here : e.released = false) {actual : Int}
    (done : e.actual = some actual) : e.held = min actual e.estimate := by
  simp only [held,charge,overrun,here,done,Option.getD_some,Bool.false_eq_true,if_false]
  omega

theorem held_settled (e : Entry) (fresh : e.actual = none) (actual : Int) :
    ({e with actual := some actual} : Entry).held ≤ e.held := by
  let settled : Entry := {e with actual := some actual}
  change settled.held ≤ e.held
  cases back : e.released with
  | true => rw [settled.held_released back,e.held_released back]
  | false =>
    rw [settled.held_committed back rfl,e.held_open back fresh]
    exact min_le_right actual e.estimate

def Counted (e : Entry) : Prop := 0 ≤ e.estimate ∧ ∀ actual ∈ e.actual, 0 ≤ actual

theorem held_bounds (e : Entry) (counted : e.Counted) :
    0 ≤ e.held ∧ e.held ≤ e.estimate ∧ e.held ≤ e.row.tokens := by
  obtain ⟨estimate,actual⟩ := counted
  cases back : e.released with
  | true =>
    rw [e.held_released back]
    cases done : e.actual with
    | none => simpa [row,done] using estimate
    | some count => simpa [row,done] using ⟨estimate,actual count done⟩
  | false =>
    cases done : e.actual with
    | none =>
      rw [e.held_open back done]
      simpa [row,done] using estimate
    | some count =>
      rw [e.held_committed back done]
      have nonneg := actual count done
      simp only [row,done,Option.getD_some]
      omega

end Entry

/-- A reservation of the key that was created in the window that ends at `T`. -/
def within (apiKey : Str) (T : ℚ) (e : Entry) : Bool :=
  e.apiKey == apiKey && decide (T - limiter.window ≤ e.createdAt) && decide (e.createdAt ≤ T)

def heldIn (ledger : List Entry) (apiKey : Str) (T : ℚ) : Int :=
  ((ledger.filter (within limiter apiKey T)).map Entry.held).sum

theorem heldIn_cons (e : Entry) (rest : List Entry) (apiKey : Str) (T : ℚ) :
    heldIn limiter (e::rest) apiKey T =
      (if within limiter apiKey T e then e.held else 0) + heldIn limiter rest apiKey T := by
  unfold heldIn
  cases inside : within limiter apiKey T e <;> simp [inside]

theorem heldIn_append (first second : List Entry) (apiKey : Str) (T : ℚ) :
    heldIn limiter (first++second) apiKey T =
      heldIn limiter first apiKey T + heldIn limiter second apiKey T := by simp [heldIn]

theorem heldIn_map (ledger : List Entry) (change : Entry → Entry) (apiKey : Str) (T : ℚ)
    (stays : ∀ e, within limiter apiKey T (change e) = within limiter apiKey T e)
    (lower : ∀ e ∈ ledger, (change e).held ≤ e.held) :
    heldIn limiter (ledger.map change) apiKey T ≤ heldIn limiter ledger apiKey T := by
  induction ledger with
  | nil => exact le_rfl
  | cons e rest ih =>
    rw [List.map_cons,heldIn_cons,heldIn_cons,stays e]
    have tail := ih fun x member => lower x (List.mem_cons_of_mem e member)
    have head := lower e List.mem_cons_self
    split_ifs <;> omega

theorem sumTokens_cons (row : Row) (table : List Row) (apiKey : Str) (cutoff : ℚ) :
    sumTokens (row::table) apiKey cutoff =
      (if row.apiKey = apiKey ∧ cutoff ≤ row.createdAt then row.tokens else 0) +
        sumTokens table apiKey cutoff := by
  unfold sumTokens selectRows
  by_cases counts : row.apiKey = apiKey ∧ cutoff ≤ row.createdAt
  · simp [counts]
  · rw [if_neg counts,zero_add,List.filter_cons_of_neg (by simpa using counts)]

/-- The count that a reserve reads covers every window that ends later. -/
theorem heldIn_sumTokens (ledger : List Entry) (apiKey : Str) (now T : ℚ) (later : now ≤ T)
    (counted : ∀ e ∈ ledger, e.Counted)
    (aged : ∀ e ∈ ledger, e.evicted = true → e.createdAt < now - limiter.window) :
    heldIn limiter ledger apiKey T ≤ sumTokens (rows ledger) apiKey (now - limiter.window) := by
  induction ledger with
  | nil => exact le_rfl
  | cons e rest ih =>
    have tail := ih (fun x member => counted x (List.mem_cons_of_mem e member))
      (fun x member => aged x (List.mem_cons_of_mem e member))
    obtain ⟨nonneg,_,covered⟩ := e.held_bounds (counted e List.mem_cons_self)
    rw [heldIn_cons,rows_cons]
    cases here : e.present with
    | true =>
      rw [if_pos rfl,List.singleton_append,sumTokens_cons]
      by_cases inside : within limiter apiKey T e = true
      · have counts : e.row.apiKey = apiKey ∧ now - limiter.window ≤ e.row.createdAt := by
          simp only [within,Bool.and_eq_true,beq_iff_eq,decide_eq_true_eq] at inside
          have recent : now - limiter.window ≤ e.createdAt := by linarith [inside.1.2]
          exact ⟨inside.1.1,recent⟩
        rw [if_pos inside,if_pos counts]
        omega
      · rw [if_neg inside]
        split_ifs <;> omega
    | false =>
      simp only [Bool.false_eq_true,if_false,List.nil_append]
      by_cases inside : within limiter apiKey T e = true
      · rw [if_pos inside]
        -- an evicted entry is too old for the window, so this one was released
        have back : e.released = true := by
          simp only [Entry.present,Bool.and_eq_false_iff,Bool.not_eq_false'] at here
          rcases here with back | gone
          · exact back
          · simp only [within,Bool.and_eq_true,beq_iff_eq,decide_eq_true_eq] at inside
            linarith [inside.1.2,aged e List.mem_cons_self gone]
        rw [e.held_released back]
        omega
      · rw [if_neg inside]
        omega

structure Bounded (s : Window) : Prop where
  counted : ∀ e ∈ s.books.ledger, e.Counted
  aged : ∀ e ∈ s.books.ledger, e.evicted = true → e.createdAt < s.clock - limiter.window
  held : ∀ apiKey T, heldIn limiter s.books.ledger apiKey T ≤ max 0 limiter.limit

theorem opening_bounded (clock : ℚ) : Bounded limiter (Window.opening clock) where
  counted := by simp [Window.opening,Books.empty]
  aged := by simp [Window.opening,Books.empty]
  held := by simp [Window.opening,Books.empty,heldIn]

theorem addEntry_bounded {s : Window} (bounded : Bounded limiter s) {apiKey : Str} {estimate : Int}
    {now : ℚ} {books : Books} (forward : s.clock ≤ now) (nonneg : 0 ≤ estimate)
    (room : sumTokens s.books.table apiKey (now - limiter.window) + estimate ≤ limiter.limit)
    (admitted : books.ledger =
      addEntry s.books.ledger (now - limiter.window) (opened s.nextId apiKey estimate now)) :
    Bounded limiter ⟨books,s.nextId+1,now⟩ where
  counted := by
    intro e member
    rw [admitted,addEntry,List.mem_append,List.mem_map,List.mem_singleton] at member
    rcases member with ⟨old,inside,rfl⟩ | rfl
    · split_ifs <;> exact bounded.counted old inside
    · exact ⟨nonneg,by simp [opened]⟩
  aged := by
    intro e member gone
    rw [admitted,addEntry,List.mem_append,List.mem_map,List.mem_singleton] at member
    rcases member with ⟨old,inside,rfl⟩ | rfl
    · split_ifs at gone ⊢ with tooOld
      · exact tooOld
      · linarith [bounded.aged old inside gone]
    · simp [opened] at gone
  held := by
    intro key T
    have kept : heldIn limiter (s.books.ledger.map fun e =>
        if e.createdAt < now - limiter.window then {e with evicted := true} else e) key T ≤
          heldIn limiter s.books.ledger key T := by
      apply heldIn_map
      · intro e
        split_ifs <;> rfl
      · intro e _
        split_ifs <;> exact le_rfl
    rw [admitted,addEntry,heldIn_append,heldIn_cons]
    have start := bounded.held key T
    by_cases inside : within limiter key T (opened s.nextId apiKey estimate now) = true
    · rw [if_pos inside]
      simp only [within,opened,Bool.and_eq_true,beq_iff_eq] at inside
      obtain ⟨⟨same,_⟩,later⟩ := inside
      subst key
      have read := heldIn_sumTokens limiter s.books.ledger apiKey now T
        (of_decide_eq_true later) bounded.counted
        (fun e member gone => by linarith [bounded.aged e member gone])
      rw [← s.books.balanced] at read
      have fresh : (opened s.nextId apiKey estimate now).held = estimate :=
        Entry.held_open _ rfl rfl
      simp only [fresh,heldIn,List.filter_nil,List.map_nil,List.sum_nil] at kept ⊢
      unfold heldIn at read
      omega
    · rw [if_neg inside]
      simp only [heldIn,List.filter_nil,List.map_nil,List.sum_nil] at kept start ⊢
      omega

theorem Bounded.change {s : Window} (bounded : Bounded limiter s) {books : Books}
    (change : Entry → Entry) (changed : books.ledger = s.books.ledger.map change)
    (stays : ∀ e, (change e).apiKey = e.apiKey ∧ (change e).createdAt = e.createdAt ∧
      (change e).evicted = e.evicted)
    (counted : ∀ e ∈ s.books.ledger, (change e).Counted)
    (lower : ∀ e ∈ s.books.ledger, (change e).held ≤ e.held) :
    Bounded limiter {s with books := books} where
  counted := by
    rw [changed,List.forall_mem_map]
    exact counted
  aged := by
    rw [changed,List.forall_mem_map]
    intro e member gone
    rw [(stays e).2.2] at gone
    rw [(stays e).2.1]
    exact bounded.aged e member gone
  held := by
    intro key T
    rw [changed]
    apply (heldIn_map limiter s.books.ledger change key T ?_ lower).trans (bounded.held key T)
    intro e
    simp only [within,stays e]

theorem step_bounded (s : Window) (t : Transaction) (next : Window) (bounded : Bounded limiter s)
    (stepped : Window.step limiter s t = some next) : Bounded limiter next := by
  cases t with
  | reserve apiKey estimate now =>
    simp only [Window.step] at stepped
    split_ifs at stepped with forward
    cases stepped
    rcases s.books.reserve_cases limiter apiKey estimate now s.nextId with
      ⟨error,refused⟩ | ⟨books,made,nonneg,room,admitted⟩
    · rw [refused]
      exact ⟨bounded.counted,
        fun e member gone => by linarith [bounded.aged e member gone],bounded.held⟩
    · rw [made]
      exact addEntry_bounded limiter bounded forward nonneg room admitted
  | commit id actual =>
    simp only [Window.step,Bool.and_eq_true,decide_eq_true_eq] at stepped
    split_ifs at stepped with first
    cases stepped
    obtain ⟨once,nonneg⟩ := first
    have open' : ∀ e ∈ s.books.ledger, e.id = id → e.actual = none := by
      intro e member mine
      simpa [mine] using List.all_eq_true.mp once e member
    apply bounded.change limiter _ rfl
    · intro e
      split_ifs <;> exact ⟨rfl,rfl,rfl⟩
    · intro e member
      split_ifs
      · exact ⟨(bounded.counted e member).1,by simpa using nonneg⟩
      · exact bounded.counted e member
    · intro e member
      split_ifs with mine
      · exact e.held_settled (open' e member mine) actual
      · exact le_rfl
  | release id =>
    cases stepped
    apply bounded.change limiter _ rfl
    · intro e
      split_ifs <;> exact ⟨rfl,rfl,rfl⟩
    · intro e member
      split_ifs <;> exact bounded.counted e member
    · intro e member
      split_ifs
      · rw [Entry.held_released _ rfl]
        exact (e.held_bounds (bounded.counted e member)).1
      · exact le_rfl

theorem held_sum (ledger : List Entry) :
    (ledger.map Entry.charge).sum = (ledger.map Entry.held).sum + (ledger.map Entry.overrun).sum := by
  rw [← List.sum_map_add]
  congr 1
  simp [Entry.held]

/-- After every run, whatever the position of the window. -/
theorem window_not_oversubscribed (start : ℚ) (transactions : List Transaction) (last : Window)
    (ran : run (Window.step limiter) (Window.opening start) transactions = some last) (apiKey : Str)
    (T : ℚ) :
    let inWindow := last.books.ledger.filter (within limiter apiKey T)
    (inWindow.map Entry.charge).sum ≤ max 0 limiter.limit + (inWindow.map Entry.overrun).sum := by
  intro inWindow
  have bounded := run_invariant (step_bounded limiter) (opening_bounded limiter start) ran
  rw [held_sum]
  exact Int.add_le_add_right (bounded.held apiKey T) _

def tradedRun : List Transaction :=
  [.reserve (lit "tenant-a") 40 0,.reserve (lit "tenant-a") 60 10,.commit 0 70,.release 1,
    .reserve (lit "tenant-a") 30 20]

theorem window_not_oversubscribed_traded :
    ∃ last, run (Window.step ⟨100,60⟩) (Window.opening 0) tradedRun = some last ∧
      ((last.books.ledger.filter (within ⟨100,60⟩ (lit "tenant-a") 20)).map Entry.charge).sum ≤
        max 0 100 +
          ((last.books.ledger.filter (within ⟨100,60⟩ (lit "tenant-a") 20)).map Entry.overrun).sum := by
  have offered : (run (Window.step ⟨100,60⟩) (Window.opening 0) tradedRun).isSome = true := by
    decide +kernel
  obtain ⟨last,ran⟩ := Option.isSome_iff_exists.mp offered
  exact ⟨last,ran,window_not_oversubscribed ⟨100,60⟩ 0 tradedRun last ran (lit "tenant-a") 20⟩

/-- Under a negative limit even the empty window is above the limit itself. -/
theorem negative_limit_exceeded :
    ¬∀ (limiter : SlidingWindowRateLimiter) (start : ℚ) (transactions : List Transaction)
      (last : Window), run (Window.step limiter) (Window.opening start) transactions = some last →
      ∀ apiKey T, ((last.books.ledger.filter (within limiter apiKey T)).map Entry.charge).sum ≤
        limiter.limit + ((last.books.ledger.filter (within limiter apiKey T)).map Entry.overrun).sum := by
  intro every
  have empty := every ⟨-1,60⟩ 0 [] (Window.opening 0) rfl (lit "tenant-a") 0
  simp [Window.opening,Books.empty] at empty

end GatewaySuite.Limiter
