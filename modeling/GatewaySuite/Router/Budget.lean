import GatewaySuite.Limiter.Window
import GatewaySuite.Router.Accounting
import Mathlib.Data.Set.Finite.Lattice

/-! The tenants' budget over runs of the router. The limiter keeps a window if no reservation is
committed twice; calls of `route` see to that themselves, cancelled or not. -/
namespace GatewaySuite.Router
open Python Limiter Lib
variable (limiter : SlidingWindowRateLimiter)

def Work.isCommit : Work → Bool
  | .commit _ _ => true
  | _ => false

def System.commits (s : System) (c : Nat) : Nat :=
  (holds s.books.ledger c).countP (fun e => e.actual.isSome) + (works s.jobs c).countP Work.isCommit

theorem effect_commits {id : Nat} {work : Work} {finished : Finished} {before after : List Entry}
    (effect : Effect id work finished before after) (single : before.length ≤ 1) :
    after.countP (fun e => e.actual.isSome) ≤
      before.countP (fun e => e.actual.isSome) + [work].countP Work.isCommit := by
  cases effect with
  | refuse apiKey estimate now error => exact Nat.le_add_right _ _
  | grant apiKey estimate now => simp [opened]
  | commit actual =>
    have all := (before.map fun e => {e with actual := some actual}).countP_le_length
      (p := fun e => e.actual.isSome)
    rw [List.length_map] at all
    simp only [List.countP_singleton,Work.isCommit,if_true]
    omega
  | release => simp [List.countP_map,Function.comp_def]

/-- A commit is submitted at the end of an attempt only. -/
theorem turn_commits {cancelled : Bool} {before after : Pc} {reservation : Reservation}
    {completion : Completion} (turn : Turn cancelled before after)
    (commits : after = .commit reservation completion false) :
    ∃ provider rest timeoutS, before = .attempt reservation provider rest timeoutS := by
  cases turn with
  | complete reservation' provider rest timeoutS completion' =>
    cases commits
    exact ⟨provider,rest,timeoutS,rfl⟩
  | _ => cases commits

theorem submits_commits (call : Call) :
    call.submits.countP Work.isCommit = 0 ∨
      ∃ reservation completion, call.pc = .commit reservation completion false := by
  unfold Call.submits
  split
  · exact Or.inl rfl
  · exact Or.inr ⟨_,_,by assumption⟩
  · exact Or.inl rfl
  · exact Or.inl rfl

theorem turned_commits {hold : Entry} {call next : Call} {cancelled : Bool} {entries : List Entry}
    {works : List Work} (turned : call.Turned next cancelled) (sound : Sound hold call.pc entries works)
    (once : entries.countP (fun e => e.actual.isSome) + works.countP Work.isCommit ≤ 1)
    (fresh : hold.actual = none) :
    entries.countP (fun e => e.actual.isSome) + (works ++ next.submits).countP Work.isCommit ≤ 1 := by
  rw [List.countP_append]
  obtain none | ⟨reservation,completion,commits⟩ := submits_commits next
  · rw [none]
    exact once
  · obtain ⟨provider,rest,timeoutS,awaited⟩ := turn_commits turned.turn commits
    rw [awaited] at sound
    cases sound with
    | attempting provider rest timeoutS => simp [Call.submits,commits,Work.isCommit,fresh]

theorem step_commits {s next : System} {event : Event} (coherent : Coherent s)
    (once : ∀ c, s.commits c ≤ 1) (stepped : s.step limiter event = some next) (c : Nat) :
    next.commits c ≤ 1 := by
  have here := once c
  cases event with
  | route router apiKey prompt maxTokens requestId started reservedAt =>
    cases stepped
    simp only [System.commits,works_append,works_submitted] at here ⊢
    split_ifs
    · simpa [Call.enter,Call.submits,Work.isCommit] using here
    · simpa using here
  | transaction i =>
    obtain ⟨job,listed,rfl⟩ := Option.map_eq_some_iff.mp stepped
    obtain ⟨⟨front,back,whole,left⟩,others⟩ := works_eraseIdx listed
    obtain ⟨effect,frame⟩ :=
      perform_effect limiter s.books job.call job.work (listed_belongs coherent listed)
    unfold System.commits at here ⊢
    by_cases own : job.call = c
    · subst c
      have single : (holds s.books.ledger job.call).length ≤ 1 := by
        have sound := coherent job.call
        cases known : s.calls[job.call]? with
        | none =>
          rw [known] at sound
          simp [sound.1]
        | some call =>
          rw [known] at sound
          exact sound_single sound
      have performed := effect_commits effect single
      simp only [left]
      rw [whole,List.countP_append,List.countP_cons] at here
      rw [List.countP_append]
      rw [List.countP_singleton] at performed
      omega
    · simp only [frame c (Ne.symm own),others c (Ne.symm own)]
      exact here
  | wake c' wakeup =>
    obtain ⟨call,known,moves⟩ := Option.bind_eq_some_iff.mp stepped
    obtain ⟨moved,woken,rfl⟩ := Option.map_eq_some_iff.mp moves
    simp only [System.commits,System.put,works_append,works_submitted] at here ⊢
    split_ifs with own
    · subst c'
      have sound := coherent c
      rw [known] at sound
      exact turned_commits (Call.wake_turned woken) sound here rfl
    · rw [List.append_nil]
      exact here

/-- The clock reading of a reserve, at its transaction. -/
def reserveTime (x : System × Event) : Option ℚ :=
  match x.2 with
  | .transaction i =>
    (x.1.jobs[i]?).bind fun job =>
      match job.work with
      | .reserve _ _ now => some now
      | _ => none
  | _ => none

/-- The reserves read the clock in the order of their transactions. -/
def InOrder (past : List (System × Event)) (s : System) (event : Event) : Prop :=
  ∀ x ∈ past, ∀ earlier ∈ reserveTime x, ∀ now ∈ reserveTime (s,event), earlier ≤ now

instance (past : List (System × Event)) (s : System) (event : Event) :
    Decidable (InOrder past s event) :=
  inferInstanceAs (Decidable (∀ x ∈ past, ∀ earlier ∈ reserveTime x,
    ∀ now ∈ reserveTime (s,event), earlier ≤ now))

/-- No provider reports a negative number of tokens. -/
def Event.metered : Event → Prop
  | .wake _ (.answered (.completed completion) _) => 0 ≤ completion.totalTokens
  | _ => True

theorem tryNext_commits {call : Call} {reservation : Reservation} {breaker : CircuitBreaker}
    {candidates : List Provider} {readings : Readings} {reservation' : Reservation}
    {completion : Completion} :
    (call.tryNext reservation breaker candidates readings).1.pc ≠
      .commit reservation' completion false := by
  unfold Call.tryNext
  split
  · simp [Call.allFailed]
  · dsimp only
    split_ifs <;> simp [Call.allFailed]

/-- What is committed is what the provider has answered. -/
theorem wakes_commits {call : Call} {breaker : CircuitBreaker} {wakeup : Wakeup}
    {moved : Call × CircuitBreaker} {reservation : Reservation} {completion : Completion}
    (wakes : call.Wakes breaker wakeup moved)
    (commits : moved.1.pc = .commit reservation completion false) :
    ∃ readings, wakeup = .answered (.completed completion) readings := by
  cases wakes with
  | reserved result readings awaited =>
    match result with
    | .error .ValueError => cases commits
    | .error (.exceeded _) => cases commits
    | .ok reservation =>
      unfold Call.afterReserve at commits
      dsimp only at commits
      split_ifs at commits <;> exact absurd commits tryNext_commits
  | answered reservation provider rest timeoutS answer readings awaited =>
    cases answer with
    | completed completion' =>
      cases commits
      exact ⟨readings,rfl⟩
    | _ =>
      simp only [Call.afterAttempt,Call.attemptRecord] at commits
      split_ifs at commits <;> first | cases commits | exact absurd commits tryNext_commits
  | _ => cases commits

def System.metered (s : System) : Prop :=
  ∀ job ∈ s.jobs, ∀ id actual, job.work = .commit id actual → 0 ≤ actual

theorem step_metered {s next : System} {event : Event} (metered : s.metered)
    (admitted : event.metered) (stepped : s.step limiter event = some next) : next.metered := by
  cases event with
  | route router apiKey prompt maxTokens requestId started reservedAt =>
    cases stepped
    intro job member id actual commits
    obtain old | new := List.mem_append.mp member
    · exact metered job old id actual commits
    · simp only [Call.enter,Call.submits,List.map_cons,List.map_nil,List.mem_singleton] at new
      subst job
      cases commits
  | transaction i =>
    obtain ⟨job,listed,rfl⟩ := Option.map_eq_some_iff.mp stepped
    exact fun job' member => metered job' (List.mem_of_mem_eraseIdx member)
  | wake c wakeup =>
    obtain ⟨call,known,moves⟩ := Option.bind_eq_some_iff.mp stepped
    obtain ⟨moved,woken,rfl⟩ := Option.map_eq_some_iff.mp moves
    intro job member id actual commits
    obtain old | new := List.mem_append.mp member
    · exact metered job old id actual commits
    · obtain ⟨work,submitted,rfl⟩ := List.mem_map.mp new
      dsimp only at commits
      subst work
      unfold Call.submits at submitted
      split at submitted
      · simp at submitted
      · rename_i reservation completion awaits
        obtain ⟨readings,rfl⟩ := wakes_commits (Call.wake_cases woken) awaits
        rw [List.mem_singleton] at submitted
        cases submitted
        exact admitted
      · simp at submitted
      · simp at submitted

def Work.transaction : Work → Transaction
  | .reserve apiKey estimatedTokens now => .reserve apiKey estimatedTokens now
  | .commit reservationId actualTokens => .commit reservationId actualTokens
  | .release reservationId => .release reservationId

/-- The only commit of a reservation that is outstanding finds it uncommitted. -/
theorem commits_uncommitted {s : System} (coherent : Coherent s) (once : ∀ c, s.commits c ≤ 1)
    {i : Nat} {job : Job} (listed : s.jobs[i]? = some job) {id : Nat} {actual : Int}
    (commits : job.work = .commit id actual) : uncommitted s.books.ledger id = true := by
  have own : id = job.call := by
    have belongs := listed_belongs coherent listed
    rw [commits] at belongs
    exact belongs
  subst id
  have here := once job.call
  obtain ⟨⟨front,back,whole,_⟩,_⟩ := works_eraseIdx listed
  rw [System.commits,whole,List.countP_append,commits,List.countP_cons] at here
  simp only [Work.isCommit,if_true] at here
  have none : (holds s.books.ledger job.call).countP (fun e => e.actual.isSome) = 0 := by omega
  rw [List.countP_eq_zero] at none
  rw [uncommitted,List.all_eq_true]
  intro e member
  by_cases mine : e.id = job.call
  · have inside : {e with evicted := false} ∈ holds s.books.ledger job.call :=
      List.mem_map_of_mem (List.mem_filter.mpr ⟨member,decide_eq_true mine⟩)
    simpa [mine] using none _ inside
  · simp [mine]

/-- A transaction of the router is one that the limiter's bound is about. -/
theorem perform_window {s : System} (coherent : Coherent s) (once : ∀ c, s.commits c ≤ 1)
    (metered : s.metered) {i : Nat} {job : Job} (listed : s.jobs[i]? = some job) {now : ℚ}
    (forward : ∀ apiKey estimate time, job.work = .reserve apiKey estimate time → time = now) :
    ∃ nextId, Window.step limiter ⟨s.books,job.call,now⟩ job.work.transaction =
      some ⟨(perform limiter s.books job.call job.work).2,nextId,now⟩ := by
  cases work : job.work with
  | reserve apiKey estimate time =>
    cases forward _ _ _ work
    exact ⟨job.call+1,by simp [Window.step,Work.transaction,perform]⟩
  | commit id actual =>
    have first := commits_uncommitted coherent once listed work
    have nonneg := metered job (List.mem_of_getElem? listed) id actual work
    exact ⟨job.call,by simp [Window.step,Work.transaction,perform,first,nonneg]⟩
  | release id => exact ⟨job.call,rfl⟩

theorem bounded_later {books : Books} {n m : Nat} {earlier now : ℚ} (later : earlier ≤ now)
    (bounded : Bounded limiter ⟨books,n,earlier⟩) : Bounded limiter ⟨books,m,now⟩ :=
  ⟨bounded.counted,fun e member gone => by linarith [bounded.aged e member gone],bounded.held⟩

/-- The budget at every time that is not before the reserves so far. -/
structure Budgeted (past : List (System × Event)) (s : System) : Prop where
  coherent : Coherent s
  once : ∀ c, s.commits c ≤ 1
  metered : s.metered
  bounded : ∀ now, (∀ x ∈ past, ∀ earlier ∈ reserveTime x, earlier ≤ now) →
    Bounded limiter ⟨s.books,0,now⟩

theorem start_budgeted (breakers : Nat → CircuitBreaker) :
    Budgeted limiter [] (System.start breakers) := by
  refine ⟨start_coherent breakers,?_,by simp [System.start,System.metered],fun now _ =>
    opening_bounded limiter now⟩
  simp [System.start,System.commits,Books.empty,holds,works]

theorem Budgeted.step {past : List (System × Event)} {s next : System} {event : Event}
    (budgeted : Budgeted limiter past s) (ordered : InOrder past s event) (admitted : event.metered)
    (stepped : s.step limiter event = some next) : Budgeted limiter (past ++ [(s,event)]) next := by
  refine ⟨step_coherent limiter _ _ _ budgeted.coherent stepped,
    step_commits limiter budgeted.coherent budgeted.once stepped,
    step_metered limiter budgeted.metered admitted stepped,fun now latest => ?_⟩
  have before : Bounded limiter ⟨s.books,0,now⟩ :=
    budgeted.bounded now fun x member => latest x (List.mem_append_left _ member)
  cases event with
  | route router apiKey prompt maxTokens requestId started reservedAt =>
    cases stepped
    exact before
  | wake c wakeup =>
    obtain ⟨call,known,moves⟩ := Option.bind_eq_some_iff.mp stepped
    obtain ⟨moved,woken,rfl⟩ := Option.map_eq_some_iff.mp moves
    exact before
  | transaction i =>
    obtain ⟨job,listed,rfl⟩ := Option.map_eq_some_iff.mp stepped
    obtain ⟨time,reached,forward,start⟩ : ∃ time ≤ now,
        (∀ apiKey estimate reading, job.work = .reserve apiKey estimate reading → reading = time) ∧
        Bounded limiter ⟨s.books,job.call,time⟩ := by
      cases work : job.work with
      | reserve apiKey estimate reading =>
        have read : reserveTime (s,.transaction i) = some reading := by
          simp [reserveTime,listed,work]
        refine ⟨reading,latest _ (by simp) reading read,by simp,?_⟩
        refine bounded_later limiter le_rfl (budgeted.bounded reading ?_)
        exact fun x member earlier told => ordered x member earlier told reading read
      | commit id actual => exact ⟨now,le_rfl,by simp,bounded_later limiter le_rfl before⟩
      | release id => exact ⟨now,le_rfl,by simp,bounded_later limiter le_rfl before⟩
    obtain ⟨nextId,performed⟩ := perform_window limiter budgeted.coherent budgeted.once
      budgeted.metered listed forward
    exact bounded_later limiter reached (step_bounded limiter _ _ _ start performed)

/-- In every run of any number of calls, cancelled or not: the charges of a key in a window,
wherever it ends, are within the limit up to what providers used beyond the estimates. -/
theorem routing_within_budget {breakers : Nat → CircuitBreaker} {events : List Event} {last : System}
    (ran : run (System.step limiter) (System.start breakers) events = some last)
    (ordered : Along InOrder (System.step limiter) [] (System.start breakers) events)
    (metered : ∀ event ∈ events, event.metered) (apiKey : Str) (T : ℚ) :
    let inWindow := last.books.ledger.filter (within limiter apiKey T)
    (inWindow.map Entry.charge).sum ≤ max 0 limiter.limit + (inWindow.map Entry.overrun).sum := by
  intro inWindow
  have counted : Along (fun _ _ event => event.metered) (System.step limiter) []
      (System.start breakers) events :=
    along_events (fun e member _ _ => metered e member) [] _
  have along := along_and ordered counted
  have budgeted : Budgeted limiter (history (System.step limiter) (System.start breakers) events)
      last :=
    along_invariant (Budgeted limiter)
      (fun past s event next met budgeted stepped => budgeted.step limiter met.1 met.2 stepped)
      along (start_budgeted limiter breakers) ran
  obtain ⟨now,latest⟩ := ((history (System.step limiter) (System.start breakers)
    events).filterMap reserveTime).finite_toSet.bddAbove
  have bounded := budgeted.bounded now fun x member earlier told =>
    latest (List.mem_filterMap.mpr ⟨x,member,told⟩)
  rw [held_sum]
  exact Int.add_le_add_right (bounded.held apiKey T) _

theorem routing_within_budget_shared :
    ∃ last, run (System.step ⟨50000,60⟩) (System.start fun _ => CircuitBreaker.default) sharedRun =
        some last ∧ last.books.ledger.length = 2 ∧
      ((last.books.ledger.filter (within ⟨50000,60⟩ (lit "tenant-a") 20)).map Entry.charge).sum ≤
        max 0 50000 + ((last.books.ledger.filter
          (within ⟨50000,60⟩ (lit "tenant-a") 20)).map Entry.overrun).sum := by
  have ends : ((run (System.step ⟨50000,60⟩) (System.start fun _ => CircuitBreaker.default)
      sharedRun).any fun last => last.books.ledger.length = 2) = true := by decide +kernel
  obtain ⟨last,ran,two⟩ := (Option.any_eq_true ..).mp ends
  have ordered : Along InOrder (System.step ⟨50000,60⟩) []
      (System.start fun _ => CircuitBreaker.default) sharedRun := by decide +kernel
  refine ⟨last,ran,of_decide_eq_true two,
    routing_within_budget ⟨50000,60⟩ ran ordered ?_ (lit "tenant-a") 20⟩
  simp [sharedRun,Event.metered,Completion.totalTokens]

end GatewaySuite.Router
