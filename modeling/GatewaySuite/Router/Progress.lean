import GatewaySuite.Router.Failover
import Mathlib.Algebra.BigOperators.Group.List.Basic

/-! Every call ends. It takes five turns at most, whatever the providers do and whenever it is
cancelled, and while it has not ended there is a turn or a transaction for it. -/
namespace GatewaySuite.Router
open Python Limiter Lib
variable (limiter : SlidingWindowRateLimiter)

/-- The awaits that a call can still come back from. -/
def Pc.turnsLeft : Pc → Nat
  | .reserve _ => 5
  | .attempt _ _ rest _ => 3 + rest.length
  | .commit _ _ _ => 2
  | .release _ _ _ => 1
  | .ended _ => 0

theorem deliver_turnsLeft (pc : Pc) (finished : Finished) :
    (pc.deliver finished).turnsLeft = pc.turnsLeft := by
  obtain same | ⟨_,awaited,same⟩ | ⟨_,_,awaited,same⟩ | ⟨_,_,awaited,same⟩ :=
    deliver_cases pc finished
  · rw [same]
  · rw [same,awaited]
    rfl
  · rw [same,awaited]
    rfl
  · rw [same,awaited]
    rfl

namespace Call

theorem tryNext_turnsLeft (call : Call) (reservation : Reservation) (breaker : CircuitBreaker)
    (candidates : List Provider) (readings : Readings) :
    (call.tryNext reservation breaker candidates readings).1.pc.turnsLeft ≤
      2 + candidates.length := by
  cases candidates with
  | nil => simp [tryNext,allFailed,Pc.turnsLeft]
  | cons provider rest =>
    by_cases expired : call.remainingBudget readings.budget ≤ 0
    · simp only [tryNext,expired,if_true,allFailed,Pc.turnsLeft]
      omega
    · simp only [tryNext,expired,if_false,Pc.turnsLeft,List.length_cons]
      omega

theorem afterReserve_turnsLeft (call : Call) (result : Except ReserveError Reservation)
    (breaker : CircuitBreaker) (readings : Readings) :
    (call.afterReserve result breaker readings).1.pc.turnsLeft ≤ 4 := by
  match result with
  | .error .ValueError => simp [afterReserve,Pc.turnsLeft]
  | .error (.exceeded exc) => simp [afterReserve,Pc.turnsLeft]
  | .ok reservation =>
    unfold afterReserve
    dsimp only
    split_ifs
    · exact tryNext_turnsLeft _ _ _ _ _
    · exact (tryNext_turnsLeft _ _ _ _ _).trans (by simp)

theorem afterAttempt_turnsLeft (call : Call) (reservation : Reservation) (provider : Provider)
    (rest : List Provider) (answer : Answer) (breaker : CircuitBreaker) (readings : Readings) :
    (call.afterAttempt reservation provider rest answer breaker readings).1.pc.turnsLeft ≤
      2 + rest.length := by
  unfold afterAttempt
  dsimp only
  split
  · simp [Pc.turnsLeft]
  · by_cases rejected : (attemptRecord provider answer readings.durationMs).2.outcome = .clientError
    · simp only [rejected,if_true,Pc.turnsLeft]
      omega
    · simp only [rejected,if_false]
      exact tryNext_turnsLeft _ _ _ _ _

theorem wakes_turnsLeft {call : Call} {breaker : CircuitBreaker} {wakeup : Wakeup}
    {moved : Call × CircuitBreaker} (wakes : call.Wakes breaker wakeup moved) :
    moved.1.pc.turnsLeft < call.pc.turnsLeft := by
  cases wakes with
  | reserved result readings awaited =>
    rw [awaited]
    exact Nat.lt_succ_of_le (afterReserve_turnsLeft call result breaker readings)
  | answered reservation provider rest timeoutS answer readings awaited =>
    rw [awaited]
    have fewer := afterAttempt_turnsLeft call reservation provider rest answer breaker readings
    simp only [Pc.turnsLeft] at fewer ⊢
    omega
  | committed reservation completion readings awaited => simp [awaited,Pc.turnsLeft]
  | released reservation exn readings awaited => simp [awaited,Pc.turnsLeft]
  | hungUp result awaited => simp [awaited,Pc.turnsLeft]
  | aborted reservation provider rest timeoutS awaited =>
    simp only [awaited,Pc.turnsLeft]
    omega
  | uncommitted reservation completion done awaited => simp [awaited,Pc.turnsLeft]
  | abandoned reservation exn done awaited => simp [awaited,Pc.turnsLeft]

theorem submits_length (call : Call) : call.submits.length ≤ 1 := by
  unfold submits
  split <;> simp

end Call

/-- What is left to do: two steps for each turn, one for each outstanding transaction. -/
def System.left (s : System) : Nat :=
  2 * (s.calls.map fun call => call.pc.turnsLeft).sum + s.jobs.length

def Event.routes : Event → Bool
  | .route _ _ _ _ _ _ _ => true
  | _ => false

theorem sum_set (calls : List Call) {c : Nat} {call : Call} (moved : Call)
    (known : calls[c]? = some call) :
    ((calls.set c moved).map fun call => call.pc.turnsLeft).sum + call.pc.turnsLeft =
      (calls.map fun call => call.pc.turnsLeft).sum + moved.pc.turnsLeft := by
  induction calls generalizing c with
  | nil => simp at known
  | cons first rest ih =>
    cases c with
    | zero =>
      cases known
      simp only [List.set_cons_zero,List.map_cons,List.sum_cons]
      omega
    | succ c =>
      have tail := ih (c := c) (by simpa using known)
      simp only [List.set_cons_succ,List.map_cons,List.sum_cons]
      omega

theorem told_turnsLeft (calls : List Call) (c : Nat) (finished : Finished) :
    (calls.modify c fun call => {call with pc := call.pc.deliver finished}).map
      (fun call => call.pc.turnsLeft) = calls.map fun call => call.pc.turnsLeft := by
  apply List.ext_getElem?
  intro other
  rw [List.getElem?_map,List.getElem?_map,List.getElem?_modify]
  cases calls[other]? with
  | none => rfl
  | some call =>
    simp only [Option.map_some,Option.map_eq_map]
    split_ifs
    · rw [deliver_turnsLeft]
    · rfl

/-- Each step is one less to do, and a new call brings eleven. -/
theorem step_left {s next : System} {event : Event} (stepped : s.step limiter event = some next) :
    next.left + 1 ≤ s.left + if event.routes then 12 else 0 := by
  cases event with
  | route router apiKey prompt maxTokens requestId started reservedAt =>
    cases stepped
    have one := Call.submits_length
      (Call.enter router apiKey prompt maxTokens requestId started reservedAt)
    simp only [System.left,Event.routes,if_true,List.map_append,List.sum_append,List.map_cons,
      List.map_nil,List.sum_cons,List.sum_nil,List.length_append,List.length_map]
    simp only [Call.enter,Pc.turnsLeft] at one ⊢
    omega
  | transaction i =>
    obtain ⟨job,listed,rfl⟩ := Option.map_eq_some_iff.mp stepped
    obtain ⟨inside,_⟩ := List.getElem?_eq_some_iff.mp listed
    have same := told_turnsLeft s.calls job.call
      (perform limiter s.books job.call job.work).1
    simp only [System.left,same,Event.routes,Bool.false_eq_true,if_false,
      List.length_eraseIdx_of_lt inside]
    omega
  | wake c wakeup =>
    obtain ⟨call,known,moves⟩ := Option.bind_eq_some_iff.mp stepped
    obtain ⟨moved,woken,rfl⟩ := Option.map_eq_some_iff.mp moves
    have fewer := Call.wakes_turnsLeft (Call.wake_cases woken)
    have one := moved.1.submits_length
    have total := sum_set s.calls moved.1 known
    simp only [System.left,System.put,Event.routes,List.length_append,List.length_map,
      Bool.false_eq_true,if_false]
    omega

theorem run_left {s last : System} {events : List Event}
    (ran : run (System.step limiter) s events = some last) :
    events.length + last.left ≤ s.left + 12 * events.countP Event.routes := by
  induction events generalizing s with
  | nil =>
    cases ran
    simp
  | cons event rest ih =>
    obtain ⟨next,here,later⟩ := run_cons ran
    have one := step_left limiter here
    have more := ih later
    rw [List.length_cons,List.countP_cons]
    split_ifs at one ⊢ <;> omega

/-- The event is a turn of the call that is no cancellation, or one of its transactions. -/
def Serves (c : Nat) (s : System) : Event → Prop
  | .wake woken wakeup => woken = c ∧ wakeup.isCancelled = false
  | .transaction i => ∃ job, s.jobs[i]? = some job ∧ job.call = c
  | .route _ _ _ _ _ _ _ => False

theorem outstanding_serves {s : System} {c : Nat} {work : Work} (listed : work ∈ works s.jobs c) :
    ∃ event next, s.step limiter event = some next ∧ Serves c s event := by
  obtain ⟨job,member,_⟩ := List.mem_map.mp listed
  obtain ⟨inside,own⟩ := List.mem_filter.mp member
  obtain ⟨i,bound,here⟩ := List.mem_iff_getElem.mp inside
  have known : s.jobs[i]? = some job := List.getElem?_eq_some_iff.mpr ⟨bound,here⟩
  obtain ⟨next,stepped⟩ : ∃ next, s.step limiter (.transaction i) = some next :=
    ⟨_,by simp only [System.step,known,Option.map_some]; rfl⟩
  exact ⟨.transaction i,next,stepped,job,known,of_decide_eq_true own⟩

theorem turn_serves {s : System} {c : Nat} {call : Call} {wakeup : Wakeup}
    (known : s.calls[c]? = some call)
    (offered : (call.wake (s.breakers call.router.breaker) wakeup).isSome = true)
    (plain : wakeup.isCancelled = false) :
    ∃ event next, s.step limiter event = some next ∧ Serves c s event := by
  obtain ⟨moved,woken⟩ := Option.isSome_iff_exists.mp offered
  exact ⟨.wake c wakeup,s.put c moved,by simp [System.step,known,woken],rfl,plain⟩

/-- A thread that is awaited is at work. -/
theorem sound_works {hold : Entry} {pc : Pc} {entries : List Entry} {outstanding : List Work}
    (sound : Sound hold pc entries outstanding)
    (awaits : pc = .reserve none ∨ (∃ reservation completion,
        pc = .commit reservation completion false) ∨
      ∃ reservation exn, pc = .release reservation exn false) : ∃ work, work ∈ outstanding := by
  cases sound with
  | reserving => exact ⟨_,List.mem_singleton_self _⟩
  | committing completion => exact ⟨_,List.mem_singleton_self _⟩
  | releasing exn plain => exact ⟨_,List.mem_singleton_self _⟩
  | draining done holds works state =>
    cases state with
    | asked actual front back before behind =>
      exact ⟨_,List.mem_append_right front List.mem_cons_self⟩
    | given actual works commits => simp at awaits
  | _ => simp at awaits

/-- A call that has not ended has a result to take or a provider to hear from, or one of its
transactions is outstanding. -/
theorem coherent_serves {s : System} (coherent : Coherent s) {c : Nat} {call : Call}
    (known : s.calls[c]? = some call) (running : ∀ outcome, call.pc ≠ .ended outcome) :
    ∃ event next, s.step limiter event = some next ∧ Serves c s event := by
  have here := coherent c
  rw [known] at here
  have thread (awaits : call.pc = .reserve none ∨ (∃ reservation completion,
        call.pc = .commit reservation completion false) ∨
      ∃ reservation exn, call.pc = .release reservation exn false) :
      ∃ event next, s.step limiter event = some next ∧ Serves c s event := by
    obtain ⟨work,listed⟩ := sound_works here awaits
    exact outstanding_serves limiter listed
  have result (takes : (call.wake (s.breakers call.router.breaker)
        (.finished ⟨0,0,0⟩)).isSome = true) :
      ∃ event next, s.step limiter event = some next ∧ Serves c s event :=
    turn_serves limiter known takes rfl
  cases awaited : call.pc with
  | ended outcome => exact absurd awaited (running outcome)
  | attempt reservation provider rest timeoutS =>
    have timed : (call.wake (s.breakers call.router.breaker)
        (.answered .timeout ⟨0,0,0⟩)).isSome = true := by simp [Call.wake,awaited]
    exact turn_serves limiter known timed rfl
  | reserve answer =>
    cases answer with
    | some answer => exact result (by simp [Call.wake,awaited])
    | none => exact thread (Or.inl awaited)
  | commit reservation completion done =>
    cases done with
    | true => exact result (by simp [Call.wake,awaited])
    | false => exact thread (Or.inr (Or.inl ⟨reservation,completion,awaited⟩))
  | release reservation exn done =>
    cases done with
    | true => exact result (by simp [Call.wake,awaited])
    | false => exact thread (Or.inr (Or.inr ⟨reservation,exn,awaited⟩))

/-- In every run: there are twelve steps at most for each call of `route`, and a call that has
not ended is never stuck, whatever the others do. -/
theorem routing_terminates {breakers : Nat → CircuitBreaker} {events : List Event} {last : System}
    (ran : run (System.step limiter) (System.start breakers) events = some last) :
    events.length ≤ 12 * events.countP Event.routes ∧
      ∀ c call, last.calls[c]? = some call → (∀ outcome, call.pc ≠ .ended outcome) →
        ∃ event next, last.step limiter event = some next ∧ Serves c last event := by
  constructor
  · have total := run_left limiter ran
    have empty : (System.start breakers).left = 0 := rfl
    omega
  · intro c call known running
    have coherent : Coherent last :=
      run_invariant (step_coherent limiter) (start_coherent breakers) ran
    exact coherent_serves limiter coherent known running

theorem routing_terminates_failover :
    failoverRun.length ≤ 12 * failoverRun.countP Event.routes := by
  obtain ⟨last,ran⟩ : ∃ last, run (System.step ⟨50000,60⟩)
      (System.start fun _ => CircuitBreaker.default) failoverRun = some last := ⟨_,rfl⟩
  exact (routing_terminates ⟨50000,60⟩ ran).1

end GatewaySuite.Router
