import GatewaySuite.Router.System

/-! What one step can do to one call: a stretch of code turns its program counter, and a
transaction changes its reservations. Everything about runs is derived from these. -/
namespace GatewaySuite.Router
open Python Limiter Lib

/-- The turns of a program counter, by whether the call was cancelled. -/
inductive Turn : Bool → Pc → Pc → Prop
  | refuse (error : ReserveError) (exn : Exn) (plain : exn ≠ .cancelled) :
      Turn false (.reserve (some (.error error))) (.ended (.refused exn))
  | dial (reservation : Reservation) (provider : Provider) (rest : List Provider) (timeoutS : ℚ) :
      Turn false (.reserve (some (.ok reservation))) (.attempt reservation provider rest timeoutS)
  | expire (reservation : Reservation) (exn : Exn) (plain : exn ≠ .cancelled) :
      Turn false (.reserve (some (.ok reservation))) (.release reservation exn false)
  | failover (reservation : Reservation) (first second : Provider) (rest rest' : List Provider)
      (timeoutS timeoutS' : ℚ) :
      Turn false (.attempt reservation first rest timeoutS)
        (.attempt reservation second rest' timeoutS')
  | complete (reservation : Reservation) (provider : Provider) (rest : List Provider) (timeoutS : ℚ)
      (completion : Completion) :
      Turn false (.attempt reservation provider rest timeoutS) (.commit reservation completion false)
  | fail (reservation : Reservation) (provider : Provider) (rest : List Provider) (timeoutS : ℚ)
      (exn : Exn) (plain : exn ≠ .cancelled) :
      Turn false (.attempt reservation provider rest timeoutS) (.release reservation exn false)
  | respond (reservation : Reservation) (response : RoutedResponse) :
      Turn false (.commit reservation response.completion true) (.ended (.returned response))
  | raise (reservation : Reservation) (exn : Exn) :
      Turn false (.release reservation exn true) (.ended (.failed exn))
  | hangUp (result : Option (Except ReserveError Reservation)) :
      Turn true (.reserve result) (.ended (.refused .cancelled))
  | abort (reservation : Reservation) (provider : Provider) (rest : List Provider) (timeoutS : ℚ) :
      Turn true (.attempt reservation provider rest timeoutS) (.release reservation .cancelled false)
  | abortCommit (reservation : Reservation) (completion : Completion) (done : Bool) :
      Turn true (.commit reservation completion done) (.release reservation .cancelled false)
  | abandon (reservation : Reservation) (exn : Exn) (done : Bool) :
      Turn true (.release reservation exn done) (.ended (.failed .cancelled))

theorem turn_reserve {cancelled : Bool} {before : Pc}
    {result : Option (Except ReserveError Reservation)}
    (turn : Turn cancelled before (.reserve result)) : False := by
  cases turn

theorem turn_refused {cancelled : Bool} {before : Pc} {exn : Exn}
    (turn : Turn cancelled before (.ended (.refused exn))) : ∃ result, before = .reserve result := by
  cases turn with
  | refuse error exn plain => exact ⟨_,rfl⟩
  | hangUp result => exact ⟨result,rfl⟩

theorem deliver_reserve {pc : Pc} {finished : Finished}
    {result : Option (Except ReserveError Reservation)}
    (awaits : pc.deliver finished = .reserve result) : ∃ before, pc = .reserve before := by
  unfold Pc.deliver at awaits
  split at awaits
  · exact ⟨_,rfl⟩
  · cases awaits
  · cases awaits
  · exact ⟨result,awaits⟩

theorem deliver_ended {pc : Pc} {finished : Finished} {outcome : Outcome} :
    pc.deliver finished = .ended outcome ↔ pc = .ended outcome := by
  unfold Pc.deliver
  split <;> simp

theorem turn_ended {cancelled : Bool} {outcome : Outcome} {after : Pc}
    (turn : Turn cancelled (.ended outcome) after) : False := by
  cases turn

theorem turn_hungUp {cancelled : Bool} {before : Pc}
    (turn : Turn cancelled before (.ended (.refused .cancelled))) :
    cancelled = true ∧ ∃ result, before = .reserve result := by
  cases turn with
  | refuse error exn plain => exact absurd rfl plain
  | hangUp result => exact ⟨rfl,result,rfl⟩

theorem turn_reserve_cancelled {result : Option (Except ReserveError Reservation)} {after : Pc}
    (turn : Turn true (.reserve result) after) : after = .ended (.refused .cancelled) := by
  cases turn
  rfl

def Wakeup.isCancelled : Wakeup → Bool
  | .cancelled => true
  | _ => false

theorem isCancelled_eq {wakeup : Wakeup} (so : wakeup.isCancelled = true) : wakeup = .cancelled := by
  cases wakeup <;> simp_all [Wakeup.isCancelled]

namespace Call

/-- The call afterwards differs in its locals and its program counter only, and a refused call
has dialled nothing since. -/
structure Turned (call next : Call) (cancelled : Bool) : Prop where
  frame : next = {call with attempts := next.attempts, dialled := next.dialled, pc := next.pc}
  turn : Turn cancelled call.pc next.pc
  undialled : ∀ exn, next.pc = .ended (.refused exn) → next.dialled = call.dialled

theorem tryNext_turned (call : Call) (noted : List AttemptRecord) (reservation : Reservation)
    (breaker : CircuitBreaker) (candidates : List Provider) (readings : Readings)
    (dials : ∀ provider rest timeoutS,
      Turn false call.pc (.attempt reservation provider rest timeoutS))
    (raises : ∀ error, Turn false call.pc (.release reservation (.gateway error) false)) :
    call.Turned
      (({call with attempts := noted} : Call).tryNext reservation breaker candidates readings).1
      false := by
  cases candidates with
  | nil => exact ⟨rfl,raises _,by simp [tryNext,allFailed]⟩
  | cons provider rest =>
    by_cases expired :
        ({call with attempts := noted} : Call).remainingBudget readings.budget ≤ 0
    · simp only [tryNext,expired,if_true]
      exact ⟨rfl,raises _,by simp [allFailed]⟩
    · simp only [tryNext,expired,if_false]
      exact ⟨rfl,dials _ _ _,by simp⟩

theorem afterReserve_turned (call : Call) (result : Except ReserveError Reservation)
    (breaker : CircuitBreaker) (readings : Readings) (awaited : call.pc = .reserve (some result)) :
    call.Turned (call.afterReserve result breaker readings).1 false := by
  match result with
  | .error .ValueError =>
    exact ⟨rfl,awaited ▸ Turn.refuse _ _ (by simp),fun _ _ => rfl⟩
  | .error (.exceeded exc) =>
    exact ⟨rfl,awaited ▸ Turn.refuse _ _ (by simp),fun _ _ => rfl⟩
  | .ok reservation =>
    have dials (provider rest timeoutS) :
        Turn false call.pc (.attempt reservation provider rest timeoutS) := by
      rw [awaited]
      exact Turn.dial reservation provider rest timeoutS
    have raises (error) : Turn false call.pc (.release reservation (.gateway error) false) := by
      rw [awaited]
      exact Turn.expire reservation _ (by simp)
    unfold afterReserve
    dsimp only
    split
    · exact call.tryNext_turned call.attempts reservation _ _ readings dials raises
    · exact call.tryNext_turned _ reservation _ _ readings dials raises

theorem afterAttempt_turned (call : Call) (reservation : Reservation) (provider : Provider)
    (rest : List Provider) (timeoutS : ℚ) (answer : Answer) (breaker : CircuitBreaker)
    (readings : Readings) (awaited : call.pc = .attempt reservation provider rest timeoutS) :
    call.Turned (call.afterAttempt reservation provider rest answer breaker readings).1 false := by
  have raises (error) : Turn false call.pc (.release reservation (.gateway error) false) := by
    rw [awaited]
    exact Turn.fail reservation provider rest timeoutS _ (by simp)
  unfold afterAttempt
  dsimp only
  split
  · exact ⟨rfl,by rw [awaited]; exact Turn.complete _ _ _ _ _,by simp⟩
  · split
    · exact ⟨rfl,raises _,by simp⟩
    · apply call.tryNext_turned _ reservation _ rest readings _ raises
      intro second rest' timeoutS'
      rw [awaited]
      exact Turn.failover reservation provider second rest rest' timeoutS timeoutS'

/-- What `wake` can do: one case for each await and what ends it. -/
inductive Wakes (call : Call) (breaker : CircuitBreaker) : Wakeup → Call × CircuitBreaker → Prop
  | reserved (result : Except ReserveError Reservation) (readings : Readings)
      (awaited : call.pc = .reserve (some result)) :
      Wakes call breaker (.finished readings) (call.afterReserve result breaker readings)
  | committed (reservation : Reservation) (completion : Completion) (readings : Readings)
      (awaited : call.pc = .commit reservation completion true) :
      Wakes call breaker (.finished readings) ({call with
        pc := .ended (.returned ⟨completion,call.requestId,call.attempts⟩)},breaker)
  | released (reservation : Reservation) (exn : Exn) (readings : Readings)
      (awaited : call.pc = .release reservation exn true) :
      Wakes call breaker (.finished readings) ({call with pc := .ended (.failed exn)},breaker)
  | answered (reservation : Reservation) (provider : Provider) (rest : List Provider) (timeoutS : ℚ)
      (answer : Answer) (readings : Readings)
      (awaited : call.pc = .attempt reservation provider rest timeoutS) :
      Wakes call breaker (.answered answer readings)
        (call.afterAttempt reservation provider rest answer breaker readings)
  | hungUp (result : Option (Except ReserveError Reservation)) (awaited : call.pc = .reserve result) :
      Wakes call breaker .cancelled ({call with pc := .ended (.refused .cancelled)},breaker)
  | aborted (reservation : Reservation) (provider : Provider) (rest : List Provider) (timeoutS : ℚ)
      (awaited : call.pc = .attempt reservation provider rest timeoutS) :
      Wakes call breaker .cancelled ({call with pc := .release reservation .cancelled false},
        if provider = call.router.primary then breaker.abandonProbe else breaker)
  | uncommitted (reservation : Reservation) (completion : Completion) (done : Bool)
      (awaited : call.pc = .commit reservation completion done) :
      Wakes call breaker .cancelled ({call with pc := .release reservation .cancelled false},breaker)
  | abandoned (reservation : Reservation) (exn : Exn) (done : Bool)
      (awaited : call.pc = .release reservation exn done) :
      Wakes call breaker .cancelled ({call with pc := .ended (.failed .cancelled)},breaker)

theorem wake_cases {call : Call} {breaker : CircuitBreaker} {wakeup : Wakeup}
    {moved : Call × CircuitBreaker} (woken : call.wake breaker wakeup = some moved) :
    call.Wakes breaker wakeup moved := by
  cases wakeup with
  | finished readings =>
    simp only [wake] at woken
    split at woken
    next result awaited => exact Option.some.inj woken ▸ .reserved result readings awaited
    next reservation completion awaited =>
      exact Option.some.inj woken ▸ .committed reservation completion readings awaited
    next reservation exn awaited =>
      exact Option.some.inj woken ▸ .released reservation exn readings awaited
    next => cases woken
  | answered answer readings =>
    simp only [wake] at woken
    split at woken
    next reservation provider rest timeoutS awaited =>
      exact Option.some.inj woken ▸ .answered reservation provider rest timeoutS answer readings awaited
    next => cases woken
  | cancelled =>
    simp only [wake,cancelled] at woken
    split at woken
    next result awaited => exact Option.some.inj woken ▸ .hungUp result awaited
    next reservation provider rest timeoutS awaited =>
      exact Option.some.inj woken ▸ .aborted reservation provider rest timeoutS awaited
    next reservation completion done awaited =>
      exact Option.some.inj woken ▸ .uncommitted reservation completion done awaited
    next reservation exn done awaited =>
      exact Option.some.inj woken ▸ .abandoned reservation exn done awaited
    next => cases woken

theorem wake_turned {call : Call} {breaker : CircuitBreaker} {wakeup : Wakeup}
    {moved : Call × CircuitBreaker} (woken : call.wake breaker wakeup = some moved) :
    call.Turned moved.1 wakeup.isCancelled := by
  cases wake_cases woken with
  | reserved result readings awaited =>
    exact call.afterReserve_turned result breaker readings awaited
  | committed reservation completion readings awaited =>
    exact ⟨rfl,by
      rw [awaited]; exact Turn.respond reservation ⟨completion,call.requestId,call.attempts⟩,by simp⟩
  | released reservation exn readings awaited => exact ⟨rfl,by rw [awaited]; exact Turn.raise _ _,by simp⟩
  | answered reservation provider rest timeoutS answer readings awaited =>
    exact call.afterAttempt_turned reservation provider rest timeoutS answer breaker readings awaited
  | hungUp result awaited => exact ⟨rfl,by rw [awaited]; exact Turn.hangUp _,fun _ _ => rfl⟩
  | aborted reservation provider rest timeoutS awaited =>
    exact ⟨rfl,by rw [awaited]; exact Turn.abort _ _ _ _,by simp⟩
  | uncommitted reservation completion done awaited =>
    exact ⟨rfl,by rw [awaited]; exact Turn.abortCommit _ _ _,by simp⟩
  | abandoned reservation exn done awaited =>
    exact ⟨rfl,by rw [awaited]; exact Turn.abandon _ _ _,by simp⟩

end Call

variable (limiter : SlidingWindowRateLimiter)

theorem step_known {s next : System} {event : Event} {c : Nat} {call : Call}
    (stepped : s.step limiter event = some next) (known : s.calls[c]? = some call) :
    ∃ call', next.calls[c]? = some call' ∧
      ((∃ wakeup, event = .wake c wakeup ∧ call.Turned call' wakeup.isCancelled) ∨
        (∀ wakeup, event ≠ .wake c wakeup) ∧
          (call' = call ∨ ∃ finished, call' = {call with pc := call.pc.deliver finished})) := by
  obtain ⟨inside,_⟩ := List.getElem?_eq_some_iff.mp known
  cases event with
  | route router apiKey prompt maxTokens requestId started reservedAt =>
    simp only [System.step,Option.some.injEq] at stepped
    subst next
    refine ⟨call,?_,Or.inr ⟨by simp,Or.inl rfl⟩⟩
    rw [List.getElem?_append_left inside,known]
  | transaction i =>
    obtain ⟨job,_,rfl⟩ := Option.map_eq_some_iff.mp stepped
    by_cases own : job.call = c
    · subst c
      let finished := (perform limiter s.books job.call job.work).1
      refine ⟨{call with pc := call.pc.deliver finished},?_,
        Or.inr ⟨by simp,Or.inr ⟨finished,rfl⟩⟩⟩
      simp only [List.getElem?_modify_eq,known]
      rfl
    · refine ⟨call,?_,Or.inr ⟨by simp,Or.inl rfl⟩⟩
      simp only [List.getElem?_modify_ne _ _ own,known]
  | wake c' wakeup =>
    obtain ⟨woken,known',moves⟩ := Option.bind_eq_some_iff.mp stepped
    obtain ⟨moved,turned,rfl⟩ := Option.map_eq_some_iff.mp moves
    by_cases own : c' = c
    · subst c'
      cases known.symm.trans known'
      exact ⟨moved.1,List.getElem?_set_self inside,
        Or.inl ⟨wakeup,rfl,Call.wake_turned turned⟩⟩
    · refine ⟨call,?_,Or.inr ⟨?_,Or.inl rfl⟩⟩
      · simpa only [System.put,List.getElem?_set_ne own] using known
      · intro other same
        cases same
        exact own rfl

theorem step_fresh {s next : System} {event : Event} {c : Nat} {call : Call}
    (stepped : s.step limiter event = some next) (absent : s.calls[c]? = none)
    (known : next.calls[c]? = some call) : call.pc = .reserve none ∧ call.dialled = [] := by
  have beyond := List.getElem?_eq_none_iff.mp absent
  cases event with
  | route router apiKey prompt maxTokens requestId started reservedAt =>
    simp only [System.step,Option.some.injEq] at stepped
    subst next
    rw [List.getElem?_append_right beyond] at known
    obtain ⟨_,same⟩ := List.getElem?_eq_some_iff.mp known
    rw [List.getElem_singleton] at same
    subst call
    exact ⟨rfl,rfl⟩
  | transaction i =>
    obtain ⟨job,_,rfl⟩ := Option.map_eq_some_iff.mp stepped
    rw [List.getElem?_eq_none (by simpa using beyond)] at known
    cases known
  | wake c' wakeup =>
    obtain ⟨woken,_,moves⟩ := Option.bind_eq_some_iff.mp stepped
    obtain ⟨moved,_,rfl⟩ := Option.map_eq_some_iff.mp moves
    rw [List.getElem?_eq_none (by simpa [System.put] using beyond)] at known
    cases known

theorem step_arisen {s next : System} {event : Event} {c : Nat} {call : Call}
    (stepped : s.step limiter event = some next) (known : next.calls[c]? = some call) :
    (call.pc = .reserve none ∧ call.dialled = []) ∨ ∃ previous, s.calls[c]? = some previous ∧
      ((∃ wakeup, event = .wake c wakeup ∧ previous.Turned call wakeup.isCancelled) ∨
        (∀ wakeup, event ≠ .wake c wakeup) ∧ (call = previous ∨
          ∃ finished, call = {previous with pc := previous.pc.deliver finished})) := by
  cases old : s.calls[c]? with
  | none => exact Or.inl (step_fresh limiter stepped old known)
  | some previous =>
    obtain ⟨call',known',moves⟩ := step_known limiter stepped old
    cases known.symm.trans known'
    exact Or.inr ⟨previous,rfl,moves⟩

/-- What the first await, every result and every admitted turn of a call keep holds of all
calls of a run. -/
theorem calls_invariant (holds : Call → Prop) (admits : Wakeup → Prop)
    (fresh : ∀ call : Call, call.pc = .reserve none → call.dialled = [] → holds call)
    (delivered : ∀ (call : Call) finished, holds call →
      holds {call with pc := call.pc.deliver finished})
    (turned : ∀ (call next : Call) wakeup, admits wakeup → holds call →
      call.Turned next wakeup.isCancelled → holds next)
    {breakers : Nat → CircuitBreaker} {events : List Event} {last : System}
    (all : ∀ event ∈ events, ∀ c wakeup, event = .wake c wakeup → admits wakeup)
    (ran : run (System.step limiter) (System.start breakers) events = some last) {c : Nat}
    {call : Call} (known : last.calls[c]? = some call) : holds call := by
  let every (s : System) : Prop := ∀ (c : Nat) (call : Call), s.calls[c]? = some call → holds call
  let admitted (event : Event) : Prop := ∀ c wakeup, event = .wake c wakeup → admits wakeup
  have kept : ∀ s event next, admitted event → every s → s.step limiter event = some next →
      every next := by
    intro s event next good before stepped c call known
    obtain ⟨awaits,undialled⟩ | ⟨previous,old,moves⟩ := step_arisen limiter stepped known
    · exact fresh call awaits undialled
    · have held := before c previous old
      obtain ⟨wakeup,same,turns⟩ | ⟨_,rfl | ⟨finished,rfl⟩⟩ := moves
      · exact turned previous call wakeup (good c wakeup same) held turns
      · exact held
      · exact delivered previous finished held
  have start : every (System.start breakers) := by simp [every,System.start]
  exact run_invariant_of kept all start ran c call known

end GatewaySuite.Router
