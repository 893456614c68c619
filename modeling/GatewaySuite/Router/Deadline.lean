import GatewaySuite.Lib.Clock
import GatewaySuite.Router.Probe
import GatewaySuite.Router.Progress
import Mathlib.Tactic.Linarith

/-! The deadlines of the attempts, on the clock of the process. An attempt is given what is left of
the budget, and when that is over `wait_for` cancels it and waits until the provider has unwound.
How long that takes is up to the provider, and the loop may be late besides: the bounds are for
runs in which both together are at most an overrun. -/
namespace GatewaySuite.Router
open Python Limiter Lib Clock

/-- What `wait_for` waits; a timeout that is not positive is over at once. -/
def Pc.timeout? : Pc → Option ℚ
  | .attempt _ _ _ timeoutS => some (max timeoutS 0)
  | _ => none

def System.timeout? (s : System) (c : Nat) : Option ℚ :=
  (s.calls[c]?).bind fun call => call.pc.timeout?

/-- `started` and the readings of the budget are those of the clock. -/
def Event.reads : Event → ℚ → Bool
  | .route _ _ _ _ _ started _,now => started == now
  | .wake _ (.finished readings),now => readings.budget == now
  | .wake _ (.answered _ readings),now => readings.budget == now
  | _,_ => true

def Event.woken : Event → Option Nat
  | .wake c _ => some c
  | _ => none

theorem timeout_some {s : System} {c : Nat} {timeout : ℚ} (waits : s.timeout? c = some timeout) :
    ∃ call reservation provider rest timeoutS, s.calls[c]? = some call ∧
      call.pc = .attempt reservation provider rest timeoutS ∧ timeout = max timeoutS 0 := by
  obtain ⟨call,known,waits⟩ := Option.bind_eq_some_iff.mp waits
  unfold Pc.timeout? at waits
  split at waits
  next reservation provider rest timeoutS awaited =>
    cases waits
    exact ⟨call,reservation,provider,rest,timeoutS,known,awaited,rfl⟩
  next => cases waits

theorem deliver_timeout (pc : Pc) (finished : Finished) :
    (pc.deliver finished).timeout? = pc.timeout? := by
  unfold Pc.deliver
  split <;> rfl

variable (limiter : SlidingWindowRateLimiter)

/-- A call that the step does not wake stays what it is, but for the result of a thread. -/
theorem step_unwoken {s next : System} {event : Event} {c : Nat} {call : Call}
    (stepped : s.step limiter event = some next) (known : s.calls[c]? = some call)
    (other : event.woken ≠ some c) : ∃ pc, next.calls[c]? = some {call with pc := pc} ∧
      pc.timeout? = call.pc.timeout? := by
  obtain ⟨call',known',⟨wakeup,rfl,_⟩ | ⟨_,rfl | ⟨finished,rfl⟩⟩⟩ :=
    step_known limiter stepped known
  · exact absurd rfl other
  · exact ⟨call'.pc,known',rfl⟩
  · exact ⟨_,known',deliver_timeout _ _⟩

theorem step_frame (s : System) (event : Event) (next : System) (c : Nat)
    (stepped : s.step limiter event = some next) (other : event.woken ≠ some c) :
    next.timeout? c = s.timeout? c := by
  unfold System.timeout?
  cases known : s.calls[c]? with
  | some call =>
    obtain ⟨pc,known',same⟩ := step_unwoken limiter stepped known other
    rw [known']
    exact same
  | none =>
    cases known' : next.calls[c]? with
    | none => rfl
    | some call =>
      obtain ⟨awaits,_⟩ := step_fresh limiter stepped known known'
      simp [awaits,Pc.timeout?]

/-- The router with its clock: the tasks are the calls, and they wait under timers while a
provider is asked. -/
def onClock : Machine System Event Nat ℚ where
  step := System.step limiter
  reads := Event.reads
  moves := Event.woken
  waits := System.timeout?
  frame := step_frame limiter
  patient := fun s c timeout waits => by
    obtain ⟨_,_,_,_,timeoutS,_,_,rfl⟩ := timeout_some waits
    exact le_max_right timeoutS 0

namespace Call

/-- A provider is asked only while the budget lasts, and for no longer than that. -/
structure Dials (call moved : Call) (provider : Provider) (timeoutS now : ℚ) : Prop where
  remaining : 0 < call.remainingBudget now
  within : timeoutS ≤ call.remainingBudget now
  dialled : moved.dialled = call.dialled ++ [provider]

theorem tryNext_dials {call : Call} {noted : List AttemptRecord}
    {reservation reservation' : Reservation} {breaker : CircuitBreaker}
    {candidates rest : List Provider} {readings : Readings} {provider : Provider} {timeoutS : ℚ}
    (dials : (({call with attempts := noted} : Call).tryNext reservation breaker candidates
      readings).1.pc = .attempt reservation' provider rest timeoutS) :
    call.Dials (({call with attempts := noted} : Call).tryNext reservation breaker candidates
      readings).1 provider timeoutS readings.budget := by
  cases candidates with
  | nil => cases dials
  | cons first others =>
    by_cases expired : ({call with attempts := noted} : Call).remainingBudget readings.budget ≤ 0
    · simp [tryNext,expired,allFailed] at dials
    · simp only [tryNext,expired,if_false,Pc.attempt.injEq] at dials ⊢
      obtain ⟨_,rfl,_,rfl⟩ := dials
      exact ⟨not_le.mp expired,min_le_right _ _,rfl⟩

theorem wakes_dials {call : Call} {breaker : CircuitBreaker} {wakeup : Wakeup}
    {moved : Call × CircuitBreaker} (wakes : call.Wakes breaker wakeup moved)
    {reservation : Reservation} {provider : Provider} {rest : List Provider} {timeoutS : ℚ}
    (dials : moved.1.pc = .attempt reservation provider rest timeoutS) :
    ∃ readings, call.Dials moved.1 provider timeoutS readings.budget ∧
      ((wakeup = .finished readings ∧
          ∃ reservation', call.pc = .reserve (some (.ok reservation'))) ∨
        ∃ answer reservation' provider' rest' timeoutS', wakeup = .answered answer readings ∧
          call.pc = .attempt reservation' provider' rest' timeoutS') := by
  cases wakes with
  | reserved result readings awaited =>
    match result with
    | .error .ValueError => cases dials
    | .error (.exceeded exc) => cases dials
    | .ok reservation' =>
      refine ⟨readings,?_,Or.inl ⟨rfl,reservation',awaited⟩⟩
      revert dials
      unfold afterReserve
      dsimp only
      split
      · exact tryNext_dials
      · exact tryNext_dials
  | answered reservation' provider' rest' timeoutS' answer readings awaited =>
    refine ⟨readings,?_,Or.inr ⟨answer,_,_,_,_,rfl,awaited⟩⟩
    revert dials
    unfold afterAttempt
    dsimp only
    split
    · exact fun dials => by cases dials
    · split
      · exact fun dials => by cases dials
      · exact tryNext_dials
  | _ => cases dials

end Call

abbrev Ticking := Paced System Nat ℚ

/-- The step at which call `c` got its reservation, and its moment. -/
def Granted (c : Nat) (now : ℚ) (x : Ticking × ℚ × Option Event) : Prop :=
  ∃ call reservation readings, x.2 = (now,some (.wake c (.finished readings))) ∧
    x.1.state.calls[c]? = some call ∧ call.pc = .reserve (some (.ok reservation))

/-- The timer of an attempt is over within the budget of its call. -/
def Call.Budgeted (call : Call) (timer : Timer Nat ℚ) : Prop :=
  ∀ total, call.router.totalDeadlineS = some total →
    timer.since < call.started + total ∧ timer.since + timer.timeout ≤ call.started + total

structure OnTime (k : Ticking) : Prop where
  armed : (onClock limiter).Armed k
  trails : ∀ (c : Nat) call, k.state.calls[c]? = some call → call.Trail
  budgeted : ∀ timer ∈ k.timers, ∀ call, k.state.calls[timer.task]? = some call →
    call.Budgeted timer

theorem timeout_attempt {s : System} {c : Nat} {call : Call} {reservation : Reservation}
    {provider : Provider} {rest : List Provider} {timeoutS : ℚ} (known : s.calls[c]? = some call)
    (awaited : call.pc = .attempt reservation provider rest timeoutS) :
    s.timeout? c = some (max timeoutS 0) := by
  simp [System.timeout?,known,awaited,Pc.timeout?]

theorem attempt_bounded {k : Ticking} (onTime : OnTime limiter k) {timer : Timer Nat ℚ}
    (member : timer ∈ k.timers) {call : Call} (known : k.state.calls[timer.task]? = some call) :
    timer.timeout ≤ max call.router.attemptTimeoutS 0 := by
  obtain ⟨call',reservation,provider,rest,timeoutS,known',awaited,same⟩ :=
    timeout_some (onTime.armed.waiting timer member)
  cases known.symm.trans known'
  have trail := onTime.trails timer.task call known
  simp only [Call.Trail,awaited] at trail
  rw [same]
  exact max_le_max_right 0 trail.2

/-- The turn by which a call begins an attempt: the end of its reserve, or of the attempt before. -/
theorem dialled_turn {s next : System} {c : Nat} {wakeup : Wakeup} {now : ℚ}
    (reads : Event.reads (.wake c wakeup) now = true)
    (stepped : s.step limiter (.wake c wakeup) = some next) {call : Call}
    (known : next.calls[c]? = some call) {reservation : Reservation} {provider : Provider}
    {rest : List Provider} {timeoutS : ℚ}
    (dials : call.pc = .attempt reservation provider rest timeoutS) :
    ∃ previous, s.calls[c]? = some previous ∧ call.router = previous.router ∧
      call.started = previous.started ∧ previous.Dials call provider timeoutS now ∧
      ((∃ readings reservation', wakeup = .finished readings ∧
          previous.pc = .reserve (some (.ok reservation'))) ∨
        ∃ reservation' provider' rest' timeoutS',
          previous.pc = .attempt reservation' provider' rest' timeoutS') := by
  obtain ⟨previous,old,moves⟩ := Option.bind_eq_some_iff.mp stepped
  obtain ⟨moved,woken,rfl⟩ := Option.map_eq_some_iff.mp moves
  have inside := (List.getElem?_eq_some_iff.mp old).1
  obtain rfl : moved.1 = call := Option.some.inj ((List.getElem?_set_self inside).symm.trans known)
  obtain ⟨readings,dialling,cause⟩ := Call.wakes_dials (Call.wake_cases woken) dials
  have frame := (Call.wake_turned woken).frame
  refine ⟨previous,old,by rw [frame],by rw [frame],?_,?_⟩
  · obtain ⟨rfl,_⟩ | ⟨_,_,_,_,_,rfl,_⟩ := cause
    · exact beq_iff_eq.mp reads ▸ dialling
    · exact beq_iff_eq.mp reads ▸ dialling
  · obtain ⟨rfl,reservation',awaited⟩ | ⟨_,_,_,_,_,_,awaited⟩ := cause
    · exact Or.inl ⟨readings,reservation',rfl,awaited⟩
    · exact Or.inr ⟨_,_,_,_,awaited⟩

theorem dials_budgeted {previous call : Call} {provider : Provider} {timeoutS now : ℚ} {c : Nat}
    (dialling : previous.Dials call provider timeoutS now) (router : call.router = previous.router)
    (started : call.started = previous.started) : call.Budgeted ⟨c,now,max timeoutS 0⟩ := by
  intro total capped
  rw [router] at capped
  have remaining := dialling.remaining
  have within := dialling.within
  simp only [Call.remainingBudget,capped] at remaining within
  rw [started]
  refine ⟨by linarith,?_⟩
  have spent : max timeoutS 0 ≤ total - (now - previous.started) := max_le within remaining.le
  dsimp only
  linarith

/-- What holds of a timer that no step of its own call has touched. -/
theorem untouched {k : Ticking} {event : Event} {next : System} (armed : (onClock limiter).Armed k)
    (stepped : k.state.step limiter event = some next) {timer : Timer Nat ℚ}
    (member : timer ∈ k.timers) (apart : event.woken ≠ some timer.task) {call : Call}
    (known : next.calls[timer.task]? = some call) :
    ∃ previous pc, k.state.calls[timer.task]? = some previous ∧
      call = ({previous with pc := pc} : Call) := by
  obtain ⟨previous,_,_,_,_,old,_⟩ := timeout_some (armed.waiting timer member)
  obtain ⟨pc,same,_⟩ := step_unwoken limiter stepped old apart
  cases same.symm.trans known
  exact ⟨previous,pc,old,rfl⟩

theorem tick_onTime {k next : Ticking} {e : ℚ × Option Event} (onTime : OnTime limiter k)
    (ticked : (onClock limiter).tick k e = some next) : OnTime limiter next := by
  refine ⟨(onClock limiter).tick_armed onTime.armed ticked,?_,
    (onClock limiter).tick_timers ticked ?_ ?_⟩
  · cases (onClock limiter).tick_cases ticked with
    | passes now later => exact onTime.trails
    | happens now event after later reads stepped => exact step_trail limiter onTime.trails stepped
  · intro timer member apart call known
    cases (onClock limiter).tick_cases ticked with
    | passes now later => exact onTime.budgeted timer member call known
    | happens now event after later reads stepped =>
      obtain ⟨previous,pc,old,rfl⟩ :=
        untouched limiter onTime.armed stepped member (apart event rfl) known
      exact onTime.budgeted timer member previous old
  · intro event c timeout same moves waits call known
    cases (onClock limiter).tick_cases ticked with
    | passes now later => cases same
    | happens now event' after later reads stepped =>
      cases same
      obtain ⟨call',reservation,provider,rest,timeoutS,known',dials,rfl⟩ := timeout_some waits
      cases known.symm.trans known'
      cases event with
      | wake c' wakeup =>
        cases moves
        obtain ⟨_,_,router,started,dialling,_⟩ :=
          dialled_turn limiter reads stepped known dials
        exact dials_budgeted dialling router started
      | _ => cases moves

def Ticking.start (breakers : Nat → CircuitBreaker) (now : ℚ) : Ticking :=
  Paced.start (System.start breakers) now

theorem start_onTime (breakers : Nat → CircuitBreaker) (now : ℚ) :
    OnTime limiter (Ticking.start breakers now) :=
  ⟨(onClock limiter).start_armed (fun c => by simp [onClock,System.timeout?,System.start]) now,
    by simp [Ticking.start,Paced.start,System.start],by simp [Ticking.start,Paced.start]⟩

theorem run_onTime {breakers : Nat → CircuitBreaker} {since : ℚ}
    {events : List (ℚ × Option Event)} {last : Ticking}
    (ran : run (onClock limiter).tick (Ticking.start breakers since) events = some last) :
    OnTime limiter last :=
  run_invariant (fun _ _ _ onTime ticked => tick_onTime limiter onTime ticked)
    (start_onTime limiter breakers since) ran

/-- An attempt and its timeout in full, with the overrun. -/
def Call.longest (call : Call) (overrun : ℚ) : ℚ := max call.router.attemptTimeoutS 0 + overrun

/-- No attempt before that of the timer took longer than its timeout and the overrun. -/
def Call.Relayed (call : Call) (overrun : ℚ) (past : List (Ticking × ℚ × Option Event))
    (timer : Timer Nat ℚ) : Prop :=
  ∃ x ∈ past, ∃ granted, Granted timer.task granted x ∧
    timer.since + call.longest overrun ≤ granted + call.dialled.length * call.longest overrun

/-- The invariant of the runs that are prompt up to the overrun. -/
structure InTurn (overrun : ℚ) (past : List (Ticking × ℚ × Option Event)) (k : Ticking) : Prop where
  onTime : OnTime limiter k
  within : Within overrun k.now k.timers
  relayed : ∀ timer ∈ k.timers, ∀ call, k.state.calls[timer.task]? = some call →
    call.Relayed overrun past timer

theorem Call.Relayed.later {call : Call} {overrun : ℚ} {past : List (Ticking × ℚ × Option Event)}
    {timer : Timer Nat ℚ} (relayed : call.Relayed overrun past timer)
    (x : Ticking × ℚ × Option Event) : call.Relayed overrun (past ++ [x]) timer := by
  obtain ⟨y,member,found⟩ := relayed
  exact ⟨y,List.mem_append_left [x] member,found⟩

/-- The attempt that a call begins now: at the end of its reserve, or at the end of the attempt
before it, which was no later than the overrun allows. -/
theorem dialled_relayed {overrun now : ℚ} {past : List (Ticking × ℚ × Option Event)} {k : Ticking}
    (inTurn : InTurn limiter overrun past k) (prompt : Within overrun now k.timers) {c : Nat}
    {wakeup : Wakeup} {next : System} (reads : Event.reads (.wake c wakeup) now = true)
    (stepped : k.state.step limiter (.wake c wakeup) = some next) {call : Call}
    (known : next.calls[c]? = some call) {reservation : Reservation} {provider : Provider}
    {rest : List Provider} {timeoutS : ℚ}
    (dials : call.pc = .attempt reservation provider rest timeoutS) :
    call.Relayed overrun (past ++ [(k,now,some (.wake c wakeup))]) ⟨c,now,max timeoutS 0⟩ := by
  obtain ⟨previous,old,router,_,dialling,cause⟩ := dialled_turn limiter reads stepped known dials
  have longest : call.longest overrun = previous.longest overrun := by
    rw [Call.longest,router]
    rfl
  unfold Call.Relayed
  rw [longest,dialling.dialled,List.length_append,List.length_singleton]
  obtain ⟨readings,reservation',rfl,awaited⟩ |
    ⟨reservation',provider',rest',timeoutS',awaited⟩ := cause
  · have trail := inTurn.onTime.trails c previous old
    simp only [Call.Trail,awaited] at trail
    refine ⟨(k,now,some (.wake c (.finished readings))),by simp,now,
      ⟨previous,reservation',readings,rfl,old,awaited⟩,?_⟩
    rw [trail.2]
    simp
  · obtain ⟨timer,member,rfl⟩ := inTurn.onTime.armed.armed c _ (timeout_attempt old awaited)
    obtain ⟨x,there,granted,grant,before⟩ := inTurn.relayed timer member previous old
    refine ⟨x,List.mem_append_left _ there,granted,grant,?_⟩
    have bounded : timer.timeout + overrun ≤ previous.longest overrun :=
      add_le_add_left (attempt_bounded limiter inTurn.onTime member old) overrun
    have ended := prompt timer member
    push_cast
    linarith

theorem tick_inTurn {overrun : ℚ} (positive : 0 ≤ overrun)
    {past : List (Ticking × ℚ × Option Event)} {k next : Ticking} {e : ℚ × Option Event}
    (prompt : Within overrun e.1 k.timers) (inTurn : InTurn limiter overrun past k)
    (ticked : (onClock limiter).tick k e = some next) :
    InTurn limiter overrun (past ++ [(k,e)]) next := by
  refine ⟨tick_onTime limiter inTurn.onTime ticked,
    (onClock limiter).tick_within positive prompt ticked,
    (onClock limiter).tick_timers ticked ?_ ?_⟩
  · intro timer member apart call known
    cases (onClock limiter).tick_cases ticked with
    | passes now later => exact (inTurn.relayed timer member call known).later _
    | happens now event after later reads stepped =>
      obtain ⟨previous,pc,old,rfl⟩ :=
        untouched limiter inTurn.onTime.armed stepped member (apart event rfl) known
      exact Call.Relayed.later (inTurn.relayed timer member previous old) (k,now,some event)
  · intro event c timeout same moves waits call known
    cases (onClock limiter).tick_cases ticked with
    | passes now later => cases same
    | happens now event' after later reads stepped =>
      cases same
      obtain ⟨call',reservation,provider,rest,timeoutS,known',dials,rfl⟩ := timeout_some waits
      cases known.symm.trans known'
      cases event with
      | wake c' wakeup =>
        cases moves
        exact dialled_relayed limiter inTurn prompt reads stepped known dials
      | _ => cases moves

theorem run_inTurn {overrun : ℚ} (positive : 0 ≤ overrun) {breakers : Nat → CircuitBreaker}
    {since : ℚ} {events : List (ℚ × Option Event)} {last : Ticking}
    (ran : run (onClock limiter).tick (Ticking.start breakers since) events = some last)
    (prompt : (onClock limiter).Prompt overrun (Ticking.start breakers since) events) :
    InTurn limiter overrun
      (history (onClock limiter).tick (Ticking.start breakers since) events) last :=
  along_invariant (InTurn limiter overrun)
    (fun _ _ _ _ prompt inTurn ticked => tick_inTurn limiter positive prompt inTurn ticked)
    prompt ⟨start_onTime limiter breakers since,by simp [Within,Ticking.start,Paced.start],
      by simp [Ticking.start,Paced.start]⟩ ran

/-- A call that waits for a provider can be told at any moment that it has waited long enough. -/
theorem timeout_expires (s : System) (c : Nat) (timeout now : ℚ)
    (waits : s.timeout? c = some timeout) :
    ∃ event next, s.step limiter event = some next ∧ event.reads now = true ∧
      next.left < s.left := by
  obtain ⟨call,reservation,provider,rest,timeoutS,known,awaited,_⟩ := timeout_some waits
  obtain ⟨next,stepped⟩ :
      ∃ next, s.step limiter (.wake c (.answered .timeout ⟨now,now,0⟩)) = some next :=
    ⟨_,by simp only [System.step,known,Option.bind_some,Call.wake,awaited,Option.map_some]; rfl⟩
  exact ⟨_,next,stepped,by simp [Event.reads],step_left limiter stepped⟩

/-- Where no attempt overruns its timer by more than `overrun`, a call that still waits for a
provider has passed its deadline by one overrun at most, however late the attempt before ended,
and without a deadline its attempts are over after twice the timeout and the overrun. -/
theorem overrun_once {overrun : ℚ} (positive : 0 ≤ overrun)
    {past : List (Ticking × ℚ × Option Event)} {k : Ticking} (inTurn : InTurn limiter overrun past k)
    {timer : Timer Nat ℚ} (member : timer ∈ k.timers) {call : Call}
    (known : k.state.calls[timer.task]? = some call) :
    (∀ total, call.router.totalDeadlineS = some total → k.now ≤ call.started + total + overrun) ∧
      ∃ x ∈ past, ∃ granted, Granted timer.task granted x ∧
        k.now ≤ granted + 2 * (max call.router.attemptTimeoutS 0 + overrun) := by
  have within := inTurn.within timer member
  refine ⟨fun total capped => ?_,?_⟩
  · have budgeted := (inTurn.onTime.budgeted timer member call known total capped).2
    linarith
  · obtain ⟨x,there,granted,grant,before⟩ := inTurn.relayed timer member call known
    refine ⟨x,there,granted,grant,?_⟩
    have bounded := attempt_bounded limiter inTurn.onTime member known
    have twice :=
      (walked_ordered (trail_walked (inTurn.onTime.trails timer.task call known))).dialled.length_le
    have attempts :
        (call.dialled.length : ℚ) * call.longest overrun ≤ 2 * call.longest overrun :=
      mul_le_mul_of_nonneg_right (by exact_mod_cast twice)
        (add_nonneg (le_max_right _ _) positive)
    unfold Call.longest at before attempts
    linarith

/-- In every run on the clock: it is one of the system; a provider is asked only before the
deadline of its call, under a timer that is over by then and is no longer than the attempt
timeout; and whatever the overrun, if no attempt of the run is later than its timer by more, then
a deadline is passed by one overrun at most, without one the attempts are over after twice the
timeout and the overrun, and the run can be kept as prompt for ever. -/
theorem deadline_kept {breakers : Nat → CircuitBreaker} {since : ℚ}
    {events : List (ℚ × Option Event)} {last : Ticking}
    (ran : run (onClock limiter).tick (Ticking.start breakers since) events = some last) :
    run (System.step limiter) (System.start breakers) (events.filterMap Prod.snd) =
        some last.state ∧
      (∀ (c : Nat) call reservation provider rest timeoutS, last.state.calls[c]? = some call →
        call.pc = .attempt reservation provider rest timeoutS →
        ∃ timer ∈ last.timers, timer.task = c ∧ timer.since ≤ last.now ∧
          timer.timeout ≤ max call.router.attemptTimeoutS 0 ∧
          (∀ total, call.router.totalDeadlineS = some total →
            timer.since < call.started + total ∧
              timer.since + timer.timeout ≤ call.started + total) ∧
          ∀ overrun, 0 ≤ overrun →
            (onClock limiter).Prompt overrun (Ticking.start breakers since) events →
              (∀ total, call.router.totalDeadlineS = some total →
                last.now ≤ call.started + total + overrun) ∧
              ∃ x ∈ history (onClock limiter).tick (Ticking.start breakers since) events,
                ∃ granted, Granted c granted x ∧
                  last.now ≤ granted + 2 * (max call.router.attemptTimeoutS 0 + overrun)) ∧
      ∀ overrun, 0 ≤ overrun →
        (onClock limiter).Prompt overrun (Ticking.start breakers since) events →
          ∀ later, last.now ≤ later → ∃ more final,
            run (onClock limiter).tick last more = some final ∧ final.now = later ∧
              (onClock limiter).Prompt overrun last more := by
  have onTime := run_onTime limiter ran
  refine ⟨(onClock limiter).run_unclocked ran,?_,fun overrun positive prompt later ahead => ?_⟩
  · intro c call reservation provider rest timeoutS known awaited
    obtain ⟨timer,member,rfl⟩ := onTime.armed.armed c _ (timeout_attempt known awaited)
    refine ⟨timer,member,rfl,onTime.armed.begun timer member,
      attempt_bounded limiter onTime member known,onTime.budgeted timer member call known,?_⟩
    intro overrun positive prompt
    exact overrun_once limiter positive (run_inTurn limiter positive ran prompt) member known
  · exact (onClock limiter).runs_on positive System.left (timeout_expires limiter) onTime.armed
      (run_inTurn limiter positive ran prompt).within ahead []

/-- The primary takes a second to unwind, and the secondary gets what is left of five. -/
def lateRun : List (ℚ × Option Event) :=
  [(0,some (.route ⟨⟨0,lit "primary"⟩,⟨1,lit "secondary"⟩,3,some 5,0⟩ (lit "tenant-a")
      (lit "hello") 256 (lit "r1") 0 0)),
    (0,some (.transaction 0)),(0,some (.wake 0 (.finished ⟨0,0,0⟩))),
    (4,some (.wake 0 (.answered .timeout ⟨4,4,4⟩))),(6,none)]

theorem deadline_kept_late : ∃ last call,
    run (onClock ⟨50000,60⟩).tick (Ticking.start (fun _ => CircuitBreaker.default) 0) lateRun =
        some last ∧
      last.state.calls[0]? = some call ∧ call.dialled.length = 2 ∧ last.now = 6 ∧
      last.now ≤ call.started + 5 + 1 := by
  have found : ((run (onClock ⟨50000,60⟩).tick
      (Ticking.start (fun _ => CircuitBreaker.default) 0) lateRun).bind fun last =>
        (last.state.calls[0]?).map fun call => (last.now,call.dialled.length,
          call.router.totalDeadlineS,last.state.timeout? 0)) = some (6,2,some 5,some 1) := by
    decide +kernel
  have prompt : (onClock ⟨50000,60⟩).Prompt 1
      (Ticking.start (fun _ => CircuitBreaker.default) 0) lateRun := by decide +kernel
  obtain ⟨last,ran,found⟩ := Option.bind_eq_some_iff.mp found
  obtain ⟨call,known,same⟩ := Option.map_eq_some_iff.mp found
  simp only [Prod.mk.injEq] at same
  obtain ⟨six,tried,capped,waits⟩ := same
  obtain ⟨call',reservation,provider,rest,timeoutS,known',awaited,_⟩ := timeout_some waits
  cases known.symm.trans known'
  obtain ⟨_,_,_,_,_,_,bounds⟩ := (deadline_kept ⟨50000,60⟩ ran).2.1 0 call reservation provider
    rest timeoutS known awaited
  exact ⟨last,call,ran,known,tried,six,(bounds 1 zero_le_one prompt).1 5 capped⟩

/-- The step at which call `c` is granted the probe of breaker `b`, and its moment. -/
def Probed (b c : Nat) (now : ℚ) (x : Ticking × ℚ × Option Event) : Prop :=
  ∃ event, x.2 = (now,some event) ∧ Probes b c (x.1.state,event)

def unclocked (x : Ticking × ℚ × Option Event) : Option (System × Event) :=
  x.2.2.map fun event => (x.1.state,event)

/-- The timer of a probe has run since the probe was granted. -/
structure ProbesTimed (past : List (Ticking × ℚ × Option Event)) (k : Ticking) : Prop where
  tracked : Tracked (past.filterMap unclocked) k.state
  held : Held (past.filterMap unclocked) k.state
  timed : ∀ b c, Probing (past.filterMap unclocked) k.state b c →
    ∃ timer ∈ k.timers, timer.task = c ∧ ∃ x ∈ past, Probed b c timer.since x

/-- A call that is inside its primary attempt after a turn of its own was granted the probe by
that turn. -/
theorem woken_probes {past : List (System × Event)} {s next : System} {b c : Nat} {wakeup : Wakeup}
    (tracked : Tracked past s) (stepped : s.step limiter (.wake c wakeup) = some next)
    (probing : Probing (past ++ [(s,.wake c wakeup)]) next b c) :
    Probes b c (s,.wake c wakeup) := by
  obtain ⟨call,moved,after,woken⟩ := step_woken limiter tracked.shaped stepped
  obtain ⟨rfl,readings,rfl,halfOpen,_⟩ := probing_woken tracked woken probing
  obtain ⟨_,moved',known,_,reservation,timeoutS,stands⟩ := probing
  cases woken.here.symm.trans known
  obtain last | ⟨_,_,readings',reservation',same,awaited,allowed,_⟩ := woken.handles.granted stands
  · cases last
  · cases same
    exact ⟨readings.breaker,⟨call,reservation',readings,rfl,rfl,woken.known,rfl,awaited,allowed⟩,
      halfOpen⟩

theorem inside_timeout {b c : Nat} {s : System} (inside : Inside b c s) :
    ∃ timeout, s.timeout? c = some timeout := by
  obtain ⟨call,known,_,reservation,timeoutS,stands⟩ := inside
  exact ⟨_,timeout_attempt known stands⟩

theorem tick_probesTimed {past : List (Ticking × ℚ × Option Event)} {k next : Ticking}
    {e : ℚ × Option Event} (kept : ProbesTimed past k)
    (ticked : (onClock limiter).tick k e = some next) : ProbesTimed (past ++ [(k,e)]) next := by
  cases (onClock limiter).tick_cases ticked with
  | passes now later =>
    have same : (past ++ [(k,now,none)]).filterMap unclocked = past.filterMap unclocked := by
      simp [unclocked]
    refine ⟨same ▸ kept.tracked,same ▸ kept.held,fun b c probing => ?_⟩
    obtain ⟨timer,member,own,x,there,probed⟩ := kept.timed b c (same ▸ probing)
    exact ⟨timer,member,own,x,List.mem_append_left _ there,probed⟩
  | happens now event after later reads stepped =>
    have same : (past ++ [(k,now,some event)]).filterMap unclocked =
        past.filterMap unclocked ++ [(k.state,event)] := by
      simp [unclocked]
    refine ⟨?_,?_,fun b c probing => ?_⟩
    · rw [same]
      exact kept.tracked.step limiter stepped
    · rw [same]
      exact Held.step limiter kept.tracked kept.held stepped
    rw [same] at probing
    by_cases own : event.woken = some c
    · obtain ⟨timeout,waits⟩ := inside_timeout probing.2
      cases event with
      | wake c' wakeup =>
        cases own
        exact ⟨⟨c,now,timeout⟩,
          (onClock limiter).mem_rearmed.mpr (Or.inr ⟨c,timeout,rfl,waits,rfl⟩),rfl,
          (k,now,some (.wake c wakeup)),by simp,_,rfl,
          woken_probes limiter kept.tracked stepped probing⟩
      | _ => cases own
    · have other : ∀ wakeup, event ≠ .wake c wakeup := by
        rintro wakeup rfl
        exact own rfl
      obtain ⟨timer,member,rfl,x,there,probed⟩ :=
        kept.timed b c ((probing_other limiter stepped other).mp probing)
      exact ⟨timer,(onClock limiter).mem_rearmed.mpr (Or.inl ⟨member,own⟩),rfl,x,
        List.mem_append_left _ there,probed⟩

theorem start_probesTimed {breakers : Nat → CircuitBreaker}
    (free : ∀ b, (breakers b).probeInFlight = false) (now : ℚ) :
    ProbesTimed [] (Ticking.start breakers now) := by
  refine ⟨.start breakers,fun b flag => ?_,?_⟩
  · cases (free b).symm.trans flag
  · rintro b c ⟨⟨x,member,_⟩,_⟩
    simp at member

/-- Breaker 0 has been open since the clock read 0; the probe begins at 30 and is still out. -/
def probingRun : List (ℚ × Option Event) :=
  [(30,some (.route slowRouter (lit "tenant-a") (lit "hello") 256 (lit "r1") 30 30)),
    (30,some (.transaction 0)),(30,some (.wake 0 (.finished ⟨30,30,0⟩))),(91,none)]

end GatewaySuite.Router
