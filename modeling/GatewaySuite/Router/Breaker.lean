import GatewaySuite.Router.Turns

/-! What one step can do to a breaker. A stretch of a call asks it for admission, or reports
the end of an attempt at the primary provider; nothing else touches it. -/
namespace GatewaySuite.Router
open Python Limiter Lib

namespace CircuitBreaker

theorem halfOpen_opened {self : CircuitBreaker} {now : ℚ} (halfOpen : self.state now = .halfOpen) :
    ∃ opened, self.openedAt = some opened ∧ self.recoveryTimeS ≤ now - opened := by
  unfold state at halfOpen
  split at halfOpen
  next => cases halfOpen
  next opened here =>
    split_ifs at halfOpen with recovered
    exact ⟨opened,here,recovered⟩

theorem allowsRequest_cases (self : CircuitBreaker) (now : ℚ) :
    (self.state now = .closed ∧ self.openedAt = none ∧ self.allowsRequest now = (true,self)) ∨
    (self.state now = .open ∧ self.allowsRequest now = (false,self)) ∨
    (self.state now = .halfOpen ∧ self.probeInFlight = true ∧
      self.allowsRequest now = (false,self)) ∨
    (self.state now = .halfOpen ∧ self.probeInFlight = false ∧
      self.allowsRequest now = (true,{self with probeInFlight := true})) := by
  cases here : self.state now with
  | closed =>
    refine Or.inl ⟨rfl,?_,by simp only [allowsRequest,here]⟩
    cases opened : self.openedAt with
    | none => rfl
    | some t =>
      simp only [state,opened] at here
      split_ifs at here
  | «open» => exact Or.inr (Or.inl ⟨rfl,by simp only [allowsRequest,here]⟩)
  | halfOpen =>
    cases flag : self.probeInFlight with
    | true => exact Or.inr (Or.inr (Or.inl ⟨rfl,rfl,by simp [allowsRequest,here,flag]⟩))
    | false => exact Or.inr (Or.inr (Or.inr ⟨rfl,rfl,by simp [allowsRequest,here,flag]⟩))

theorem refused_same {self : CircuitBreaker} {now : ℚ}
    (refused : (self.allowsRequest now).1 = false) : (self.allowsRequest now).2 = self := by
  obtain ⟨_,_,answer⟩ | ⟨_,answer⟩ | ⟨_,_,answer⟩ | ⟨_,_,answer⟩ := self.allowsRequest_cases now
  · simp [answer] at refused
  · rw [answer]
  · rw [answer]
  · simp [answer] at refused

theorem allowsRequest_frame (self : CircuitBreaker) (now : ℚ) :
    ∃ slot, (self.allowsRequest now).2 = {self with probeInFlight := slot} := by
  obtain ⟨_,_,answer⟩ | ⟨_,answer⟩ | ⟨_,_,answer⟩ | ⟨_,_,answer⟩ := self.allowsRequest_cases now
  · exact ⟨self.probeInFlight,by rw [answer]⟩
  · exact ⟨self.probeInFlight,by rw [answer]⟩
  · exact ⟨self.probeInFlight,by rw [answer]⟩
  · exact ⟨true,by rw [answer]⟩

end CircuitBreaker

/-- An attempt that is not the last one tries the primary, with the secondary after it. -/
def Call.Shaped (call : Call) : Prop :=
  ∀ reservation provider rest timeoutS, call.pc = .attempt reservation provider rest timeoutS →
    rest = [] ∨ provider = call.router.primary ∧ rest = [call.router.secondary]

/-- The call is inside the attempt at the primary that `allows_request` let it make. -/
def Call.InPrimary (call : Call) : Prop :=
  ∃ reservation timeoutS,
    call.pc = .attempt reservation call.router.primary [call.router.secondary] timeoutS

/-- No candidate is left behind what the call awaits. -/
def Pc.Last (pc : Pc) : Prop :=
  ∀ reservation provider rest timeoutS, pc = .attempt reservation provider rest timeoutS → rest = []

/-- The outcomes that `route` records as a success of the primary. -/
def Answer.healthy (answer : Answer) : Bool :=
  match answer with
  | .completed _ => true
  | .providerError error => !error.isRetryable
  | .timeout | .unexpected _ => false

/-- What a stretch of a call makes of its breaker, and where it leaves the call. -/
inductive Handles (call : Call) (before : CircuitBreaker) :
    Wakeup → Pc → CircuitBreaker → Prop
  | dial (readings : Readings) (reservation : Reservation) (timeoutS : ℚ)
      (awaited : call.pc = .reserve (some (.ok reservation)))
      (allowed : (before.allowsRequest readings.breaker).1 = true) :
      Handles call before (.finished readings)
        (.attempt reservation call.router.primary [call.router.secondary] timeoutS)
        (before.allowsRequest readings.breaker).2
  | expire (readings : Readings) (reservation : Reservation) (pc : Pc) (settled : pc.Last)
      (awaited : call.pc = .reserve (some (.ok reservation)))
      (allowed : (before.allowsRequest readings.breaker).1 = true) :
      Handles call before (.finished readings) pc
        (before.allowsRequest readings.breaker).2.abandonProbe
  | refuse (readings : Readings) (reservation : Reservation) (pc : Pc) (settled : pc.Last)
      (awaited : call.pc = .reserve (some (.ok reservation)))
      (refused : (before.allowsRequest readings.breaker).1 = false) :
      Handles call before (.finished readings) pc before
  -- one provider serves as primary and secondary, and is not dialled for want of time
  | refuseExpired (readings : Readings) (reservation : Reservation) (pc : Pc) (settled : pc.Last)
      (awaited : call.pc = .reserve (some (.ok reservation)))
      (same : call.router.secondary = call.router.primary)
      (expired : call.remainingBudget readings.budget ≤ 0)
      (refused : (before.allowsRequest readings.breaker).1 = false) :
      Handles call before (.finished readings) pc before.abandonProbe
  | succeed (answer : Answer) (readings : Readings) (reservation : Reservation)
      (rest : List Provider) (timeoutS : ℚ) (pc : Pc) (settled : pc.Last)
      (awaited : call.pc = .attempt reservation call.router.primary rest timeoutS)
      (healthy : answer.healthy = true) :
      Handles call before (.answered answer readings) pc before.recordSuccess
  | fail (answer : Answer) (readings : Readings) (reservation : Reservation)
      (rest : List Provider) (timeoutS : ℚ) (pc : Pc) (settled : pc.Last)
      (awaited : call.pc = .attempt reservation call.router.primary rest timeoutS)
      (faulty : answer.healthy = false) :
      Handles call before (.answered answer readings) pc (before.recordFailure readings.breaker)
  | abort (reservation : Reservation) (rest : List Provider) (timeoutS : ℚ) (pc : Pc)
      (settled : pc.Last)
      (awaited : call.pc = .attempt reservation call.router.primary rest timeoutS) :
      Handles call before .cancelled pc before.abandonProbe
  | pass (wakeup : Wakeup) (pc : Pc) (settled : pc.Last)
      (elsewhere : ∀ reservation rest timeoutS,
        call.pc ≠ .attempt reservation call.router.primary rest timeoutS) :
      Handles call before wakeup pc before

theorem Handles.recoveryTimeS {call : Call} {before after : CircuitBreaker} {wakeup : Wakeup} {pc : Pc}
    (handles : Handles call before wakeup pc after) : after.recoveryTimeS = before.recoveryTimeS := by
  cases handles with
  | dial readings reservation timeoutS awaited allowed =>
    obtain ⟨slot,same⟩ := before.allowsRequest_frame readings.breaker
    rw [same]
  | expire readings reservation pc settled awaited allowed =>
    obtain ⟨slot,same⟩ := before.allowsRequest_frame readings.breaker
    rw [same]
    rfl
  | refuse readings reservation pc settled awaited refused => rfl
  | refuseExpired readings reservation pc settled awaited same expired refused => rfl
  | succeed answer readings reservation rest timeoutS pc settled awaited healthy => rfl
  | fail answer readings reservation rest timeoutS pc settled awaited faulty => rfl
  | abort reservation rest timeoutS pc settled awaited => rfl
  | pass wakeup pc settled elsewhere => rfl

namespace Call

theorem tryNext_last (call : Call) (reservation : Reservation) (breaker : CircuitBreaker)
    (readings : Readings) : (call.tryNext reservation breaker [] readings).1.pc.Last ∧
      (call.tryNext reservation breaker [] readings).2 = breaker := by
  refine ⟨?_,rfl⟩
  intro reservation' provider rest timeoutS stands
  simp [tryNext,allFailed] at stands

/-- The secondary as the only candidate left: the breaker changes only if it is the primary
too and there is no time for it. -/
theorem tryNext_secondary (call : Call) (reservation : Reservation) (breaker : CircuitBreaker)
    (readings : Readings) :
    (call.tryNext reservation breaker [call.router.secondary] readings).1.pc.Last ∧
      ((call.tryNext reservation breaker [call.router.secondary] readings).2 = breaker ∨
        call.router.secondary = call.router.primary ∧ call.remainingBudget readings.budget ≤ 0 ∧
          (call.tryNext reservation breaker [call.router.secondary] readings).2 =
            breaker.abandonProbe) := by
  by_cases expired : call.remainingBudget readings.budget ≤ 0
  · simp only [tryNext,expired,if_true]
    constructor
    · intro reservation' provider rest timeoutS stands
      simp [allFailed] at stands
    · split_ifs with same
      · exact Or.inr ⟨same,trivial,rfl⟩
      · exact Or.inl rfl
  · simp only [tryNext,expired,if_false]
    constructor
    · intro reservation' provider rest timeoutS stands
      cases stands
      rfl
    · exact Or.inl trivial

theorem afterReserve_handles (call : Call) (result : Except ReserveError Reservation)
    (breaker : CircuitBreaker) (readings : Readings) (awaited : call.pc = .reserve (some result)) :
    Handles call breaker (.finished readings) (call.afterReserve result breaker readings).1.pc
      (call.afterReserve result breaker readings).2 := by
  have elsewhere (reservation rest timeoutS) :
      call.pc ≠ .attempt reservation call.router.primary rest timeoutS := by simp [awaited]
  match result with
  | .error .ValueError => exact .pass _ _ (by simp [Pc.Last,afterReserve]) elsewhere
  | .error (.exceeded exc) => exact .pass _ _ (by simp [Pc.Last,afterReserve]) elsewhere
  | .ok reservation =>
    cases admitted : (breaker.allowsRequest readings.breaker).1 with
    | true =>
      simp only [afterReserve,admitted,if_true]
      by_cases expired : call.remainingBudget readings.budget ≤ 0
      · simp only [tryNext,expired,if_true]
        exact .expire readings reservation _ (by simp [Pc.Last,allFailed]) awaited admitted
      · simp only [tryNext,expired,if_false]
        exact .dial readings reservation _ awaited admitted
    | false =>
      simp only [afterReserve,admitted,Bool.false_eq_true,if_false,
        CircuitBreaker.refused_same admitted]
      obtain ⟨last,same | ⟨same,expired,abandoned⟩⟩ := ({call with
        attempts := call.attempts ++ [⟨call.router.primary.name,.circuitOpen,0,none⟩]} :
          Call).tryNext_secondary reservation breaker readings
      · dsimp only at same last
        rw [same]
        exact .refuse readings reservation _ last awaited admitted
      · dsimp only at abandoned last
        rw [abandoned]
        exact .refuseExpired readings reservation _ last awaited same expired admitted

theorem report_healthy (provider : Provider) (answer : Answer) (durationMs : ℚ)
    (breaker : CircuitBreaker) (now : ℚ) :
    report (attemptRecord provider answer durationMs).2.outcome breaker now =
      if answer.healthy then breaker.recordSuccess else breaker.recordFailure now := by
  cases answer with
  | completed completion => rfl
  | timeout => rfl
  | providerError error =>
    cases retryable : error.isRetryable <;> simp [attemptRecord,Answer.healthy,retryable,report]
  | unexpected => rfl

theorem healthy_record {provider : Provider} {answer : Answer} {durationMs : ℚ}
    (silent : (attemptRecord provider answer durationMs).1 = none)
    (other : (attemptRecord provider answer durationMs).2.outcome ≠ .clientError) :
    answer.healthy = false := by
  cases answer with
  | completed completion => cases silent
  | timeout => rfl
  | providerError error =>
    cases retryable : error.isRetryable <;> simp_all [attemptRecord,Answer.healthy]
  | unexpected => rfl

/-- The end of an attempt at the primary is reported, whatever the call does then. -/
theorem afterAttempt_primary (call : Call) (reservation : Reservation) (rest : List Provider)
    (answer : Answer) (breaker : CircuitBreaker) (readings : Readings)
    (shape : rest = [call.router.secondary] ∨ rest = []) :
    (call.afterAttempt reservation call.router.primary rest answer breaker readings).1.pc.Last ∧
      (call.afterAttempt reservation call.router.primary rest answer breaker readings).2 =
        if answer.healthy then breaker.recordSuccess else breaker.recordFailure readings.breaker := by
  have reported := report_healthy call.router.primary answer readings.durationMs breaker
    readings.breaker
  simp only [afterAttempt,if_true,reported]
  split
  next => exact ⟨by simp [Pc.Last],rfl⟩
  next silent =>
    split
    next => exact ⟨by simp [Pc.Last],rfl⟩
    next other =>
      simp only [healthy_record silent other,Bool.false_eq_true,if_false]
      obtain rfl | rfl := shape
      · obtain ⟨last,same | ⟨_,_,abandoned⟩⟩ := ({call with
          attempts := call.attempts ++
            [(attemptRecord call.router.primary answer readings.durationMs).2]} :
          Call).tryNext_secondary reservation (breaker.recordFailure readings.breaker) readings
        · exact ⟨last,same⟩
        · exact ⟨last,abandoned⟩
      · exact tryNext_last _ reservation _ readings

theorem afterAttempt_elsewhere (call : Call) (reservation : Reservation) (provider : Provider)
    (answer : Answer) (breaker : CircuitBreaker) (readings : Readings)
    (other : provider ≠ call.router.primary) :
    (call.afterAttempt reservation provider [] answer breaker readings).1.pc.Last ∧
      (call.afterAttempt reservation provider [] answer breaker readings).2 = breaker := by
  simp only [afterAttempt,other,if_false]
  split
  next => exact ⟨by simp [Pc.Last],rfl⟩
  next =>
    split_ifs
    · exact ⟨by simp [Pc.Last],rfl⟩
    · exact tryNext_last _ reservation breaker readings

theorem afterAttempt_reported (call : Call) {reservation : Reservation} {rest : List Provider}
    {timeoutS : ℚ} (answer : Answer) (breaker : CircuitBreaker) (readings : Readings)
    (awaited : call.pc = .attempt reservation call.router.primary rest timeoutS)
    (shape : rest = [call.router.secondary] ∨ rest = []) :
    Handles call breaker (.answered answer readings)
      (call.afterAttempt reservation call.router.primary rest answer breaker readings).1.pc
      (call.afterAttempt reservation call.router.primary rest answer breaker readings).2 := by
  obtain ⟨last,reported⟩ := call.afterAttempt_primary reservation rest answer breaker readings shape
  rw [reported]
  cases healthy : answer.healthy with
  | true => exact .succeed answer readings reservation rest timeoutS _ last awaited healthy
  | false => exact .fail answer readings reservation rest timeoutS _ last awaited healthy

theorem wake_handles {call : Call} {breaker : CircuitBreaker} {wakeup : Wakeup}
    {moved : Call × CircuitBreaker} (shaped : call.Shaped)
    (woken : call.wake breaker wakeup = some moved) :
    Handles call breaker wakeup moved.1.pc moved.2 := by
  cases wake_cases woken with
  | reserved result readings awaited => exact call.afterReserve_handles result breaker readings awaited
  | answered reservation provider rest timeoutS answer readings awaited =>
    obtain empty | ⟨own,rests⟩ := shaped _ _ _ _ awaited
    · by_cases own : provider = call.router.primary
      · subst provider
        exact call.afterAttempt_reported answer breaker readings awaited (Or.inr empty)
      · subst rest
        obtain ⟨last,same⟩ :=
          call.afterAttempt_elsewhere reservation provider answer breaker readings own
        rw [same]
        exact .pass _ _ last (by simp [awaited,own])
    · subst provider
      exact call.afterAttempt_reported answer breaker readings awaited (Or.inl rests)
  | aborted reservation provider rest timeoutS awaited =>
    by_cases own : provider = call.router.primary
    · subst provider
      rw [if_pos rfl]
      exact .abort reservation rest timeoutS _ (by simp [Pc.Last]) awaited
    · rw [if_neg own]
      exact .pass _ _ (by simp [Pc.Last]) (by simp [awaited,own])
  | committed reservation completion readings awaited =>
    exact .pass _ _ (by simp [Pc.Last]) (by simp [awaited])
  | released reservation exn readings awaited => exact .pass _ _ (by simp [Pc.Last]) (by simp [awaited])
  | hungUp result awaited => exact .pass _ _ (by simp [Pc.Last]) (by simp [awaited])
  | uncommitted reservation completion done awaited =>
    exact .pass _ _ (by simp [Pc.Last]) (by simp [awaited])
  | abandoned reservation exn done awaited => exact .pass _ _ (by simp [Pc.Last]) (by simp [awaited])

end Call

variable (limiter : SlidingWindowRateLimiter)

theorem deliver_attempt {pc : Pc} {finished : Finished} {reservation : Reservation}
    {provider : Provider} {rest : List Provider} {timeoutS : ℚ} :
    pc.deliver finished = .attempt reservation provider rest timeoutS ↔
      pc = .attempt reservation provider rest timeoutS := by
  unfold Pc.deliver
  split <;> simp

/-- Call `c` is in its primary attempt, behind breaker `b`. -/
def Inside (b c : Nat) (s : System) : Prop :=
  ∃ call, s.calls[c]? = some call ∧ call.router.breaker = b ∧ call.InPrimary

theorem step_breakers {s next : System} {event : Event} (stepped : s.step limiter event = some next)
    (idle : ∀ c wakeup, event ≠ .wake c wakeup) : next.breakers = s.breakers := by
  cases event with
  | route router apiKey prompt maxTokens requestId started reservedAt =>
    cases stepped
    rfl
  | transaction i =>
    obtain ⟨job,_,rfl⟩ := Option.map_eq_some_iff.mp stepped
    rfl
  | wake c wakeup => exact absurd rfl (idle c wakeup)

theorem step_inside {s next : System} {event : Event} {b c : Nat}
    (stepped : s.step limiter event = some next) (other : ∀ wakeup, event ≠ .wake c wakeup) :
    Inside b c next ↔ Inside b c s := by
  constructor
  · rintro ⟨call,known,own,reservation,timeoutS,stands⟩
    obtain ⟨awaits,_⟩ | ⟨previous,old,moves⟩ := step_arisen limiter stepped known
    · cases awaits.symm.trans stands
    · obtain ⟨wakeup,same,_⟩ | ⟨_,rfl | ⟨finished,rfl⟩⟩ := moves
      · exact absurd same (other wakeup)
      · exact ⟨call,old,own,reservation,timeoutS,stands⟩
      · exact ⟨previous,old,own,reservation,timeoutS,deliver_attempt.mp stands⟩
  · rintro ⟨call,known,own,reservation,timeoutS,stands⟩
    obtain ⟨call',known',moves⟩ := step_known limiter stepped known
    obtain ⟨wakeup,same,_⟩ | ⟨_,rfl | ⟨finished,rfl⟩⟩ := moves
    · exact absurd same (other wakeup)
    · exact ⟨call',known',own,reservation,timeoutS,stands⟩
    · exact ⟨_,known',own,reservation,timeoutS,deliver_attempt.mpr stands⟩

/-- What a wake-up of call `c` leaves: its own breaker changes, and so does the call. -/
structure Woken (s : System) (c : Nat) (wakeup : Wakeup) (next : System) (call moved : Call)
    (after : CircuitBreaker) : Prop where
  known : s.calls[c]? = some call
  turned : call.Turned moved wakeup.isCancelled
  router : moved.router = call.router
  handles : Handles call (s.breakers call.router.breaker) wakeup moved.pc after
  breakers : next.breakers = Function.update s.breakers call.router.breaker after
  here : next.calls[c]? = some moved

theorem step_woken {s next : System} {c : Nat} {wakeup : Wakeup}
    (shaped : ∀ (c : Nat) call, s.calls[c]? = some call → call.Shaped)
    (stepped : s.step limiter (.wake c wakeup) = some next) :
    ∃ call moved after, Woken s c wakeup next call moved after := by
  obtain ⟨call,known,moves⟩ := Option.bind_eq_some_iff.mp stepped
  obtain ⟨moved,woken,rfl⟩ := Option.map_eq_some_iff.mp moves
  have turned := Call.wake_turned woken
  have router : moved.1.router = call.router := by rw [turned.frame]
  refine ⟨call,moved.1,moved.2,known,turned,router,Call.wake_handles (shaped c call known) woken,?_,?_⟩
  · rw [← router]
    rfl
  · obtain ⟨inside,_⟩ := List.getElem?_eq_some_iff.mp known
    exact List.getElem?_set_self inside

end GatewaySuite.Router
