import GatewaySuite.Router.Breaker

/-! The breaker as a function of what was reported to it. Whatever the calls interleave, the
failures since the last success decide whether the primary is skipped, up to the probe slot. -/
namespace GatewaySuite.Router
open Python Limiter Lib

inductive Report where
  | healthy
  | faulty (now : ℚ)

/-- The clock readings of the failures since the last success, the latest first. -/
def note (streak : List ℚ) : Report → List ℚ
  | .healthy => []
  | .faulty now => now :: streak

/-- Since when a breaker with that streak is open. -/
def trippedAt (failureThreshold : Int) (streak : List ℚ) : Option ℚ :=
  if failureThreshold ≤ streak.length then streak.head? else none

theorem trippedAt_cons (failureThreshold : Int) (now : ℚ) (streak : List ℚ) :
    trippedAt failureThreshold (now :: streak) =
      if failureThreshold ≤ (streak.length : Int) + 1 then some now else none := by
  rw [trippedAt,List.length_cons,Nat.cast_succ,List.head?_cons]

namespace CircuitBreaker

/-- As `CircuitBreaker(failure_threshold, recovery_time_s)` builds it. -/
def Fresh (self : CircuitBreaker) : Prop :=
  self.consecutiveFailures = 0 ∧ self.openedAt = none

def hear (self : CircuitBreaker) : Report → CircuitBreaker
  | .healthy => self.recordSuccess
  | .faulty now => self.recordFailure now

/-- Equal but for the probe slot. -/
def Agrees (self other : CircuitBreaker) : Prop := ∃ slot, self = {other with probeInFlight := slot}

theorem Agrees.refl (self : CircuitBreaker) : self.Agrees self := ⟨self.probeInFlight,rfl⟩

theorem Agrees.trans {first second third : CircuitBreaker} (left : first.Agrees second)
    (right : second.Agrees third) : first.Agrees third := by
  obtain ⟨slot,rfl⟩ := left
  obtain ⟨_,rfl⟩ := right
  exact ⟨slot,rfl⟩

theorem abandonProbe_agrees (self : CircuitBreaker) : self.abandonProbe.Agrees self := ⟨false,rfl⟩

theorem allowsRequest_agrees (self : CircuitBreaker) (now : ℚ) :
    (self.allowsRequest now).2.Agrees self := self.allowsRequest_frame now

structure Counted (built now : CircuitBreaker) (streak : List ℚ) : Prop where
  threshold : now.failureThreshold = built.failureThreshold
  recovery : now.recoveryTimeS = built.recoveryTimeS
  failures : now.consecutiveFailures = streak.length
  opened : now.openedAt = trippedAt built.failureThreshold streak

theorem Fresh.counted {self : CircuitBreaker} (fresh : self.Fresh) : self.Counted self [] := by
  refine ⟨rfl,rfl,fresh.1,?_⟩
  rw [fresh.2,trippedAt]
  split_ifs <;> rfl

theorem Counted.agrees {built self other : CircuitBreaker} {streak : List ℚ}
    (counted : built.Counted self streak) (agrees : other.Agrees self) :
    built.Counted other streak := by
  obtain ⟨slot,rfl⟩ := agrees
  exact ⟨counted.threshold,counted.recovery,counted.failures,counted.opened⟩

theorem Counted.hear {built self : CircuitBreaker} {streak : List ℚ}
    (counted : built.Counted self streak) (report : Report) :
    built.Counted (self.hear report) (note streak report) := by
  cases report with
  | healthy =>
    refine ⟨counted.threshold,counted.recovery,rfl,?_⟩
    rw [note,trippedAt]
    split_ifs <;> rfl
  | faulty now =>
    have longer : self.consecutiveFailures + 1 = (streak.length : Int) + 1 := by
      rw [counted.failures]
    refine ⟨counted.threshold,counted.recovery,longer,?_⟩
    have reopened : (self.recordFailure now).openedAt =
        if built.failureThreshold ≤ (streak.length : Int) + 1 then some now else self.openedAt := by
      rw [← longer,← counted.threshold]
      rfl
    rw [CircuitBreaker.hear,reopened,note,trippedAt_cons]
    split_ifs with reached
    · rfl
    · -- a breaker that stays closed was below the threshold before
      rw [counted.opened,trippedAt,if_neg (by omega)]

end CircuitBreaker

namespace Call

/-- The outcome of an attempt at the primary is reported when its stretch ends. -/
def reports (call : Call) (wakeup : Wakeup) : Option Report :=
  match wakeup,call.pc with
  | .answered answer readings,.attempt _ provider _ _ =>
    if provider = call.router.primary then
      some (if answer.healthy then .healthy else .faulty readings.breaker)
    else none
  | _,_ => none

theorem tryNext_agrees (call : Call) (reservation : Reservation) (breaker : CircuitBreaker)
    (candidates : List Provider) (readings : Readings) :
    (call.tryNext reservation breaker candidates readings).2.Agrees breaker := by
  cases candidates with
  | nil => exact .refl breaker
  | cons provider rest =>
    simp only [tryNext]
    split_ifs with expired own
    · exact breaker.abandonProbe_agrees
    · exact .refl breaker
    · exact .refl breaker

theorem afterReserve_agrees (call : Call) (result : Except ReserveError Reservation)
    (breaker : CircuitBreaker) (readings : Readings) :
    (call.afterReserve result breaker readings).2.Agrees breaker := by
  match result with
  | .error .ValueError => exact .refl breaker
  | .error (.exceeded _) => exact .refl breaker
  | .ok reservation =>
    simp only [afterReserve]
    split_ifs with allowed
    · exact (tryNext_agrees ..).trans (breaker.allowsRequest_agrees _)
    · exact (tryNext_agrees ..).trans (breaker.allowsRequest_agrees _)

theorem afterAttempt_agrees (call : Call) (reservation : Reservation) (provider : Provider)
    (rest : List Provider) (answer : Answer) (breaker : CircuitBreaker) (readings : Readings) :
    (call.afterAttempt reservation provider rest answer breaker readings).2.Agrees
      (if provider = call.router.primary then
        report (attemptRecord provider answer readings.durationMs).2.outcome breaker readings.breaker
      else breaker) := by
  simp only [afterAttempt]
  split
  · exact .refl _
  · split_ifs
    all_goals first | exact .refl _ | exact tryNext_agrees ..

theorem wakes_agrees {call : Call} {breaker : CircuitBreaker} {wakeup : Wakeup}
    {moved : Call × CircuitBreaker} (wakes : call.Wakes breaker wakeup moved) :
    moved.2.Agrees ((call.reports wakeup).elim breaker breaker.hear) := by
  cases wakes with
  | reserved result readings awaited => exact call.afterReserve_agrees result breaker readings
  | answered reservation provider rest timeoutS answer readings awaited =>
    have ends := call.afterAttempt_agrees reservation provider rest answer breaker readings
    simp only [reports,awaited]
    split_ifs at ends ⊢ with own healthy
    · rw [report_healthy,if_pos healthy] at ends
      exact ends
    · rw [report_healthy,if_neg healthy] at ends
      exact ends
    · exact ends
  | aborted reservation provider rest timeoutS awaited =>
    simp only [reports]
    split_ifs
    · exact breaker.abandonProbe_agrees
    · exact .refl breaker
  | _ => exact .refl breaker

end Call

variable (limiter : SlidingWindowRateLimiter)

def reportTo (b : Nat) (x : System × Event) : Option Report :=
  match x.2 with
  | .wake c wakeup =>
    (x.1.calls[c]?).bind fun call =>
      if call.router.breaker = b then call.reports wakeup else none
  | _ => none

/-- The streak of breaker `b` after the steps of a run. -/
def streakOf (b : Nat) (past : List (System × Event)) : List ℚ :=
  (past.filterMap (reportTo b)).foldl note []

theorem step_counted {built : CircuitBreaker} {s next : System} {event : Event} {b : Nat}
    {streak : List ℚ} (counted : built.Counted (s.breakers b) streak)
    (stepped : s.step limiter event = some next) :
    built.Counted (next.breakers b) ((reportTo b (s,event)).elim streak (note streak)) := by
  cases event with
  | route router apiKey prompt maxTokens requestId started reservedAt =>
    rw [step_breakers limiter stepped (by simp)]
    exact counted
  | transaction job =>
    rw [step_breakers limiter stepped (by simp)]
    exact counted
  | wake c wakeup =>
    obtain ⟨call,known,moves⟩ := Option.bind_eq_some_iff.mp stepped
    obtain ⟨moved,woken,rfl⟩ := Option.map_eq_some_iff.mp moves
    have wakes := Call.wake_cases woken
    have router : moved.1.router = call.router := by rw [(Call.wake_turned woken).frame]
    simp only [reportTo,known,Option.bind_some,System.put,router]
    by_cases own : call.router.breaker = b
    · subst b
      rw [Function.update_self,if_pos rfl]
      have agrees := Call.wakes_agrees wakes
      cases told : call.reports wakeup with
      | none =>
        rw [told] at agrees
        exact counted.agrees agrees
      | some report =>
        rw [told] at agrees
        exact (counted.hear report).agrees agrees
    · rw [Function.update_of_ne (Ne.symm own),if_neg own]
      exact counted

theorem run_counted {breakers : Nat → CircuitBreaker} (fresh : ∀ b, (breakers b).Fresh)
    {events : List Event} {last : System}
    (ran : run (System.step limiter) (System.start breakers) events = some last) (b : Nat) :
    (breakers b).Counted (last.breakers b)
      (streakOf b (history (System.step limiter) (System.start breakers) events)) :=
  run_simulated (fun _ _ _ _ counted stepped => step_counted limiter counted stepped)
    (fresh b).counted ran

/-- Whether a breaker with that streak lets a call try the primary. -/
def admits (built : CircuitBreaker) (streak : List ℚ) (probeInFlight : Bool) (now : ℚ) : Bool :=
  match trippedAt built.failureThreshold streak with
  | none => true
  | some since => decide (built.recoveryTimeS ≤ now - since) && !probeInFlight

theorem CircuitBreaker.Counted.allows {built self : CircuitBreaker} {streak : List ℚ}
    (counted : built.Counted self streak) (now : ℚ) :
    (self.allowsRequest now).1 = admits built streak self.probeInFlight now := by
  unfold CircuitBreaker.allowsRequest CircuitBreaker.state admits
  rw [counted.opened,counted.recovery]
  cases trippedAt built.failureThreshold streak with
  | none => rfl
  | some since =>
    by_cases recovered : built.recoveryTimeS ≤ now - since
    · cases self.probeInFlight <;> simp [recovered]
    · simp [recovered]

theorem Call.afterReserve_dials {call : Call} {reservation : Reservation} {breaker : CircuitBreaker}
    {readings : Readings} (time : 0 < call.remainingBudget readings.budget) :
    (call.afterReserve (.ok reservation) breaker readings).1.pc =
      .attempt reservation
        (if (breaker.allowsRequest readings.breaker).1 then call.router.primary
          else call.router.secondary)
        (if (breaker.allowsRequest readings.breaker).1 then [call.router.secondary] else [])
        (min call.router.attemptTimeoutS (call.remainingBudget readings.budget)) := by
  simp only [afterReserve]
  split_ifs with allowed
  · simp only [tryNext,not_le.mpr time,if_false]
  · have same : ({call with attempts := call.attempts ++
        [⟨call.router.primary.name,.circuitOpen,0,none⟩]} : Call).remainingBudget readings.budget =
          call.remainingBudget readings.budget := rfl
    simp only [tryNext,same,not_le.mpr time,if_false]

/-- In every run, whatever the interleaving: a breaker has counted the failures reported to it
since the last success, and has been open since the last of them if they reach its threshold.
So the streak, the recovery time and the probe slot decide whether a call tries the primary. -/
theorem skips_by_streak {breakers : Nat → CircuitBreaker} (fresh : ∀ b, (breakers b).Fresh)
    {events : List Event} {last : System}
    (ran : run (System.step limiter) (System.start breakers) events = some last) (b : Nat) :
    let streak := streakOf b (history (System.step limiter) (System.start breakers) events)
    (last.breakers b).consecutiveFailures = streak.length ∧
    (last.breakers b).openedAt = trippedAt (breakers b).failureThreshold streak ∧
    ∀ c call reservation readings next, last.calls[c]? = some call → call.router.breaker = b →
      call.pc = .reserve (some (.ok reservation)) → 0 < call.remainingBudget readings.budget →
      last.step limiter (.wake c (.finished readings)) = some next →
      let tried := admits (breakers b) streak (last.breakers b).probeInFlight readings.breaker
      (next.calls[c]?).map Call.pc = some (.attempt reservation
        (if tried then call.router.primary else call.router.secondary)
        (if tried then [call.router.secondary] else [])
        (min call.router.attemptTimeoutS (call.remainingBudget readings.budget))) := by
  intro streak
  have counted := run_counted limiter fresh ran b
  refine ⟨counted.failures,counted.opened,?_⟩
  intro c call reservation readings next known own awaited time stepped
  subst b
  dsimp only
  rw [← counted.allows]
  obtain ⟨inside,_⟩ := List.getElem?_eq_some_iff.mp known
  simp only [System.step,known,Option.bind_some,Call.wake,awaited,Option.map_some,
    Option.some.injEq] at stepped
  subst next
  simp only [System.put,List.getElem?_set_self inside,Option.map_some,Call.afterReserve_dials time]

/-- One failure opens the breaker while another call waits for its reservation. -/
def skipRun : List Event :=
  let router : ModelRouter := ⟨⟨0,lit "primary"⟩,⟨1,lit "secondary"⟩,3,none,0⟩
  [.route router (lit "tenant-a") (lit "hello") 256 (lit "r1") 0 0,
    .route router (lit "tenant-a") (lit "hello") 256 (lit "r2") 0 0,.transaction 0,.transaction 0,
    .wake 0 (.finished ⟨0,0,0⟩),.wake 0 (.answered .timeout ⟨3,3,3⟩)]

def Pc.reserved? : Pc → Option Reservation
  | .reserve (some (.ok reservation)) => some reservation
  | _ => none

theorem Pc.reserved?_some {pc : Pc} {reservation : Reservation}
    (granted : pc.reserved? = some reservation) : pc = .reserve (some (.ok reservation)) := by
  unfold Pc.reserved? at granted
  split at granted
  · cases granted
    rfl
  · cases granted

theorem skips_by_streak_second :
    let breakers : Nat → CircuitBreaker := fun _ => ⟨1,30,0,none,false⟩
    ∃ last next call reservation,
      run (System.step ⟨50000,60⟩) (System.start breakers) skipRun = some last ∧
      last.step ⟨50000,60⟩ (.wake 1 (.finished ⟨32,32,0⟩)) = some next ∧
      streakOf 0 (history (System.step ⟨50000,60⟩) (System.start breakers) skipRun) = [3] ∧
      last.calls[1]? = some call ∧ (next.calls[1]?).map Call.pc = some (.attempt reservation
        call.router.secondary [] (min call.router.attemptTimeoutS (call.remainingBudget 32))) := by
  intro breakers
  have ends : ((run (System.step ⟨50000,60⟩) (System.start breakers) skipRun).any fun last =>
      (last.step ⟨50000,60⟩ (.wake 1 (.finished ⟨32,32,0⟩))).isSome && (last.calls[1]?).any fun call =>
        call.pc.reserved?.isSome && decide (call.router.breaker = 0) &&
          decide (0 < call.remainingBudget 32)) = true := by decide +kernel
  have streak : streakOf 0 (history (System.step ⟨50000,60⟩) (System.start breakers) skipRun) =
      [3] := by decide +kernel
  obtain ⟨last,ran,here⟩ := (Option.any_eq_true ..).mp ends
  rw [Bool.and_eq_true,Option.isSome_iff_exists] at here
  obtain ⟨⟨next,stepped⟩,second⟩ := here
  obtain ⟨call,known,waits⟩ := (Option.any_eq_true ..).mp second
  simp only [Bool.and_eq_true,decide_eq_true_eq,Option.isSome_iff_exists] at waits
  obtain ⟨⟨⟨reservation,granted⟩,own⟩,time⟩ := waits
  have fresh (b : Nat) : (breakers b).Fresh := ⟨rfl,rfl⟩
  have dials := (skips_by_streak ⟨50000,60⟩ fresh ran 0).2.2 1 call reservation ⟨32,32,0⟩ next known
    own (Pc.reserved?_some granted) time stepped
  have refused (slot : Bool) : admits (breakers 0) [3] slot 32 = false := by
    cases slot <;> decide +kernel
  refine ⟨last,next,call,reservation,ran,stepped,streak,known,?_⟩
  dsimp only at dials
  rw [streak,refused] at dials
  exact dials

end GatewaySuite.Router
