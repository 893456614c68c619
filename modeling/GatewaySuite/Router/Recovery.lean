import GatewaySuite.Router.Probe

/-! How long an opened breaker stays open. The clock never runs back, so what a failure has set
`opened_at` to bounds every later admission; a success that was under way when the breaker
opened is what can undo it. -/
namespace GatewaySuite.Router
open Python Limiter Lib
variable (limiter : SlidingWindowRateLimiter)

/-- The reading of the breaker's clock that a step takes. -/
def Event.reading : Event → Option ℚ
  | .wake _ (.finished readings) => some readings.breaker
  | .wake _ (.answered _ readings) => some readings.breaker
  | _ => none

/-- The clock does not run back between the two. -/
def Event.Before (first second : Event) : Prop :=
  ∀ earlier ∈ first.reading, ∀ now ∈ second.reading, earlier ≤ now

instance (first second : Event) : Decidable (first.Before second) :=
  inferInstanceAs (Decidable (∀ earlier ∈ first.reading, ∀ now ∈ second.reading, earlier ≤ now))

/-- `time.monotonic()` does not run back. -/
def Clocked (past : List (System × Event)) (_ : System) (event : Event) : Prop :=
  ∀ x ∈ past, x.2.Before event

/-- The step at which a recorded failure sets `opened_at` of breaker `b`. -/
def Opens (b : Nat) (opened : ℚ) (x : System × Event) : Prop :=
  ∃ c call answer readings reservation rest timeoutS, x.2 = .wake c (.answered answer readings) ∧
    x.1.calls[c]? = some call ∧ call.router.breaker = b ∧
    call.pc = .attempt reservation call.router.primary rest timeoutS ∧ answer.healthy = false ∧
    (x.1.breakers b).failureThreshold ≤ (x.1.breakers b).consecutiveFailures + 1 ∧
    readings.breaker = opened

/-- An attempt at the primary ends well only while the breaker is closed, or while `opened_at`
is what it was when the attempt was admitted. -/
def Timely (past : List (System × Event)) (s : System) (event : Event) : Prop :=
  ∀ c call answer readings reservation rest timeoutS, event = .wake c (.answered answer readings) →
    s.calls[c]? = some call →
    call.pc = .attempt reservation call.router.primary rest timeoutS → answer.healthy = true →
    ∀ opened, (s.breakers call.router.breaker).openedAt = some opened →
      ∃ x ∈ past, ∃ now, Admitted call.router.breaker c now x ∧
        (x.1.breakers call.router.breaker).openedAt = some opened

/-- An admission by a breaker that has opened is a probe, past the recovery time. -/
theorem admitted_opened {b c : Nat} {now opened : ℚ} {x : System × Event}
    (admitted : Admitted b c now x) (since : (x.1.breakers b).openedAt = some opened) :
    Probes b c x ∧ opened + (x.1.breakers b).recoveryTimeS ≤ now := by
  have shown := admitted
  obtain ⟨call,reservation,readings,_,rfl,_,_,_,allowed⟩ := shown
  obtain ⟨_,shut,_⟩ | ⟨_,answer⟩ | ⟨_,_,answer⟩ | ⟨halfOpen,_,_⟩ :=
    (x.1.breakers b).allowsRequest_cases readings.breaker
  · cases shut.symm.trans since
  · simp [answer] at allowed
  · simp [answer] at allowed
  · refine ⟨⟨readings.breaker,admitted,halfOpen⟩,?_⟩
    obtain ⟨opened',since',recovered⟩ := CircuitBreaker.halfOpen_opened halfOpen
    cases since.symm.trans since'
    linarith

/-- What a wake-up makes of `opened_at` of its breaker. -/
inductive Reopens (s : System) (c : Nat) (call : Call) (before after : CircuitBreaker) :
    Wakeup → Prop
  | same (wakeup : Wakeup) (kept : after.openedAt = before.openedAt)
      (unopened : ∀ opened, ¬Opens call.router.breaker opened (s,.wake c wakeup)) :
      Reopens s c call before after wakeup
  | close (answer : Answer) (readings : Readings) (reservation : Reservation)
      (rest : List Provider) (timeoutS : ℚ)
      (awaited : call.pc = .attempt reservation call.router.primary rest timeoutS)
      (healthy : answer.healthy = true) (closed : after.openedAt = none) :
      Reopens s c call before after (.answered answer readings)
  | «open» (answer : Answer) (readings : Readings)
      (opened : after.openedAt = some readings.breaker)
      (opens : Opens call.router.breaker readings.breaker (s,.wake c (.answered answer readings))) :
      Reopens s c call before after (.answered answer readings)

theorem Woken.reopens {s next : System} {c : Nat} {wakeup : Wakeup} {call moved : Call}
    {after : CircuitBreaker} (woken : Woken s c wakeup next call moved after) :
    Reopens s c call (s.breakers call.router.breaker) after wakeup := by
  have asked (readings : Readings) (opened : ℚ) :
      ¬Opens call.router.breaker opened (s,.wake c (.finished readings)) := by
    rintro ⟨_,_,_,_,_,_,_,same,_⟩
    cases same
  have handles := woken.handles
  generalize moved.pc = pc at handles
  cases handles with
  | dial readings reservation timeoutS awaited allowed =>
    obtain ⟨slot,same⟩ :=
      (s.breakers call.router.breaker).allowsRequest_frame readings.breaker
    exact .same _ (by rw [same]) (asked readings)
  | expire readings reservation pc settled awaited allowed =>
    obtain ⟨slot,same⟩ :=
      (s.breakers call.router.breaker).allowsRequest_frame readings.breaker
    exact .same _ (by rw [same]; rfl) (asked readings)
  | refuse readings reservation pc settled awaited refused => exact .same _ rfl (asked readings)
  | refuseExpired readings reservation pc settled awaited same expired refused =>
    exact .same _ rfl (asked readings)
  | succeed answer readings reservation rest timeoutS pc settled awaited healthy =>
    exact .close answer readings reservation rest timeoutS awaited healthy rfl
  | fail answer readings reservation rest timeoutS pc settled awaited faulty =>
    by_cases reached : (s.breakers call.router.breaker).failureThreshold ≤
        (s.breakers call.router.breaker).consecutiveFailures + 1
    · refine .open answer readings ?_ ⟨c,call,answer,readings,reservation,rest,timeoutS,rfl,
        woken.known,rfl,awaited,faulty,reached,rfl⟩
      simp only [CircuitBreaker.recordFailure,reached,if_true]
    · refine .same _ ?_ ?_
      · simp only [CircuitBreaker.recordFailure,reached,if_false]
      · rintro opened ⟨_,_,_,_,_,_,_,_,_,_,_,_,most,_⟩
        exact reached most
  | abort reservation rest timeoutS pc settled awaited =>
    refine .same _ rfl ?_
    rintro opened ⟨_,_,_,_,_,_,_,same,_⟩
    cases same
  | pass wakeup pc settled elsewhere =>
    refine .same _ rfl ?_
    rintro opened ⟨c',call',_,_,_,_,_,same,known,_,stands,_⟩
    cases same
    cases woken.known.symm.trans known
    exact elsewhere _ _ _ stands

/-- Whatever `opened_at` was set to is not later than it is now; or the breaker has closed, and
then its recovery time had passed. -/
structure Recovering (past : List (System × Event)) (s : System) : Prop where
  steady : ∀ x ∈ past, ∀ b, (x.1.breakers b).recoveryTimeS = (s.breakers b).recoveryTimeS
  latest : ∀ x ∈ past, ∀ b opened, Opens b opened x → ∀ since, (s.breakers b).openedAt = some since →
    opened ≤ since
  waited : ∀ x ∈ past, ∀ b opened, Opens b opened x → (s.breakers b).openedAt = none →
    ∃ y ∈ past, ∃ now ∈ y.2.reading, opened + (s.breakers b).recoveryTimeS ≤ now

theorem opens_reading {b : Nat} {opened : ℚ} {x : System × Event} (opens : Opens b opened x) :
    opened ∈ x.2.reading := by
  obtain ⟨c,call,answer,readings,reservation,rest,timeoutS,same,_,_,_,_,_,rfl⟩ := opens
  rw [same]
  rfl

theorem admitted_reading {b c : Nat} {now : ℚ} {x : System × Event} (admitted : Admitted b c now x) :
    now ∈ x.2.reading := by
  obtain ⟨call,reservation,readings,same,rfl,_⟩ := admitted
  rw [same]
  rfl

theorem step_recovery {past : List (System × Event)} {s next : System} {event : Event}
    (tracked : Tracked past s) (stepped : s.step limiter event = some next) (b : Nat) :
    (next.breakers b).recoveryTimeS = (s.breakers b).recoveryTimeS := by
  by_cases idle : ∀ c wakeup, event ≠ .wake c wakeup
  · rw [step_breakers limiter stepped idle]
  · push Not at idle
    obtain ⟨c,wakeup,rfl⟩ := idle
    obtain ⟨call,moved,after,woken⟩ := step_woken limiter tracked.shaped stepped
    rw [woken.breakers]
    by_cases own : b = call.router.breaker
    · rw [own,Function.update_self]
      exact woken.handles.recoveryTimeS
    · rw [Function.update_of_ne own]

theorem Recovering.kept {past : List (System × Event)} {s next : System} {event : Event} {b : Nat}
    (recovering : Recovering past s)
    (steady : (next.breakers b).recoveryTimeS = (s.breakers b).recoveryTimeS)
    (same : (next.breakers b).openedAt = (s.breakers b).openedAt)
    (unopened : ∀ opened, ¬Opens b opened (s,event)) :
    ∀ x ∈ past ++ [(s,event)], ∀ opened, Opens b opened x →
      (∀ since, (next.breakers b).openedAt = some since → opened ≤ since) ∧
      ((next.breakers b).openedAt = none → ∃ y ∈ past ++ [(s,event)], ∃ now ∈ y.2.reading,
        opened + (next.breakers b).recoveryTimeS ≤ now) := by
  intro x member opened opens
  rcases List.mem_append.mp member with earlier | latest
  · rw [same,steady]
    refine ⟨recovering.latest x earlier b opened opens,fun closed => ?_⟩
    obtain ⟨y,inside,now,read,passed⟩ := recovering.waited x earlier b opened opens closed
    exact ⟨y,List.mem_append_left _ inside,now,read,passed⟩
  · rw [List.mem_singleton] at latest
    subst x
    exact absurd opens (unopened opened)

/-- A success that was admitted by the breaker as it stands comes after its recovery time. -/
theorem Recovering.succeeded {past : List (System × Event)} {s : System} {b c : Nat} {call : Call}
    {answer : Answer} {readings : Readings} {reservation : Reservation} {rest : List Provider}
    {timeoutS : ℚ} (timely : Timely past s (.wake c (.answered answer readings)))
    (recovering : Recovering past s) (known : s.calls[c]? = some call)
    (own : b = call.router.breaker)
    (awaited : call.pc = .attempt reservation call.router.primary rest timeoutS)
    (healthy : answer.healthy = true) :
    ∀ x ∈ past, ∀ opened, Opens b opened x → ∃ y ∈ past, ∃ now ∈ y.2.reading,
      opened + (s.breakers b).recoveryTimeS ≤ now := by
  intro x earlier opened opens
  cases before : (s.breakers b).openedAt with
  | none => exact recovering.waited x earlier b opened opens before
  | some since =>
    -- the attempt was admitted after the breaker had opened for the last time
    obtain ⟨y,inside,now,admitted,same⟩ := timely c call answer readings reservation rest
      timeoutS rfl known awaited healthy since (by rw [← own]; exact before)
    rw [← own] at admitted same
    have passed := (admitted_opened admitted same).2
    have order := recovering.latest x earlier b opened opens since before
    rw [recovering.steady y inside b] at passed
    refine ⟨y,inside,now,admitted_reading admitted,?_⟩
    linarith

theorem opens_ordered {past : List (System × Event)} {s : System} {event : Event} {b : Nat} {now : ℚ}
    (clocked : Clocked past s event) (read : event.reading = some now) :
    ∀ x ∈ past ++ [(s,event)], ∀ opened, Opens b opened x → opened ≤ now := by
  intro x member opened opens
  rcases List.mem_append.mp member with earlier | latest
  · exact clocked x earlier _ (opens_reading opens) now read
  · rw [List.mem_singleton] at latest
    subst x
    have own := opens_reading opens
    cases own.symm.trans read
    exact le_rfl

/-- What a step makes of `opened_at`: it stays, an attempt at the primary that ends well clears
it, or a failed one sets it to its reading of the clock. -/
theorem step_opened {past : List (System × Event)} {s next : System} {event : Event}
    (tracked : Tracked past s) (stepped : s.step limiter event = some next) (b : Nat) :
    ((next.breakers b).openedAt = (s.breakers b).openedAt ∧ ∀ opened, ¬Opens b opened (s,event)) ∨
    (∃ c call answer readings reservation rest timeoutS,
      event = .wake c (.answered answer readings) ∧ s.calls[c]? = some call ∧
      b = call.router.breaker ∧ call.pc = .attempt reservation call.router.primary rest timeoutS ∧
      answer.healthy = true ∧ (next.breakers b).openedAt = none) ∨
    ∃ c answer readings, event = .wake c (.answered answer readings) ∧
      (next.breakers b).openedAt = some readings.breaker := by
  by_cases idle : ∀ c wakeup, event ≠ .wake c wakeup
  · refine Or.inl ⟨by rw [step_breakers limiter stepped idle],?_⟩
    rintro opened ⟨c,_,answer,readings,_,_,_,same,_⟩
    exact idle c _ same
  · push Not at idle
    obtain ⟨c,wakeup,rfl⟩ := idle
    obtain ⟨call,moved,after,woken⟩ := step_woken limiter tracked.shaped stepped
    by_cases own : b = call.router.breaker
    · have held : next.breakers b = after := by rw [woken.breakers,own,Function.update_self]
      have reopens := woken.reopens
      rw [← own] at reopens
      cases reopens with
      | same wakeup kept unopened =>
        rw [← own] at unopened
        exact Or.inl ⟨by rw [held,kept],unopened⟩
      | close answer readings reservation rest timeoutS awaited healthy closed =>
        exact Or.inr (Or.inl ⟨c,call,answer,readings,reservation,rest,timeoutS,rfl,woken.known,own,
          awaited,healthy,by rw [held,closed]⟩)
      | «open» answer readings opened opens =>
        exact Or.inr (Or.inr ⟨c,answer,readings,rfl,by rw [held,opened]⟩)
    · refine Or.inl ⟨by rw [woken.breakers,Function.update_of_ne own],?_⟩
      rintro opened ⟨c',call',_,_,_,_,_,same,known,belongs,_⟩
      cases same
      cases woken.known.symm.trans known
      exact own belongs.symm

theorem Recovering.bounds {past : List (System × Event)} {s next : System} {event : Event}
    (clocked : Clocked past s event) (timely : Timely past s event) (tracked : Tracked past s)
    (recovering : Recovering past s) (stepped : s.step limiter event = some next) (b : Nat) :
    ∀ x ∈ past ++ [(s,event)], ∀ opened, Opens b opened x →
      (∀ since, (next.breakers b).openedAt = some since → opened ≤ since) ∧
      ((next.breakers b).openedAt = none → ∃ y ∈ past ++ [(s,event)], ∃ now ∈ y.2.reading,
        opened + (next.breakers b).recoveryTimeS ≤ now) := by
  have steady := step_recovery limiter tracked stepped b
  obtain ⟨kept,unopened⟩ | ⟨c,call,answer,readings,reservation,rest,timeoutS,rfl,known,own,awaited,
    healthy,gone⟩ | ⟨c,answer,readings,rfl,set⟩ := step_opened limiter tracked stepped b
  · exact recovering.kept steady kept unopened
  · intro x member opened opens
    refine ⟨by simp [gone],fun _ => ?_⟩
    rw [steady]
    rcases List.mem_append.mp member with earlier | latest
    · obtain ⟨y,inside,now,read,passed⟩ :=
        recovering.succeeded timely known own awaited healthy x earlier opened opens
      exact ⟨y,List.mem_append_left _ inside,now,read,passed⟩
    · rw [List.mem_singleton] at latest
      subst x
      obtain ⟨_,_,_,_,_,_,_,same,_,_,_,faulty,_⟩ := opens
      cases same
      cases healthy.symm.trans faulty
  · intro x member opened opens
    refine ⟨fun since here => ?_,by simp [set]⟩
    rw [set,Option.some.injEq] at here
    subst since
    exact opens_ordered clocked rfl x member opened opens

theorem Recovering.step {past : List (System × Event)} {s next : System} {event : Event}
    (clocked : Clocked past s event) (timely : Timely past s event) (tracked : Tracked past s)
    (recovering : Recovering past s) (stepped : s.step limiter event = some next) :
    Recovering (past ++ [(s,event)]) next where
  steady := by
    intro x member b
    rw [step_recovery limiter tracked stepped b]
    rcases List.mem_append.mp member with earlier | latest
    · exact recovering.steady x earlier b
    · rw [List.mem_singleton] at latest
      rw [latest]
  latest := fun x member b opened opens =>
    (recovering.bounds limiter clocked timely tracked stepped b x member opened opens).1
  waited := fun x member b opened opens =>
    (recovering.bounds limiter clocked timely tracked stepped b x member opened opens).2

/-- In every run with a clock that does not run back, in which no attempt that was under way
when the breaker opened ends well afterwards: no call is admitted earlier than the recovery
time after a recorded failure set `opened_at`, and only a probe that ends well closes it. -/
theorem open_for_recovery_time (breakers : Nat → CircuitBreaker) (events : List Event)
    (event : Event) (last next : System)
    (ran : run (System.step limiter) (System.start breakers) events = some last)
    (stepped : last.step limiter event = some next)
    (clocked : Along Clocked (System.step limiter) [] (System.start breakers) (events ++ [event]))
    (timely : Along Timely (System.step limiter) [] (System.start breakers) (events ++ [event])) :
    (∀ b c now, Admitted b c now (last,event) →
      ∀ x ∈ history (System.step limiter) (System.start breakers) events, ∀ opened,
        Opens b opened x → opened + (last.breakers b).recoveryTimeS ≤ now) ∧
    ∀ b, (last.breakers b).openedAt ≠ none → (next.breakers b).openedAt = none →
      ∃ c answer readings, event = .wake c (.answered answer readings) ∧ answer.healthy = true ∧
        ∃ x ∈ history (System.step limiter) (System.start breakers) events, Probes b c x := by
  obtain ⟨clocks,clock⟩ := along_concat clocked ran
  obtain ⟨times,time⟩ := along_concat timely ran
  rw [List.nil_append] at clock time
  have start : Tracked [] (System.start breakers) ∧ Recovering [] (System.start breakers) :=
    ⟨.start breakers,by simp,by simp,by simp⟩
  have reached := along_invariant
    (fun past s => Tracked past s ∧ Recovering past s)
    (fun past s e after met holds moves =>
      ⟨holds.1.step limiter moves,
        Recovering.step limiter met.1 met.2 holds.1 holds.2 moves⟩)
    (along_and clocks times) start ran
  obtain ⟨tracked,recovering⟩ :
      Tracked (history (System.step limiter) (System.start breakers) events) last ∧
      Recovering (history (System.step limiter) (System.start breakers) events) last := reached
  constructor
  · intro b c now admitted x member opened opens
    cases current : (last.breakers b).openedAt with
    | none =>
      obtain ⟨y,inside,then',read,passed⟩ := recovering.waited x member b opened opens current
      exact passed.trans (clock y inside then' read now (admitted_reading admitted))
    | some since =>
      have order := recovering.latest x member b opened opens since current
      have passed := (admitted_opened admitted current).2
      dsimp only at passed
      linarith
  · intro b opened closed
    obtain ⟨kept,_⟩ | ⟨c,call,answer,readings,reservation,rest,timeoutS,rfl,known,rfl,awaited,
      healthy,_⟩ | ⟨_,_,_,_,set⟩ := step_opened limiter tracked stepped b
    · rw [kept] at closed
      exact absurd closed opened
    · obtain ⟨since,here⟩ := Option.ne_none_iff_exists'.mp opened
      obtain ⟨x,member,now,admitted,same⟩ := time c call answer readings reservation rest
        timeoutS rfl known awaited healthy since here
      exact ⟨c,answer,readings,rfl,healthy,x,member,(admitted_opened admitted same).1⟩
    · cases closed.symm.trans set

/-- Call 0 opens the breaker at 1, and call 1 comes when its recovery time has passed. -/
def recoveryRun : List Event :=
  [.route slowRouter (lit "tenant-a") (lit "hello") 256 (lit "r1") 0 0,
    .route slowRouter (lit "tenant-a") (lit "hello") 256 (lit "r2") 0 0,
    .transaction 0,.transaction 0,
    .wake 0 (.finished ⟨0,0,0⟩),.wake 0 (.answered .timeout ⟨1,1,1⟩)]

theorem open_for_recovery_time_probe :
    ∃ last next, run (System.step ⟨50000,60⟩) (System.start fun _ => ⟨1,30,0,none,false⟩)
        recoveryRun = some last ∧ last.step ⟨50000,60⟩ (.wake 1 (.finished ⟨31,31,0⟩)) = some next ∧
      ∀ b c now, Admitted b c now (last,.wake 1 (.finished ⟨31,31,0⟩)) →
        ∀ x ∈ history (System.step ⟨50000,60⟩) (System.start fun _ => ⟨1,30,0,none,false⟩)
          recoveryRun, ∀ opened, Opens b opened x → opened + (last.breakers b).recoveryTimeS ≤ now := by
  have ends : ((run (System.step ⟨50000,60⟩) (System.start fun _ => ⟨1,30,0,none,false⟩)
      recoveryRun).bind fun last =>
        last.step ⟨50000,60⟩ (.wake 1 (.finished ⟨31,31,0⟩))).isSome = true := by decide +kernel
  obtain ⟨next,both⟩ := Option.isSome_iff_exists.mp ends
  obtain ⟨last,ran,stepped⟩ := Option.bind_eq_some_iff.mp both
  refine ⟨last,next,ran,stepped,
    (open_for_recovery_time _ _ recoveryRun _ last next ran stepped ?_ ?_).1⟩
  · have ordered : (recoveryRun ++ [Event.wake 1 (.finished ⟨31,31,0⟩)]).Pairwise Event.Before := by
      decide +kernel
    exact along_pairwise ordered [] _ (by simp)
  · apply along_events
    rintro event member past s c call answer readings reservation rest timeoutS rfl _ _ healthy
    -- the only attempt that ends is the one that times out
    simp only [recoveryRun,List.cons_append,List.nil_append,List.mem_cons,List.not_mem_nil,reduceCtorEq,
      Event.wake.injEq,Wakeup.answered.injEq,and_false,or_false,false_or] at member
    rw [member.2.1] at healthy
    cases healthy

/-- `Opens`, computed: what `opened_at` is set to. -/
def opening (b : Nat) (x : System × Event) : Option ℚ :=
  match x.2 with
  | .wake c (.answered answer readings) =>
    let opens := (x.1.calls[c]?).any (fun call =>
      match call.pc with
      | .attempt _ provider _ _ => call.router.breaker == b && provider == call.router.primary
      | _ => false) && !answer.healthy &&
        decide ((x.1.breakers b).failureThreshold ≤ (x.1.breakers b).consecutiveFailures + 1)
    if opens then some readings.breaker else none
  | _ => none

theorem opening_opens {b : Nat} {opened : ℚ} {x : System × Event}
    (found : opening b x = some opened) : Opens b opened x := by
  obtain ⟨s,event⟩ := x
  unfold opening at found
  split at found
  next c answer readings same =>
    cases same
    dsimp only at found
    split_ifs at found with opens
    rw [Option.some.injEq] at found
    subst opened
    rw [Bool.and_eq_true,Bool.and_eq_true,Option.any_eq_true_iff_get,Bool.not_eq_true',
      decide_eq_true_eq] at opens
    obtain ⟨⟨⟨known,stands⟩,faulty⟩,reached⟩ := opens
    split at stands
    next reservation provider rest timeoutS awaited =>
      rw [Bool.and_eq_true,beq_iff_eq,beq_iff_eq] at stands
      obtain ⟨own,rfl⟩ := stands
      exact ⟨c,_,answer,readings,reservation,rest,timeoutS,rfl,Option.eq_some_of_isSome known,own,
        awaited,faulty,reached,rfl⟩
    next => cases stands
  next => cases found

/-- Call 0 opens the breaker at 1, call 1 was under way and ends well at 2. -/
def staleSuccessRun : List Event :=
  [.route slowRouter (lit "tenant-a") (lit "hello") 256 (lit "r1") 0 0,
    .route slowRouter (lit "tenant-a") (lit "hello") 256 (lit "r2") 0 0,
    .route slowRouter (lit "tenant-a") (lit "hello") 256 (lit "r3") 0 0,
    .transaction 0,.transaction 0,.transaction 0,
    .wake 0 (.finished ⟨0,0,0⟩),.wake 1 (.finished ⟨0,0,0⟩),
    .wake 0 (.answered .timeout ⟨1,1,1⟩),
    .wake 1 (.answered (.completed ⟨lit "hi",1,2,lit "primary"⟩) ⟨2,2,2⟩)]

theorem stale_success_closes :
    ¬∀ (limiter : SlidingWindowRateLimiter) (breakers : Nat → CircuitBreaker) (events : List Event)
      (event : Event) (last next : System),
      run (System.step limiter) (System.start breakers) events = some last →
      last.step limiter event = some next →
      Along Clocked (System.step limiter) [] (System.start breakers) (events ++ [event]) →
      ∀ b c now, Admitted b c now (last,event) →
        ∀ x ∈ history (System.step limiter) (System.start breakers) events, ∀ opened,
          Opens b opened x → opened + (last.breakers b).recoveryTimeS ≤ now := by
  intro every
  let step := System.step ⟨50000,60⟩
  let start := System.start fun _ => ⟨1,30,0,none,false⟩
  let event : Event := .wake 2 (.finished ⟨3,3,0⟩)
  have admitted : ((run step start staleSuccessRun).map fun last =>
      (last.breakers 0).recoveryTimeS == 30 && (step last event).isSome &&
        admission 0 2 (last,event) == some 3) = some true := by decide +kernel
  have opened : (history step start staleSuccessRun).any (fun x => opening 0 x == some 1) = true := by
    decide +kernel
  have ordered : (staleSuccessRun ++ [event]).Pairwise Event.Before := by decide +kernel
  obtain ⟨last,ran,checks⟩ := Option.map_eq_some_iff.mp admitted
  obtain ⟨x,member,opens⟩ := List.any_eq_true.mp opened
  rw [Bool.and_eq_true,Bool.and_eq_true,beq_iff_eq,beq_iff_eq,Option.isSome_iff_exists] at checks
  obtain ⟨⟨recovery,next,stepped⟩,found⟩ := checks
  have early := every _ _ staleSuccessRun event last next ran stepped
    (along_pairwise ordered [] _ (by simp)) 0 2 3 (admission_admitted found) x member 1
    (opening_opens (beq_iff_eq.mp opens))
  rw [recovery] at early
  linarith

end GatewaySuite.Router
