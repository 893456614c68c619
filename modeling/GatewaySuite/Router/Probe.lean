import GatewaySuite.Router.Breaker

/-! The half-open probe. The slot is never held by nobody; but the breaker does not know who
holds it, and the end of any other attempt at the primary gives it back. -/
namespace GatewaySuite.Router
open Python Limiter Lib
variable (limiter : SlidingWindowRateLimiter)

/-- The step at which `allows_request` of breaker `b` admits call `c`, with that reading. -/
def Admitted (b c : Nat) (now : ℚ) (x : System × Event) : Prop :=
  ∃ call reservation readings, x.2 = .wake c (.finished readings) ∧ readings.breaker = now ∧
    x.1.calls[c]? = some call ∧ call.router.breaker = b ∧
    call.pc = .reserve (some (.ok reservation)) ∧
    ((x.1.breakers b).allowsRequest now).1 = true

/-- The step at which call `c` is granted the probe. -/
def Probes (b c : Nat) (x : System × Event) : Prop :=
  ∃ now, Admitted b c now x ∧ (x.1.breakers b).state now = .halfOpen

/-- Call `c` was granted the probe and is still inside its primary attempt. -/
def Probing (past : List (System × Event)) (s : System) (b c : Nat) : Prop :=
  (∃ x ∈ past, Probes b c x) ∧ Inside b c s

structure Tracked (past : List (System × Event)) (s : System) : Prop where
  shaped : ∀ (c : Nat) call, s.calls[c]? = some call → call.Shaped
  begun : ∀ x ∈ past, ∀ b c now, Admitted b c now x →
    ∃ call, s.calls[c]? = some call ∧ ∀ result, call.pc ≠ .reserve result

theorem Tracked.start (breakers : Nat → CircuitBreaker) : Tracked [] (.start breakers) :=
  ⟨by simp [System.start],by simp⟩

/-- A call comes to stand at an attempt with a candidate left only from its reserve, by the grant. -/
theorem Handles.granted {call : Call} {before after : CircuitBreaker} {wakeup : Wakeup} {pc : Pc}
    (handles : Handles call before wakeup pc after) {reservation : Reservation}
    {provider : Provider} {rest : List Provider} {timeoutS : ℚ}
    (stands : pc = .attempt reservation provider rest timeoutS) :
    rest = [] ∨ (provider = call.router.primary ∧ rest = [call.router.secondary] ∧
      ∃ readings reservation', wakeup = .finished readings ∧
        call.pc = .reserve (some (.ok reservation')) ∧
        (before.allowsRequest readings.breaker).1 = true ∧
        after = (before.allowsRequest readings.breaker).2) := by
  cases handles with
  | dial readings reservation' timeoutS' awaited allowed =>
    cases stands
    exact Or.inr ⟨rfl,rfl,readings,_,rfl,awaited,allowed,rfl⟩
  | expire readings reservation' pc settled _ _ => exact Or.inl (settled _ _ _ _ stands)
  | refuse readings reservation' pc settled _ _ => exact Or.inl (settled _ _ _ _ stands)
  | refuseExpired readings reservation' pc settled _ _ _ _ => exact Or.inl (settled _ _ _ _ stands)
  | succeed answer readings reservation' rest' timeoutS' pc settled _ _ =>
    exact Or.inl (settled _ _ _ _ stands)
  | fail answer readings reservation' rest' timeoutS' pc settled _ _ =>
    exact Or.inl (settled _ _ _ _ stands)
  | abort reservation' rest' timeoutS' pc settled _ => exact Or.inl (settled _ _ _ _ stands)
  | pass wakeup pc settled _ => exact Or.inl (settled _ _ _ _ stands)

theorem Tracked.step {past : List (System × Event)} {s next : System} {event : Event}
    (tracked : Tracked past s) (stepped : s.step limiter event = some next) :
    Tracked (past ++ [(s,event)]) next := by
  constructor
  · intro c call known reservation provider rest timeoutS stands
    obtain ⟨awaits,_⟩ | ⟨previous,old,moves⟩ := step_arisen limiter stepped known
    · cases awaits.symm.trans stands
    · obtain ⟨wakeup,rfl,_⟩ | ⟨_,rfl | ⟨finished,rfl⟩⟩ := moves
      · obtain ⟨call',moved,after,woken⟩ := step_woken limiter tracked.shaped stepped
        cases woken.here.symm.trans known
        rw [woken.router]
        obtain last | ⟨aimed,rests,_⟩ := woken.handles.granted stands
        · exact Or.inl last
        · exact Or.inr ⟨aimed,rests⟩
      · exact tracked.shaped c call old _ _ _ _ stands
      · exact tracked.shaped c previous old _ _ _ _ (deliver_attempt.mp stands)
  · intro x member b c now admitted
    rcases List.mem_append.mp member with earlier | latest
    · obtain ⟨call,known,started⟩ := tracked.begun x earlier b c now admitted
      obtain ⟨call',known',moves⟩ := step_known limiter stepped known
      refine ⟨call',known',fun result awaits => ?_⟩
      obtain ⟨wakeup,_,turned⟩ | ⟨_,rfl | ⟨finished,rfl⟩⟩ := moves
      · have turn := turned.turn
        rw [awaits] at turn
        exact turn_reserve turn
      · exact started result awaits
      · obtain ⟨before,same⟩ := deliver_reserve awaits
        exact started before same
    · rw [List.mem_singleton] at latest
      subst x
      obtain ⟨call,reservation,readings,rfl,_⟩ := admitted
      obtain ⟨call',moved,after,woken⟩ := step_woken limiter tracked.shaped stepped
      refine ⟨moved,woken.here,fun result awaits => ?_⟩
      have turn := woken.turned.turn
      rw [awaits] at turn
      exact turn_reserve turn

theorem probing_other {past : List (System × Event)} {s next : System} {event : Event} {b c : Nat}
    (stepped : s.step limiter event = some next) (other : ∀ wakeup, event ≠ .wake c wakeup) :
    Probing (past ++ [(s,event)]) next b c ↔ Probing past s b c := by
  have now : ¬Probes b c (s,event) := by
    rintro ⟨now,⟨call,reservation,readings,same,_⟩,_⟩
    exact other _ same
  simp only [Probing,step_inside limiter stepped other,List.mem_append,List.mem_singleton,or_and_right,
    exists_or,exists_eq_left,now,or_false]

/-- A call that moves is inside its primary attempt afterwards only if it was just admitted. -/
theorem probing_woken {past : List (System × Event)} {s next : System} {b c : Nat}
    {wakeup : Wakeup} {call moved : Call} {after : CircuitBreaker} (tracked : Tracked past s)
    (woken : Woken s c wakeup next call moved after)
    (probing : Probing (past ++ [(s,.wake c wakeup)]) next b c) :
    b = call.router.breaker ∧ ∃ readings, wakeup = .finished readings ∧
      (s.breakers b).state readings.breaker = .halfOpen ∧ (s.breakers b).probeInFlight = false ∧
      after = {s.breakers b with probeInFlight := true} := by
  obtain ⟨⟨x,member,now,admitted,halfOpen⟩,call',known',own,reservation,timeoutS,stands⟩ := probing
  cases woken.here.symm.trans known'
  have same : b = call.router.breaker := by rw [← own,woken.router]
  refine ⟨same,?_⟩
  obtain last | ⟨_,_,readings,reservation',rfl,awaited,allowed,result⟩ := woken.handles.granted stands
  · cases last
  refine ⟨readings,rfl,?_⟩
  -- the call awaited its reserve until now, so the grant is this step's
  rcases List.mem_append.mp member with earlier | latest
  · obtain ⟨call'',known'',started⟩ := tracked.begun x earlier b c now admitted
    cases woken.known.symm.trans known''
    exact absurd awaited (started _)
  · rw [List.mem_singleton] at latest
    subst x
    obtain ⟨_,_,readings',event,rfl,_⟩ := admitted
    cases event
    rw [← same] at result
    obtain ⟨shut,_⟩ | ⟨shut,_⟩ | ⟨_,flag,answer⟩ | ⟨_,flag,answer⟩ :=
      (s.breakers b).allowsRequest_cases readings.breaker
    · cases shut.symm.trans halfOpen
    · cases shut.symm.trans halfOpen
    · rw [← same,answer] at allowed
      cases allowed
    · exact ⟨halfOpen,flag,by rw [result,answer]⟩

/-- The slot of every breaker is held by a call that was granted it. -/
def Held (past : List (System × Event)) (s : System) : Prop :=
  ∀ b, (s.breakers b).probeInFlight = true → ∃ c, Probing past s b c

theorem probing_stays {past : List (System × Event)} {s next : System} {b c c' : Nat}
    {wakeup : Wakeup} {call : Call} (stepped : s.step limiter (.wake c wakeup) = some next)
    (known : s.calls[c]? = some call)
    (outside : call.router.breaker = b → ¬call.InPrimary) (probing : Probing past s b c') :
    Probing (past ++ [(s,.wake c wakeup)]) next b c' := by
  apply (probing_other limiter stepped _).mpr probing
  intro wakeup' same
  cases same
  obtain ⟨_,call',known',own,inside⟩ := probing
  cases known.symm.trans known'
  exact outside own inside

theorem Held.step {past : List (System × Event)} {s next : System} {event : Event}
    (tracked : Tracked past s) (held : Held past s) (stepped : s.step limiter event = some next) :
    Held (past ++ [(s,event)]) next := by
  intro b flag
  by_cases idle : ∀ c wakeup, event ≠ .wake c wakeup
  · rw [step_breakers limiter stepped idle] at flag
    obtain ⟨c,probing⟩ := held b flag
    exact ⟨c,(probing_other limiter stepped (idle c)).mpr probing⟩
  · push Not at idle
    obtain ⟨c,wakeup,rfl⟩ := idle
    obtain ⟨call,moved,after,woken⟩ := step_woken limiter tracked.shaped stepped
    have stays (outside : call.router.breaker = b → ¬call.InPrimary)
        (before : (s.breakers b).probeInFlight = true) :
        ∃ c', Probing (past ++ [(s,.wake c wakeup)]) next b c' := by
      obtain ⟨c',probing⟩ := held b before
      exact ⟨c',probing_stays limiter stepped woken.known outside probing⟩
    by_cases own : b = call.router.breaker
    · rw [woken.breakers,own,Function.update_self] at flag
      have awaiting {result} (awaited : call.pc = .reserve result) :
          call.router.breaker = b → ¬call.InPrimary := by
        rintro _ ⟨reservation,timeoutS,stands⟩
        cases awaited.symm.trans stands
      have handles := woken.handles
      generalize stands : moved.pc = pc at handles
      cases handles with
      | dial readings reservation timeoutS awaited allowed =>
        obtain ⟨_,_,answer⟩ | ⟨_,answer⟩ | ⟨_,_,answer⟩ | ⟨halfOpen,free,answer⟩ :=
          (s.breakers call.router.breaker).allowsRequest_cases readings.breaker
        · rw [answer,← own] at flag
          exact stays (awaiting awaited) flag
        · simp [answer] at allowed
        · simp [answer] at allowed
        · refine ⟨c,⟨(s,.wake c (.finished readings)),by simp,readings.breaker,
            ⟨call,reservation,readings,rfl,rfl,woken.known,own.symm,awaited,?_⟩,?_⟩,
            moved,woken.here,?_,reservation,timeoutS,?_⟩
          · rwa [own]
          · rwa [own]
          · rw [woken.router,own]
          · rw [stands,woken.router]
      | expire readings reservation pc settled awaited allowed => cases flag
      | refuse readings reservation pc settled awaited refused =>
        rw [← own] at flag
        exact stays (awaiting awaited) flag
      | refuseExpired readings reservation pc settled awaited same expired refused => cases flag
      | succeed answer readings reservation rest timeoutS pc settled awaited healthy => cases flag
      | fail answer readings reservation rest timeoutS pc settled awaited faulty => cases flag
      | abort reservation rest timeoutS pc settled awaited => cases flag
      | pass wakeup pc settled elsewhere =>
        rw [← own] at flag
        refine stays ?_ flag
        rintro _ ⟨reservation,timeoutS,inside⟩
        exact elsewhere _ _ _ inside
    · rw [woken.breakers,Function.update_of_ne own] at flag
      exact stays (fun same => absurd same.symm own) flag

/-- In every run from breakers with a free slot: a slot that is taken is held by a call that
was granted the probe and is inside its primary attempt; so a breaker past its recovery time
admits the next call when no call is inside a primary attempt behind it. -/
theorem probe_never_wedged (breakers : Nat → CircuitBreaker)
    (free : ∀ b, (breakers b).probeInFlight = false) (events : List Event) (last : System)
    (ran : run (System.step limiter) (System.start breakers) events = some last) :
    (∀ b, (last.breakers b).probeInFlight = true →
      ∃ c, Probing (history (System.step limiter) (System.start breakers) events) last b c) ∧
    ∀ b now, (last.breakers b).state now = .halfOpen → (∀ c, ¬Inside b c last) →
      ((last.breakers b).allowsRequest now).1 = true := by
  have start : Tracked [] (System.start breakers) ∧ Held [] (System.start breakers) := by
    refine ⟨.start breakers,fun b flag => ?_⟩
    rw [System.start,free b] at flag
    cases flag
  have reached := along_invariant
    (fun past s => Tracked past s ∧ Held past s)
    (fun past s e next _ holds stepped =>
      ⟨holds.1.step limiter stepped,Held.step limiter holds.1 holds.2 stepped⟩)
    (along_events (fun _ _ _ _ => trivial) [] (System.start breakers)) start ran
  have held : Held (history (System.step limiter) (System.start breakers) events) last := reached.2
  refine ⟨held,fun b now halfOpen outside => ?_⟩
  obtain ⟨shut,_⟩ | ⟨shut,_⟩ | ⟨_,flag,_⟩ | ⟨_,_,answer⟩ := (last.breakers b).allowsRequest_cases now
  · cases shut.symm.trans halfOpen
  · cases shut.symm.trans halfOpen
  · obtain ⟨c,_,inside⟩ := held b flag
    exact absurd inside (outside c)
  · rw [answer]

/-- Attempts may outlast the recovery time of the breakers below. -/
def slowRouter : ModelRouter := ⟨⟨0,lit "primary"⟩,⟨1,lit "secondary"⟩,60,none,0⟩

/-- `Admitted`, computed: the reading of the admission. -/
def admission (b c : Nat) (x : System × Event) : Option ℚ :=
  match x.2 with
  | .wake c' (.finished readings) =>
    let admits := c' == c && (x.1.calls[c]?).any fun call =>
      match call.pc with
      | .reserve (some (.ok _)) =>
        call.router.breaker == b && ((x.1.breakers b).allowsRequest readings.breaker).1
      | _ => false
    if admits then some readings.breaker else none
  | _ => none

theorem admission_admitted {b c : Nat} {now : ℚ} {x : System × Event}
    (found : admission b c x = some now) : Admitted b c now x := by
  obtain ⟨s,event⟩ := x
  unfold admission at found
  split at found
  next c' readings same =>
    cases same
    dsimp only at found
    split_ifs at found with admits
    rw [Option.some.injEq] at found
    subst now
    rw [Bool.and_eq_true,beq_iff_eq,Option.any_eq_true_iff_get] at admits
    obtain ⟨rfl,known,admits⟩ := admits
    split at admits
    next reservation awaited =>
      rw [Bool.and_eq_true,beq_iff_eq] at admits
      exact ⟨_,reservation,readings,rfl,rfl,Option.eq_some_of_isSome known,admits.1,awaited,admits.2⟩
    next => cases admits
  next => cases found

/-- `Probes`, computed. -/
def grants (b c : Nat) (x : System × Event) : Bool :=
  (admission b c x).any fun now => (x.1.breakers b).state now == .halfOpen

theorem grants_probes {b c : Nat} {x : System × Event} (granted : grants b c x = true) :
    Probes b c x := by
  obtain ⟨now,found,halfOpen⟩ := (Option.any_eq_true _ _).mp granted
  exact ⟨now,admission_admitted found,beq_iff_eq.mp halfOpen⟩

/-- `Inside`, computed. -/
def insides (b c : Nat) (s : System) : Bool :=
  (s.calls[c]?).any fun call =>
    match call.pc with
    | .attempt _ provider rest _ =>
      call.router.breaker == b && provider == call.router.primary && rest == [call.router.secondary]
    | _ => false

theorem insides_inside {b c : Nat} {s : System} (stands : insides b c s = true) : Inside b c s := by
  unfold insides at stands
  rw [Option.any_eq_true_iff_get] at stands
  obtain ⟨found,stands⟩ := stands
  split at stands
  next reservation provider rest timeoutS awaited =>
    simp only [Bool.and_eq_true,beq_iff_eq] at stands
    obtain ⟨⟨own,rfl⟩,rfl⟩ := stands
    exact ⟨_,Option.eq_some_of_isSome found,own,reservation,timeoutS,awaited⟩
  next => cases stands

theorem probing_computed {past : List (System × Event)} {s : System} {b c : Nat}
    (granted : past.any (grants b c) = true) (stands : insides b c s = true) :
    Probing past s b c := by
  obtain ⟨x,member,here⟩ := List.any_eq_true.mp granted
  exact ⟨⟨x,member,grants_probes here⟩,insides_inside stands⟩

/-- Breaker 0 has been open since its clock read 0; the call comes when it reads 30. -/
def probeRun : List Event :=
  [.route slowRouter (lit "tenant-a") (lit "hello") 256 (lit "r1") 0 0,.transaction 0,
    .wake 0 (.finished ⟨30,0,0⟩)]

theorem probe_never_wedged_probe :
    ∃ last, run (System.step ⟨50000,60⟩) (System.start fun _ => ⟨1,30,1,some 0,false⟩) probeRun =
        some last ∧ (last.breakers 0).probeInFlight = true ∧
      ∃ c, Probing (history (System.step ⟨50000,60⟩) (System.start fun _ => ⟨1,30,1,some 0,false⟩)
        probeRun) last 0 c := by
  have taken : ((run (System.step ⟨50000,60⟩) (System.start fun _ => ⟨1,30,1,some 0,false⟩)
      probeRun).map fun last => (last.breakers 0).probeInFlight) = some true := by decide +kernel
  obtain ⟨last,ran,flag⟩ := Option.map_eq_some_iff.mp taken
  exact ⟨last,ran,flag,(probe_never_wedged _ _ (fun _ => rfl) probeRun last ran).1 0 flag⟩

/-- The stretch tells the breaker that something ended: it leaves an attempt at the primary,
or it has no time for a secondary that is the primary too. -/
def Call.Signals (call : Call) (wakeup : Wakeup) : Prop :=
  (∃ reservation rest timeoutS,
    call.pc = .attempt reservation call.router.primary rest timeoutS) ∨
  call.router.secondary = call.router.primary ∧ ∃ readings reservation,
    wakeup = .finished readings ∧ call.pc = .reserve (some (.ok reservation)) ∧
      call.remainingBudget readings.budget ≤ 0

/-- While a probe is under way, no other call signals the end of an attempt. -/
def Undisturbed (past : List (System × Event)) (s : System) (event : Event) : Prop :=
  ∀ c wakeup call, event = .wake c wakeup → s.calls[c]? = some call → call.Signals wakeup →
    ∀ c', Probing past s call.router.breaker c' → c' = c

/-- A call that is probing holds the slot of a breaker that has opened, and no other does. -/
def Sole (past : List (System × Event)) (s : System) : Prop :=
  ∀ b c, Probing past s b c → (s.breakers b).probeInFlight = true ∧
    (s.breakers b).openedAt ≠ none ∧ ∀ c', Probing past s b c' → c' = c

/-- Beside a probe, a stretch of another call leaves the breaker as it is. -/
theorem kept_apart {past : List (System × Event)} {s next : System} {b c c₀ : Nat}
    {wakeup : Wakeup} {call moved : Call} {after : CircuitBreaker}
    (undisturbed : Undisturbed past s (.wake c₀ wakeup))
    (woken : Woken s c₀ wakeup next call moved after) (own : b = call.router.breaker)
    (distinct : c ≠ c₀) (probing : Probing past s b c) (flag : (s.breakers b).probeInFlight = true)
    (opened : (s.breakers b).openedAt ≠ none) : after = s.breakers b := by
  subst b
  have quiet : ¬call.Signals wakeup := by
    intro signals
    exact distinct (undisturbed c₀ wakeup call rfl woken.known signals c probing)
  have refuses (now : ℚ) : ((s.breakers call.router.breaker).allowsRequest now).1 = false := by
    obtain ⟨_,shut,_⟩ | ⟨_,answer⟩ | ⟨_,_,answer⟩ | ⟨_,free,_⟩ :=
      (s.breakers call.router.breaker).allowsRequest_cases now
    · exact absurd shut opened
    · rw [answer]
    · rw [answer]
    · cases flag.symm.trans free
  have handles := woken.handles
  generalize moved.pc = pc at handles
  cases handles with
  | dial readings reservation timeoutS awaited allowed =>
    cases allowed.symm.trans (refuses readings.breaker)
  | expire readings reservation pc settled awaited allowed =>
    cases allowed.symm.trans (refuses readings.breaker)
  | refuse readings reservation pc settled awaited refused => rfl
  | refuseExpired readings reservation pc settled awaited same expired refused =>
    exact absurd (Or.inr ⟨same,readings,reservation,rfl,awaited,expired⟩) quiet
  | succeed answer readings reservation rest timeoutS pc settled awaited healthy =>
    exact absurd (Or.inl ⟨reservation,rest,timeoutS,awaited⟩) quiet
  | fail answer readings reservation rest timeoutS pc settled awaited faulty =>
    exact absurd (Or.inl ⟨reservation,rest,timeoutS,awaited⟩) quiet
  | abort reservation rest timeoutS pc settled awaited =>
    exact absurd (Or.inl ⟨reservation,rest,timeoutS,awaited⟩) quiet
  | pass wakeup pc settled elsewhere => rfl

theorem Sole.step {past : List (System × Event)} {s next : System} {event : Event}
    (undisturbed : Undisturbed past s event) (tracked : Tracked past s) (sole : Sole past s)
    (stepped : s.step limiter event = some next) : Sole (past ++ [(s,event)]) next := by
  by_cases idle : ∀ c wakeup, event ≠ .wake c wakeup
  · intro b c probing
    rw [probing_other limiter stepped (idle c)] at probing
    obtain ⟨flag,opened,only⟩ := sole b c probing
    rw [step_breakers limiter stepped idle]
    exact ⟨flag,opened,fun c' other => only c' ((probing_other limiter stepped (idle c')).mp other)⟩
  · push Not at idle
    obtain ⟨c₀,wakeup,rfl⟩ := idle
    obtain ⟨call,moved,after,woken⟩ := step_woken limiter tracked.shaped stepped
    have others {b c : Nat} (distinct : c ≠ c₀) :
        Probing (past ++ [(s,.wake c₀ wakeup)]) next b c ↔ Probing past s b c := by
      apply probing_other limiter stepped
      rintro wakeup' same
      cases same
      exact distinct rfl
    intro b
    by_cases own : b = call.router.breaker
    · have held : next.breakers b = after := by rw [woken.breakers,own,Function.update_self]
      rw [held]
      have granted (probing : Probing (past ++ [(s,.wake c₀ wakeup)]) next b c₀) :
          after.probeInFlight = true ∧ after.openedAt ≠ none ∧ (s.breakers b).probeInFlight = false := by
        obtain ⟨_,readings,_,halfOpen,free,rfl⟩ := probing_woken tracked woken probing
        obtain ⟨opened,here,_⟩ := CircuitBreaker.halfOpen_opened halfOpen
        exact ⟨rfl,by simp [here],free⟩
      intro c probing
      by_cases distinct : c = c₀
      · subst c
        obtain ⟨flag,opened,free⟩ := granted probing
        refine ⟨flag,opened,fun c' other => ?_⟩
        by_contra different
        have taken := (sole b c' ((others different).mp other)).1
        rw [free] at taken
        cases taken
      · have before := (others distinct).mp probing
        obtain ⟨flag,opened,only⟩ := sole b c before
        rw [kept_apart undisturbed woken own distinct before flag opened]
        refine ⟨flag,opened,fun c' other => ?_⟩
        by_cases different : c' = c₀
        · subst c'
          rw [(granted other).2.2] at flag
          cases flag
        · exact only c' ((others different).mp other)
    · have held : next.breakers b = s.breakers b := by
        rw [woken.breakers,Function.update_of_ne own]
      have elsewhere {c : Nat} (probing : Probing (past ++ [(s,.wake c₀ wakeup)]) next b c) :
          c ≠ c₀ := by
        rintro rfl
        exact own (probing_woken tracked woken probing).1
      intro c probing
      obtain ⟨flag,opened,only⟩ := sole b c ((others (elsewhere probing)).mp probing)
      rw [held]
      exact ⟨flag,opened,fun c' other => only c' ((others (elsewhere other)).mp other)⟩

/-- In every run in which no attempt ends beside a probe: at most one call that was admitted as
a half-open probe is inside its primary attempt. -/
theorem one_probe_at_a_time (breakers : Nat → CircuitBreaker) (events : List Event) (last : System)
    (ran : run (System.step limiter) (System.start breakers) events = some last)
    (undisturbed : Along Undisturbed (System.step limiter) [] (System.start breakers) events) :
    ∀ b c c', Probing (history (System.step limiter) (System.start breakers) events) last b c →
      Probing (history (System.step limiter) (System.start breakers) events) last b c' → c = c' := by
  have start : Tracked [] (System.start breakers) ∧ Sole [] (System.start breakers) := by
    refine ⟨.start breakers,?_⟩
    rintro b c ⟨⟨x,member,_⟩,_⟩
    cases member
  have reached := along_invariant
    (fun past s => Tracked past s ∧ Sole past s)
    (fun past s e next met holds stepped =>
      ⟨holds.1.step limiter stepped,Sole.step limiter met holds.1 holds.2 stepped⟩)
    undisturbed start ran
  have sole : Sole (history (System.step limiter) (System.start breakers) events) last := reached.2
  intro b c c' probing other
  exact (sole b c' other).2.2 c probing

theorem one_probe_at_a_time_probe :
    ∃ last, run (System.step ⟨50000,60⟩) (System.start fun _ => ⟨1,30,1,some 0,false⟩) probeRun =
        some last ∧
      ∀ b c c', Probing (history (System.step ⟨50000,60⟩)
          (System.start fun _ => ⟨1,30,1,some 0,false⟩) probeRun) last b c →
        Probing (history (System.step ⟨50000,60⟩)
          (System.start fun _ => ⟨1,30,1,some 0,false⟩) probeRun) last b c' → c = c' := by
  have ends : (run (System.step ⟨50000,60⟩) (System.start fun _ => ⟨1,30,1,some 0,false⟩)
      probeRun).isSome = true := by decide +kernel
  obtain ⟨last,ran⟩ := Option.isSome_iff_exists.mp ends
  refine ⟨last,ran,one_probe_at_a_time _ _ probeRun last ran ?_⟩
  refine ⟨by simp [Undisturbed],fun _ _ => ⟨by simp [Undisturbed],fun _ _ => ⟨?_,fun _ _ => trivial⟩⟩⟩
  -- nothing was granted before the only wake-up
  rintro c wakeup call _ _ _ c' ⟨⟨x,member,now,⟨_,_,_,woken,_⟩,_⟩,_⟩
  simp only [List.nil_append,List.mem_append,List.mem_singleton] at member
  rcases member with rfl | rfl <;> cases woken

/-- Calls 0 and 1 are admitted while the breaker is closed, and call 0 opens it. Call 2 is the
probe; call 1 is cancelled, and call 3 is a probe too. -/
def staleRun : List Event :=
  [.route slowRouter (lit "tenant-a") (lit "hello") 256 (lit "r1") 0 0,
    .route slowRouter (lit "tenant-a") (lit "hello") 256 (lit "r2") 0 0,
    .route slowRouter (lit "tenant-a") (lit "hello") 256 (lit "r3") 31 31,
    .route slowRouter (lit "tenant-a") (lit "hello") 256 (lit "r4") 31 31,
    .transaction 0,.transaction 0,.transaction 0,.transaction 0,
    .wake 0 (.finished ⟨0,0,0⟩),.wake 1 (.finished ⟨0,0,0⟩),.wake 0 (.answered .timeout ⟨1,1,1⟩),
    .wake 2 (.finished ⟨31,31,0⟩),.wake 1 .cancelled,.wake 3 (.finished ⟨31,31,0⟩)]

theorem stale_end_frees_slot :
    ¬∀ (limiter : SlidingWindowRateLimiter) (breakers : Nat → CircuitBreaker) (events : List Event)
      (last : System), (∀ b, 1 ≤ (breakers b).failureThreshold) →
      (∀ b, (breakers b).probeInFlight = false) →
      run (System.step limiter) (System.start breakers) events = some last → ∀ b c c',
      Probing (history (System.step limiter) (System.start breakers) events) last b c →
      Probing (history (System.step limiter) (System.start breakers) events) last b c' → c = c' := by
  intro every
  let step := System.step ⟨50000,60⟩
  let start := System.start fun _ => ⟨1,30,0,none,false⟩
  have both : ((run step start staleRun).map fun last => insides 0 2 last && insides 0 3 last) =
      some true := by decide +kernel
  have granted : (history step start staleRun).any (grants 0 2) = true ∧
      (history step start staleRun).any (grants 0 3) = true := by decide +kernel
  obtain ⟨last,ran,stand⟩ := Option.map_eq_some_iff.mp both
  rw [Bool.and_eq_true] at stand
  have same := every _ _ staleRun last (fun _ => le_rfl) (fun _ => rfl) ran 0 2 3
    (probing_computed granted.1 stand.1) (probing_computed granted.2 stand.2)
  cases same

end GatewaySuite.Router
