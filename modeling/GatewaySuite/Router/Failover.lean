import GatewaySuite.Router.Coherence

/-! What a call tells of its attempts. The candidates are tried in their order, each at most
once and only after the ones before it failed in a way worth failing over, and the end of the
call is read off the records. -/
namespace GatewaySuite.Router
open Python Limiter Lib

def AttemptOutcome.passes : AttemptOutcome → Bool
  | .timeout => true
  | .retryableError => true
  | .circuitOpen => true
  | _ => false

def AttemptOutcome.late (outcome : AttemptOutcome) : Bool :=
  outcome == .timeout || outcome == .deadlineExhausted

/-- The walk over the candidates: what is recorded, who was dialled, and who is left. -/
inductive Passed (router : ModelRouter) :
    List AttemptRecord → List Provider → List Provider → Prop
  | start : Passed router [] [] [router.primary,router.secondary]
  | skipped (record : AttemptRecord) (named : record.provider = router.primary.name)
      (outcome : record.outcome = .circuitOpen) : Passed router [record] [] [router.secondary]
  | failed (attempts : List AttemptRecord) (dialled : List Provider) (record : AttemptRecord)
      (provider : Provider) (rest : List Provider)
      (before : Passed router attempts dialled (provider::rest))
      (named : record.provider = provider.name)
      (outcome : record.outcome = .timeout ∨ record.outcome = .retryableError) :
      Passed router (attempts ++ [record]) (dialled ++ [provider]) rest

/-- The walk ended at a candidate, with that outcome. -/
def Stopped (router : ModelRouter) (attempts : List AttemptRecord) (dialled : List Provider)
    (outcome : AttemptOutcome) : Prop :=
  ∃ front before provider rest record, Passed router front before (provider::rest) ∧
    attempts = front ++ [record] ∧ record.provider = provider.name ∧ record.outcome = outcome ∧
    dialled = if outcome = .deadlineExhausted then before else before ++ [provider]

def Dialling (router : ModelRouter) (attempts : List AttemptRecord) (dialled : List Provider)
    (provider : Provider) (rest : List Provider) : Prop :=
  ∃ before, Passed router attempts before (provider::rest) ∧ dialled = before ++ [provider]

def Exhausted (router : ModelRouter) (attempts : List AttemptRecord) (dialled : List Provider) :
    Prop :=
  Passed router attempts dialled [] ∨ Stopped router attempts dialled .deadlineExhausted

def Walked (router : ModelRouter) (attempts : List AttemptRecord) (dialled : List Provider) : Prop :=
  (∃ candidates, Passed router attempts dialled candidates) ∨
  (∃ outcome, Stopped router attempts dialled outcome) ∨
  ∃ provider rest, Dialling router attempts dialled provider rest

/-- A result changes what a call awaits only by being there. -/
theorem deliver_cases (pc : Pc) (finished : Finished) :
    pc.deliver finished = pc ∨
    (∃ result, pc = .reserve none ∧ pc.deliver finished = .reserve (some result)) ∨
    (∃ reservation completion, pc = .commit reservation completion false ∧
      pc.deliver finished = .commit reservation completion true) ∨
    ∃ reservation exn, pc = .release reservation exn false ∧
      pc.deliver finished = .release reservation exn true := by
  unfold Pc.deliver
  split
  next result => exact Or.inr (Or.inl ⟨result,rfl,rfl⟩)
  next reservation completion => exact Or.inr (Or.inr (Or.inl ⟨reservation,completion,rfl,rfl⟩))
  next reservation exn => exact Or.inr (Or.inr (Or.inr ⟨reservation,exn,rfl,rfl⟩))
  next => exact Or.inl rfl

namespace Call

def Explains (call : Call) (error : GatewayError) : Prop :=
  error.requestId = call.requestId ∧ error.metadata = publicAttemptSummary call.attempts ∧
  ((error.code = .upstreamError ∧ Stopped call.router call.attempts call.dialled .clientError) ∨
    (error.code = if call.attempts.all fun record => record.outcome.late then .upstreamTimeout
        else .allProvidersFailed) ∧ Exhausted call.router call.attempts call.dialled)

def Raises (call : Call) : Exn → Prop
  | .gateway error => call.Explains error
  | .valueError => False
  | .cancelled => Walked call.router call.attempts call.dialled

def Trail (call : Call) : Prop :=
  match call.pc with
  | .reserve _ => call.attempts = [] ∧ call.dialled = []
  | .attempt _ provider rest timeoutS =>
    Dialling call.router call.attempts call.dialled provider rest ∧
      timeoutS ≤ call.router.attemptTimeoutS
  | .commit _ _ _ => Stopped call.router call.attempts call.dialled .success
  | .release _ exn _ => call.Raises exn
  | .ended (.refused _) => call.attempts = [] ∧ call.dialled = []
  | .ended (.returned response) =>
    Stopped call.router call.attempts call.dialled .success ∧
      response.attempts = call.attempts ∧ response.requestId = call.requestId
  | .ended (.failed exn) => call.Raises exn

theorem raises_walked {call : Call} {exn : Exn} (raises : call.Raises exn) :
    Walked call.router call.attempts call.dialled := by
  cases exn with
  | gateway error =>
    obtain ⟨_,_,⟨_,stopped⟩ | ⟨_,passed | stopped⟩⟩ := raises
    · exact Or.inr (Or.inl ⟨_,stopped⟩)
    · exact Or.inl ⟨_,passed⟩
    · exact Or.inr (Or.inl ⟨_,stopped⟩)
  | valueError => cases raises
  | cancelled => exact raises

theorem allFailed_explains {call : Call} (reservation : Reservation)
    (exhausted : Exhausted call.router call.attempts call.dialled) :
    (call.allFailed reservation).Trail :=
  ⟨rfl,rfl,Or.inr ⟨rfl,exhausted⟩⟩

theorem tryNext_trail {call : Call} {candidates : List Provider} (reservation : Reservation)
    (breaker : CircuitBreaker) (readings : Readings)
    (passed : Passed call.router call.attempts call.dialled candidates) :
    (call.tryNext reservation breaker candidates readings).1.Trail := by
  cases candidates with
  | nil => exact allFailed_explains reservation (Or.inl passed)
  | cons provider rest =>
    by_cases expired : call.remainingBudget readings.budget ≤ 0
    · simp only [tryNext,expired,if_true]
      apply allFailed_explains
      exact Or.inr ⟨_,_,provider,rest,_,passed,rfl,rfl,rfl,rfl⟩
    · simp only [tryNext,expired,if_false]
      exact ⟨⟨_,passed,rfl⟩,min_le_left _ _⟩

theorem afterReserve_trail {call : Call} (result : Except ReserveError Reservation)
    (breaker : CircuitBreaker) (readings : Readings) (trail : call.Trail)
    (awaited : call.pc = .reserve (some result)) :
    (call.afterReserve result breaker readings).1.Trail := by
  simp only [Trail,awaited] at trail
  obtain ⟨untried,undialled⟩ := trail
  match result with
  | .error .ValueError => exact ⟨untried,undialled⟩
  | .error (.exceeded exc) => exact ⟨untried,undialled⟩
  | .ok reservation =>
    unfold afterReserve
    dsimp only
    split_ifs
    · apply tryNext_trail
      rw [untried,undialled]
      exact Passed.start
    · apply tryNext_trail
      dsimp only
      rw [untried,undialled]
      exact Passed.skipped _ rfl rfl

theorem afterAttempt_trail {call : Call} {reservation : Reservation} {provider : Provider}
    {rest : List Provider} {timeoutS : ℚ} (answer : Answer) (breaker : CircuitBreaker)
    (readings : Readings) (trail : call.Trail)
    (awaited : call.pc = .attempt reservation provider rest timeoutS) :
    (call.afterAttempt reservation provider rest answer breaker readings).1.Trail := by
  simp only [Trail,awaited] at trail
  obtain ⟨⟨before,passed,dialled⟩,_⟩ := trail
  cases answer with
  | completed completion =>
    exact ⟨_,before,provider,rest,_,passed,rfl,rfl,rfl,dialled⟩
  | timeout =>
    apply tryNext_trail
    dsimp only
    rw [dialled]
    exact Passed.failed _ _ _ _ _ passed rfl (Or.inl rfl)
  | unexpected message =>
    apply tryNext_trail
    dsimp only
    rw [dialled]
    exact Passed.failed _ _ _ _ _ passed rfl (Or.inr rfl)
  | providerError error =>
    cases retryable : error.isRetryable with
    | true =>
      simp only [afterAttempt,attemptRecord,retryable,if_true,reduceCtorEq,if_false]
      apply tryNext_trail
      dsimp only
      rw [dialled]
      exact Passed.failed _ _ _ _ _ passed rfl (Or.inr rfl)
    | false =>
      simp only [afterAttempt,attemptRecord,retryable,Bool.false_eq_true,if_false,if_true]
      exact ⟨rfl,rfl,Or.inl ⟨rfl,_,before,provider,rest,_,passed,rfl,rfl,rfl,dialled⟩⟩

theorem wakes_trail {call : Call} {breaker : CircuitBreaker} {wakeup : Wakeup}
    {moved : Call × CircuitBreaker} (wakes : call.Wakes breaker wakeup moved) (trail : call.Trail) :
    moved.1.Trail := by
  cases wakes with
  | reserved result readings awaited => exact afterReserve_trail result breaker readings trail awaited
  | answered reservation provider rest timeoutS answer readings awaited =>
    exact afterAttempt_trail answer breaker readings trail awaited
  | committed reservation completion readings awaited =>
    simp only [Trail,awaited] at trail
    exact ⟨trail,rfl,rfl⟩
  | released reservation exn readings awaited =>
    simp only [Trail,awaited] at trail
    exact trail
  | hungUp result awaited =>
    simp only [Trail,awaited] at trail
    exact trail
  | aborted reservation provider rest timeoutS awaited =>
    simp only [Trail,awaited] at trail
    exact Or.inr (Or.inr ⟨provider,rest,trail.1⟩)
  | uncommitted reservation completion done awaited =>
    simp only [Trail,awaited] at trail
    exact Or.inr (Or.inl ⟨_,trail⟩)
  | abandoned reservation exn done awaited =>
    simp only [Trail,awaited] at trail
    exact raises_walked trail

theorem deliver_trail {call : Call} (finished : Finished) (trail : call.Trail) :
    ({call with pc := call.pc.deliver finished} : Call).Trail := by
  obtain same | ⟨result,awaited,same⟩ | ⟨reservation,completion,awaited,same⟩ |
    ⟨reservation,exn,awaited,same⟩ := deliver_cases call.pc finished
  · rw [same]
    exact trail
  · rw [same]
    simp only [Trail,awaited] at trail
    exact trail
  · rw [same]
    simp only [Trail,awaited] at trail
    exact trail
  · rw [same]
    simp only [Trail,awaited] at trail
    exact trail

end Call

variable (limiter : SlidingWindowRateLimiter)

/-- Where a call of the next state comes from: it has just been routed, it waits as before, a
transaction of it has run, or it has taken a stretch of its code. -/
theorem step_moved {s next : System} {event : Event} {c : Nat} {call : Call}
    (stepped : s.step limiter event = some next) (known : next.calls[c]? = some call) :
    (∃ router apiKey prompt maxTokens requestId started reservedAt,
      call = Call.enter router apiKey prompt maxTokens requestId started reservedAt) ∨
    ∃ previous, s.calls[c]? = some previous ∧
      (call = previous ∨
        (∃ (i : Nat) (job : Job), s.jobs[i]? = some job ∧ job.call = c ∧ call = {previous with
          pc := previous.pc.deliver (perform limiter s.books job.call job.work).1}) ∨
        ∃ wakeup after, event = .wake c wakeup ∧
          previous.Wakes (s.breakers previous.router.breaker) wakeup (call,after)) := by
  cases event with
  | route router apiKey prompt maxTokens requestId started reservedAt =>
    cases stepped
    by_cases old : c < s.calls.length
    · rw [List.getElem?_append_left old] at known
      exact Or.inr ⟨call,known,Or.inl rfl⟩
    · rw [List.getElem?_append_right (not_lt.mp old)] at known
      obtain ⟨_,same⟩ := List.getElem?_eq_some_iff.mp known
      rw [List.getElem_singleton] at same
      exact Or.inl ⟨router,apiKey,prompt,maxTokens,requestId,started,reservedAt,same.symm⟩
  | transaction i =>
    obtain ⟨job,listed,rfl⟩ := Option.map_eq_some_iff.mp stepped
    by_cases own : job.call = c
    · subst c
      simp only [List.getElem?_modify_eq] at known
      obtain ⟨previous,old,rfl⟩ := Option.map_eq_some_iff.mp known
      exact Or.inr ⟨previous,old,Or.inr (Or.inl ⟨i,job,listed,rfl,rfl⟩)⟩
    · simp only [List.getElem?_modify_ne _ _ own] at known
      exact Or.inr ⟨call,known,Or.inl rfl⟩
  | wake c' wakeup =>
    obtain ⟨woken,old,moves⟩ := Option.bind_eq_some_iff.mp stepped
    obtain ⟨moved,turned,rfl⟩ := Option.map_eq_some_iff.mp moves
    by_cases own : c' = c
    · subst c'
      obtain ⟨inside,_⟩ := List.getElem?_eq_some_iff.mp old
      simp only [System.put,List.getElem?_set_self inside] at known
      cases known
      exact Or.inr ⟨woken,old,Or.inr (Or.inr ⟨wakeup,moved.2,rfl,Call.wake_cases turned⟩)⟩
    · simp only [System.put,List.getElem?_set_ne own] at known
      exact Or.inr ⟨call,known,Or.inl rfl⟩

theorem step_trail {s next : System} {event : Event}
    (trails : ∀ (c : Nat) call, s.calls[c]? = some call → call.Trail)
    (stepped : s.step limiter event = some next) (c : Nat) (call : Call)
    (known : next.calls[c]? = some call) : call.Trail := by
  obtain ⟨_,_,_,_,_,_,_,rfl⟩ | ⟨previous,old,rfl | ⟨_,_,_,_,rfl⟩ | ⟨wakeup,after,_,wakes⟩⟩ :=
    step_moved limiter stepped known
  · exact ⟨rfl,rfl⟩
  · exact trails c call old
  · exact Call.deliver_trail _ (trails c previous old)
  · exact Call.wakes_trail wakes (trails c previous old)

theorem run_trail {breakers : Nat → CircuitBreaker} {events : List Event} {last : System}
    (ran : run (System.step limiter) (System.start breakers) events = some last) :
    ∀ (c : Nat) call, last.calls[c]? = some call → call.Trail :=
  run_invariant (fun _ _ _ trails stepped => step_trail limiter trails stepped)
    (by simp [System.start]) ran

/-- Where the walk can be, with at most two candidates. -/
theorem passed_cases {router : ModelRouter} {attempts : List AttemptRecord}
    {dialled candidates : List Provider} (passed : Passed router attempts dialled candidates) :
    (attempts = [] ∧ dialled = [] ∧ candidates = [router.primary,router.secondary]) ∨
    (∃ first, attempts = [first] ∧ first.provider = router.primary.name ∧
      first.outcome.passes = true ∧ (dialled = [] ∨ dialled = [router.primary]) ∧
      candidates = [router.secondary]) ∨
    ∃ first second, attempts = [first,second] ∧ first.provider = router.primary.name ∧
      first.outcome.passes = true ∧ second.provider = router.secondary.name ∧
      (second.outcome = .timeout ∨ second.outcome = .retryableError) ∧
      (dialled = [router.secondary] ∨ dialled = [router.primary,router.secondary]) ∧
      candidates = [] := by
  induction passed with
  | start => exact Or.inl ⟨rfl,rfl,rfl⟩
  | skipped record named outcome =>
    exact Or.inr (Or.inl ⟨record,rfl,named,by rw [outcome]; rfl,Or.inl rfl,rfl⟩)
  | failed attempts dialled record provider rest before named outcome ih =>
    have worth : record.outcome.passes = true := by
      obtain timeout | retryable := outcome
      · rw [timeout]
        rfl
      · rw [retryable]
        rfl
    obtain ⟨rfl,rfl,left⟩ | ⟨first,rfl,primary,passes,dials,left⟩ | ⟨_,_,_,_,_,_,_,_,left⟩ := ih
    · cases left
      exact Or.inr (Or.inl ⟨record,rfl,named,worth,Or.inr rfl,rfl⟩)
    · cases left
      refine Or.inr (Or.inr ⟨first,record,rfl,primary,passes,named,outcome,?_,rfl⟩)
      obtain rfl | rfl := dials
      · exact Or.inl rfl
      · exact Or.inr rfl
    · cases left

/-- The candidates in their order, each at most once, and none after one that does not pass. -/
structure Ordered (router : ModelRouter) (attempts : List AttemptRecord) (dialled : List Provider) :
    Prop where
  tried : attempts.map AttemptRecord.provider <+: [router.primary.name,router.secondary.name]
  passes : ∀ record ∈ attempts.dropLast, record.outcome.passes = true
  dialled : dialled.Sublist [router.primary,router.secondary]

/-- One more candidate after a walk that has one left. -/
theorem passed_ordered {router : ModelRouter} {attempts : List AttemptRecord}
    {before : List Provider} {provider : Provider} {rest : List Provider}
    (passed : Passed router attempts before (provider::rest)) :
    Ordered router attempts (before ++ [provider]) ∧ Ordered router attempts before ∧
      ∀ record : AttemptRecord, record.provider = provider.name →
        Ordered router (attempts ++ [record]) (before ++ [provider]) ∧
          Ordered router (attempts ++ [record]) before := by
  obtain ⟨rfl,rfl,left⟩ | ⟨first,rfl,primary,passes,dials,left⟩ | ⟨_,_,_,_,_,_,_,_,left⟩ :=
    passed_cases passed
  · cases left
    refine ⟨⟨by simp,by simp,by simp⟩,⟨by simp,by simp,by simp⟩,fun record named => ?_⟩
    exact ⟨⟨by simp [named],by simp,by simp⟩,⟨by simp [named],by simp,by simp⟩⟩
  · cases left
    obtain rfl | rfl := dials
    · refine ⟨⟨by simp [primary],by simp,by simp⟩,⟨by simp [primary],by simp,by simp⟩,
        fun record named => ?_⟩
      exact ⟨⟨by simp [primary,named],by simp [passes],by simp⟩,
        ⟨by simp [primary,named],by simp [passes],by simp⟩⟩
    · refine ⟨⟨by simp [primary],by simp,by simp⟩,⟨by simp [primary],by simp,by simp⟩,
        fun record named => ?_⟩
      exact ⟨⟨by simp [primary,named],by simp [passes],by simp⟩,
        ⟨by simp [primary,named],by simp [passes],by simp⟩⟩
  · cases left

theorem walked_ordered {router : ModelRouter} {attempts : List AttemptRecord}
    {dialled : List Provider} (walked : Walked router attempts dialled) :
    Ordered router attempts dialled := by
  obtain ⟨candidates,passed⟩ | ⟨outcome,front,before,provider,rest,record,passed,rfl,named,_,rfl⟩ |
    ⟨provider,rest,before,passed,rfl⟩ := walked
  · cases candidates with
    | cons provider rest => exact (passed_ordered passed).2.1
    | nil =>
      obtain ⟨_,_,left⟩ | ⟨_,_,_,_,_,left⟩ | ⟨first,second,rfl,primary,passes,secondary,_,dials,_⟩ :=
        passed_cases passed
      · cases left
      · cases left
      · refine ⟨by simp [primary,secondary],by simp [passes],?_⟩
        obtain rfl | rfl := dials <;> simp
  · obtain ⟨_,_,more⟩ := passed_ordered passed
    split_ifs
    · exact (more record named).2
    · exact (more record named).1
  · exact (passed_ordered passed).1

theorem stopped_last {router : ModelRouter} {attempts : List AttemptRecord}
    {dialled : List Provider} {outcome : AttemptOutcome}
    (stopped : Stopped router attempts dialled outcome) :
    attempts.getLast?.map AttemptRecord.outcome = some outcome := by
  obtain ⟨_,_,_,_,record,_,rfl,_,same,_⟩ := stopped
  simp [same]

/-- How the end of a call follows from its records. -/
def Outcome.Explained (call : Call) : Outcome → Prop
  | .refused _ => call.attempts = [] ∧ call.dialled = []
  | .returned response =>
    response.attempts = call.attempts ∧ response.requestId = call.requestId ∧
      call.attempts.getLast?.map AttemptRecord.outcome = some .success
  | .failed .cancelled => True
  | .failed .valueError => False
  | .failed (.gateway error) =>
    error.requestId = call.requestId ∧ error.metadata = publicAttemptSummary call.attempts ∧
    match error.code with
    | .rateLimited => False
    | .upstreamError => call.attempts.getLast?.map AttemptRecord.outcome = some .clientError
    | .upstreamTimeout =>
      (call.attempts.length = 2 ∨
        call.attempts.getLast?.map AttemptRecord.outcome = some .deadlineExhausted) ∧
      ∀ record ∈ call.attempts, record.outcome = .timeout ∨ record.outcome = .deadlineExhausted
    | .allProvidersFailed =>
      (call.attempts.length = 2 ∨
        call.attempts.getLast?.map AttemptRecord.outcome = some .deadlineExhausted) ∧
      (∃ record ∈ call.attempts, record.outcome = .retryableError ∨ record.outcome = .circuitOpen) ∧
      ∀ record ∈ call.attempts, record.outcome ≠ .success ∧ record.outcome ≠ .clientError

theorem passed_passes {router : ModelRouter} {attempts : List AttemptRecord}
    {dialled candidates : List Provider} (passed : Passed router attempts dialled candidates) :
    ∀ record ∈ attempts, record.outcome.passes = true := by
  induction passed with
  | start => simp
  | skipped record named outcome => simp [outcome,AttemptOutcome.passes]
  | failed attempts dialled record provider rest before named outcome ih =>
    intro other member
    obtain old | new := List.mem_append.mp member
    · exact ih other old
    · rw [List.mem_singleton.mp new]
      obtain same | same := outcome <;> rw [same] <;> rfl

theorem exhausted_records {router : ModelRouter} {attempts : List AttemptRecord}
    {dialled : List Provider} (exhausted : Exhausted router attempts dialled) :
    (attempts.length = 2 ∨ attempts.getLast?.map AttemptRecord.outcome = some .deadlineExhausted) ∧
      ∀ record ∈ attempts, record.outcome.passes = true ∨ record.outcome = .deadlineExhausted := by
  obtain passed | stopped := exhausted
  · refine ⟨Or.inl ?_,fun record member => Or.inl (passed_passes passed record member)⟩
    obtain ⟨_,_,left⟩ | ⟨_,_,_,_,_,left⟩ | ⟨first,second,rfl,_⟩ := passed_cases passed
    · cases left
    · cases left
    · rfl
  · refine ⟨Or.inr (stopped_last stopped),?_⟩
    obtain ⟨front,_,_,_,record,passed,rfl,_,same,_⟩ := stopped
    intro other member
    obtain old | new := List.mem_append.mp member
    · exact Or.inl (passed_passes passed other old)
    · rw [List.mem_singleton.mp new]
      exact Or.inr same

theorem explains_explained {call : Call} {error : GatewayError} (explains : call.Explains error) :
    Outcome.Explained call (.failed (.gateway error)) := by
  obtain ⟨id,summary,⟨code,stopped⟩ | ⟨code,exhausted⟩⟩ := explains
  · refine ⟨id,summary,?_⟩
    rw [code]
    exact stopped_last stopped
  · obtain ⟨complete,records⟩ := exhausted_records exhausted
    refine ⟨id,summary,?_⟩
    cases late : call.attempts.all fun record => record.outcome.late with
    | true =>
      rw [late,if_pos rfl] at code
      rw [code]
      refine ⟨complete,fun record member => ?_⟩
      simpa [AttemptOutcome.late] using List.all_eq_true.mp late record member
    | false =>
      rw [late,if_neg Bool.false_ne_true] at code
      rw [code]
      refine ⟨complete,?_,fun record member => ?_⟩
      · obtain ⟨record,member,early⟩ := List.all_eq_false.mp late
        refine ⟨record,member,?_⟩
        obtain passes | gone := records record member
        · cases outcome : record.outcome <;>
            simp_all [AttemptOutcome.passes,AttemptOutcome.late]
        · rw [gone] at early
          exact absurd rfl early
      · obtain passes | gone := records record member
        · cases outcome : record.outcome <;> simp_all [AttemptOutcome.passes]
        · simp [gone]

theorem trail_explained {call : Call} {outcome : Outcome} (trail : call.Trail)
    (ended : call.pc = .ended outcome) : outcome.Explained call := by
  simp only [Call.Trail,ended] at trail
  cases outcome with
  | refused exn => exact trail
  | returned response => exact ⟨trail.2.1,trail.2.2,stopped_last trail.1⟩
  | failed exn =>
    cases exn with
    | gateway error => exact explains_explained trail
    | valueError => cases trail
    | cancelled => trivial

theorem trail_walked {call : Call} (trail : call.Trail) :
    Walked call.router call.attempts call.dialled := by
  have untried (none : call.attempts = [] ∧ call.dialled = []) :
      Walked call.router call.attempts call.dialled := by
    rw [none.1,none.2]
    exact Or.inl ⟨_,Passed.start⟩
  unfold Call.Trail at trail
  cases awaited : call.pc with
  | reserve result => exact untried (by rwa [awaited] at trail)
  | attempt reservation provider rest timeoutS =>
    rw [awaited] at trail
    exact Or.inr (Or.inr ⟨provider,rest,trail.1⟩)
  | commit reservation completion done =>
    rw [awaited] at trail
    exact Or.inr (Or.inl ⟨_,trail⟩)
  | release reservation exn done =>
    rw [awaited] at trail
    exact Call.raises_walked trail
  | ended outcome =>
    rw [awaited] at trail
    cases outcome with
    | refused exn => exact untried trail
    | returned response => exact Or.inr (Or.inl ⟨_,trail.1⟩)
    | failed exn => exact Call.raises_walked trail

/-- The primary is too slow, and the secondary answers. -/
def failoverRun : List Event :=
  [.route ⟨⟨0,lit "primary"⟩,⟨1,lit "secondary"⟩,3,none,0⟩ (lit "tenant-a") (lit "hello") 256
      (lit "r1") 0 0,.transaction 0,.wake 0 (.finished ⟨0,0,0⟩),.wake 0 (.answered .timeout ⟨3,3,3⟩),
    .wake 0 (.answered (.completed ⟨lit "hi",2,5,lit "secondary"⟩) ⟨4,4,1⟩),.transaction 0,
    .wake 0 (.finished ⟨4,4,0⟩)]

end GatewaySuite.Router
