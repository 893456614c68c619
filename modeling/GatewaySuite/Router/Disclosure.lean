import GatewaySuite.Router.Http
import GatewaySuite.Router.Turns

/-! Two runs whose providers have other names and say other things, but answer in kind: the
states stay alike, and a failed call looks the same to its client. -/
namespace GatewaySuite.Router
open Python Limiter Lib

/-- Routers that differ in their providers only. -/
structure ModelRouter.Alike (first second : ModelRouter) : Prop where
  attemptTimeoutS : first.attemptTimeoutS = second.attemptTimeoutS
  totalDeadlineS : first.totalDeadlineS = second.totalDeadlineS
  breaker : first.breaker = second.breaker
  shared : first.secondary = first.primary ↔ second.secondary = second.primary

/-- Answers of one kind; a `billed` completion costs the same in both. -/
inductive Answer.Alike (billed : Prop) : Answer → Answer → Prop
  | completed (first second : Completion)
      (same : billed → first.totalTokens = second.totalTokens) :
      Alike billed (.completed first) (.completed second)
  | timeout : Alike billed .timeout .timeout
  | providerError (first second : ProviderError) (same : first.isRetryable = second.isRetryable) :
      Alike billed (.providerError first) (.providerError second)
  | unexpected (first second : Str) : Alike billed (.unexpected first) (.unexpected second)

inductive Wakeup.Alike (billed : Prop) : Wakeup → Wakeup → Prop
  | finished (readings : Readings) : Alike billed (.finished readings) (.finished readings)
  | answered {first second : Answer} (alike : Answer.Alike billed first second)
      (readings : Readings) : Alike billed (.answered first readings) (.answered second readings)
  | cancelled : Alike billed .cancelled .cancelled

/-- The same moment of two runs. What the completions of the other calls cost is charged to
their tenants, so it is the same; those of call `c` are arbitrary. -/
inductive Event.Alike (c : Nat) : Event → Event → Prop
  | route {first second : ModelRouter} (alike : first.Alike second) (apiKey prompt : Str)
      (maxTokens : Int) (requestId : Str) (started reservedAt : ℚ) :
      Alike c (.route first apiKey prompt maxTokens requestId started reservedAt)
        (.route second apiKey prompt maxTokens requestId started reservedAt)
  | transaction (job : Nat) : Alike c (.transaction job) (.transaction job)
  | wake (call : Nat) {first second : Wakeup} (alike : Wakeup.Alike (call ≠ c) first second) :
      Alike c (.wake call first) (.wake call second)

/-- Exceptions that differ in their logged text only. -/
inductive Exn.Alike : Exn → Exn → Prop
  | gateway (code : GatewayErrorCode) (requestId : Str) (detail detail' : Detail)
      (metadata : Metadata) :
      Alike (.gateway ⟨code,requestId,detail,metadata⟩) (.gateway ⟨code,requestId,detail',metadata⟩)
  | valueError : Alike .valueError .valueError
  | cancelled : Alike .cancelled .cancelled

theorem exn_alike_handle (double : ℚ → UInt64) (xRequestId : Option Str) (fresh : Str)
    {first second : Exn} (alike : first.Alike second) :
    handle double xRequestId fresh first = handle double xRequestId fresh second := by
  cases alike <;> rfl

def Candidates (first second : ModelRouter) : List Provider → List Provider → Prop :=
  List.Forall₂ fun provider provider' => provider = first.primary ↔ provider' = second.primary

inductive Pc.Alike (first second : ModelRouter) : Pc → Pc → Prop
  | reserve (result : Option (Except ReserveError Reservation)) :
      Alike first second (.reserve result) (.reserve result)
  | attempt (reservation : Reservation) (timeoutS : ℚ) {provider provider' : Provider}
      {rest rest' : List Provider}
      (candidates : Candidates first second (provider::rest) (provider'::rest')) :
      Alike first second (.attempt reservation provider rest timeoutS)
        (.attempt reservation provider' rest' timeoutS)
  | commit (reservation : Reservation) {completion completion' : Completion}
      (same : completion.totalTokens = completion'.totalTokens) (done : Bool) :
      Alike first second (.commit reservation completion done)
        (.commit reservation completion' done)
  | release (reservation : Reservation) {exn exn' : Exn} (alike : exn.Alike exn') (done : Bool) :
      Alike first second (.release reservation exn done) (.release reservation exn' done)
  | returned (response response' : RoutedResponse) :
      Alike first second (.ended (.returned response)) (.ended (.returned response'))
  | refused {exn exn' : Exn} (alike : exn.Alike exn') :
      Alike first second (.ended (.refused exn)) (.ended (.refused exn'))
  | failed {exn exn' : Exn} (alike : exn.Alike exn') :
      Alike first second (.ended (.failed exn)) (.ended (.failed exn'))

/-- Calls with the same arguments and the same outcomes so far. -/
structure Call.Kin (first second : Call) : Prop where
  router : first.router.Alike second.router
  apiKey : first.apiKey = second.apiKey
  prompt : first.prompt = second.prompt
  maxTokens : first.maxTokens = second.maxTokens
  requestId : first.requestId = second.requestId
  started : first.started = second.started
  reservedAt : first.reservedAt = second.reservedAt
  outcomes : first.attempts.map AttemptRecord.outcome = second.attempts.map AttemptRecord.outcome

structure Call.Alike (first second : Call) : Prop extends Call.Kin first second where
  pc : Pc.Alike first.router second.router first.pc second.pc

structure System.Alike (first second : System) : Prop where
  books : first.books = second.books
  breakers : first.breakers = second.breakers
  jobs : first.jobs = second.jobs
  length : first.calls.length = second.calls.length
  calls : ∀ (c : Nat) (call call' : Call), first.calls[c]? = some call →
    second.calls[c]? = some call' → call.Alike call'

namespace Call
variable {first second : Call}

theorem Kin.moved (kin : first.Kin second) {pc pc' : Pc} {dialled dialled' : List Provider}
    (alike : Pc.Alike first.router second.router pc pc') :
    ({first with dialled := dialled, pc := pc} : Call).Alike
      {second with dialled := dialled', pc := pc'} :=
  ⟨⟨kin.router,kin.apiKey,kin.prompt,kin.maxTokens,kin.requestId,kin.started,kin.reservedAt,
    kin.outcomes⟩,alike⟩

theorem Kin.note (kin : first.Kin second) {record record' : AttemptRecord}
    (same : record.outcome = record'.outcome) :
    ({first with attempts := first.attempts ++ [record]} : Call).Kin
      {second with attempts := second.attempts ++ [record']} :=
  ⟨kin.router,kin.apiKey,kin.prompt,kin.maxTokens,kin.requestId,kin.started,kin.reservedAt,
    by simp [kin.outcomes,same]⟩

theorem summary_outcomes (attempts : List AttemptRecord) : publicAttemptSummary attempts =
    .summary (attempts.map AttemptRecord.outcome).length (attempts.map AttemptRecord.outcome) := by
  simp [publicAttemptSummary]

theorem Kin.summary (kin : first.Kin second) :
    publicAttemptSummary first.attempts = publicAttemptSummary second.attempts := by
  rw [summary_outcomes,summary_outcomes,kin.outcomes]

theorem Kin.allFailed (kin : first.Kin second) (reservation : Reservation) :
    (first.allFailed reservation).Alike (second.allFailed reservation) := by
  have slow (attempts : List AttemptRecord) :
      (attempts.all fun record => record.outcome == .timeout || record.outcome == .deadlineExhausted) =
        (attempts.map AttemptRecord.outcome).all fun outcome =>
          outcome == .timeout || outcome == .deadlineExhausted := by
    rw [List.all_map]
    rfl
  apply kin.moved (Pc.Alike.release reservation _ false)
  rw [slow,slow,kin.outcomes,kin.requestId,kin.summary]
  exact Exn.Alike.gateway _ _ _ _ _

theorem Kin.remainingBudget (kin : first.Kin second) (now : ℚ) :
    first.remainingBudget now = second.remainingBudget now := by
  rw [Call.remainingBudget,Call.remainingBudget,kin.router.totalDeadlineS,
    kin.router.attemptTimeoutS,kin.started]

theorem Kin.tryNext (kin : first.Kin second) (reservation : Reservation) (breaker : CircuitBreaker)
    {candidates candidates' : List Provider}
    (places : Candidates first.router second.router candidates candidates') (readings : Readings) :
    (first.tryNext reservation breaker candidates readings).1.Alike
        (second.tryNext reservation breaker candidates' readings).1 ∧
      (first.tryNext reservation breaker candidates readings).2 =
        (second.tryNext reservation breaker candidates' readings).2 := by
  cases places with
  | nil => exact ⟨kin.allFailed reservation,rfl⟩
  | @cons provider provider' rest rest' place after =>
    unfold Call.tryNext
    dsimp only
    rw [← kin.remainingBudget,← kin.router.attemptTimeoutS]
    split_ifs with expired own own' own'
    · exact ⟨(kin.note (by rfl)).allFailed reservation,rfl⟩
    · exact absurd (place.mp own) own'
    · exact absurd (place.mpr own') own
    · exact ⟨(kin.note (by rfl)).allFailed reservation,rfl⟩
    · exact ⟨kin.moved (Pc.Alike.attempt reservation _ (List.Forall₂.cons place after)),rfl⟩

theorem Kin.afterReserve (kin : first.Kin second) (result : Except ReserveError Reservation)
    (breaker : CircuitBreaker) (readings : Readings) :
    (first.afterReserve result breaker readings).1.Alike
        (second.afterReserve result breaker readings).1 ∧
      (first.afterReserve result breaker readings).2 =
        (second.afterReserve result breaker readings).2 := by
  have secondary : Candidates first.router second.router [first.router.secondary]
      [second.router.secondary] := List.Forall₂.cons kin.router.shared List.Forall₂.nil
  have both : Candidates first.router second.router [first.router.primary,first.router.secondary]
      [second.router.primary,second.router.secondary] :=
    List.Forall₂.cons (by simp) secondary
  match result with
  | .error .ValueError => exact ⟨kin.moved (Pc.Alike.refused Exn.Alike.valueError),rfl⟩
  | .error (.exceeded exc) =>
    refine ⟨kin.moved (Pc.Alike.refused ?_),rfl⟩
    rw [kin.requestId]
    exact Exn.Alike.gateway _ _ _ _ _
  | .ok reservation =>
    unfold Call.afterReserve
    dsimp only
    split
    · exact kin.tryNext reservation _ both readings
    · exact (kin.note (by rfl)).tryNext reservation _ secondary readings

theorem attemptRecord_alike {billed : Prop} {answer answer' : Answer}
    (alike : Answer.Alike billed answer answer') (provider provider' : Provider) (durationMs : ℚ) :
    (attemptRecord provider answer durationMs).2.outcome =
      (attemptRecord provider' answer' durationMs).2.outcome := by
  cases alike with
  | providerError first second same => simp [attemptRecord,same]
  | _ => rfl

/-- The end of an attempt, unless it is a completion that costs something else. -/
theorem Kin.afterAttempt (kin : first.Kin second) (reservation : Reservation)
    {provider provider' : Provider} {rest rest' : List Provider}
    (places : Candidates first.router second.router (provider::rest) (provider'::rest'))
    {answer answer' : Answer} (alike : Answer.Alike True answer answer') (breaker : CircuitBreaker)
    (readings : Readings) :
    (first.afterAttempt reservation provider rest answer breaker readings).1.Alike
        (second.afterAttempt reservation provider' rest' answer' breaker readings).1 ∧
      (first.afterAttempt reservation provider rest answer breaker readings).2 =
        (second.afterAttempt reservation provider' rest' answer' breaker readings).2 := by
  obtain ⟨place,after⟩ := List.forall₂_cons.mp places
  have same := attemptRecord_alike alike provider provider' readings.durationMs
  have noted := kin.note same
  unfold Call.afterAttempt
  dsimp only
  rw [same,if_congr place rfl rfl]
  cases alike with
  | completed completion completion' cost => exact ⟨noted.moved (Pc.Alike.commit _ (cost trivial) _),rfl⟩
  | timeout => exact noted.tryNext reservation _ after readings
  | unexpected => exact noted.tryNext reservation _ after readings
  | providerError error error' retryable =>
    have silent (provider : Provider) (error : ProviderError) :
        (attemptRecord provider (.providerError error) readings.durationMs).1 = none := rfl
    rw [silent,silent]
    generalize (attemptRecord provider (.providerError error) readings.durationMs).2 = record at noted ⊢
    generalize (attemptRecord provider' (.providerError error') readings.durationMs).2 = record' at noted ⊢
    dsimp only
    by_cases client : record'.outcome = .clientError
    · rw [if_pos client,if_pos client]
      refine ⟨noted.moved (Pc.Alike.release reservation ?_ false),rfl⟩
      rw [noted.summary,kin.requestId]
      exact Exn.Alike.gateway _ _ _ _ _
    · rw [if_neg client,if_neg client]
      exact noted.tryNext reservation _ after readings

theorem Alike.wake (alike : first.Alike second) {breaker : CircuitBreaker}
    {wakeup wakeup' : Wakeup} (events : Wakeup.Alike True wakeup wakeup')
    {moved moved' : Call × CircuitBreaker} (woken : first.wake breaker wakeup = some moved)
    (woken' : second.wake breaker wakeup' = some moved') :
    moved.1.Alike moved'.1 ∧ moved.2 = moved'.2 := by
  have kin := alike.toKin
  have pcs := alike.pc
  generalize here : first.pc = pc at pcs
  generalize here' : second.pc = pc' at pcs
  cases events with
  | finished readings =>
    cases pcs with
    | reserve result =>
      cases result with
      | none => simp [Call.wake,here] at woken
      | some result =>
        simp only [Call.wake,here,here',Option.some.injEq] at woken woken'
        subst moved moved'
        exact kin.afterReserve result breaker readings
    | commit reservation same done =>
      cases done with
      | false => simp [Call.wake,here] at woken
      | true =>
        simp only [Call.wake,here,here',Option.some.injEq] at woken woken'
        subst moved moved'
        exact ⟨kin.moved (Pc.Alike.returned _ _),rfl⟩
    | release reservation exns done =>
      cases done with
      | false => simp [Call.wake,here] at woken
      | true =>
        simp only [Call.wake,here,here',Option.some.injEq] at woken woken'
        subst moved moved'
        exact ⟨kin.moved (Pc.Alike.failed exns),rfl⟩
    | _ => simp [Call.wake,here] at woken
  | answered answers readings =>
    cases pcs with
    | attempt reservation timeoutS places =>
      simp only [Call.wake,here,here',Option.some.injEq] at woken woken'
      subst moved moved'
      exact kin.afterAttempt reservation places answers breaker readings
    | _ => simp [Call.wake,here] at woken
  | cancelled =>
    cases pcs with
    | reserve result =>
      simp only [Call.wake,cancelled,here,here',Option.some.injEq] at woken woken'
      subst moved moved'
      exact ⟨kin.moved (Pc.Alike.refused Exn.Alike.cancelled),rfl⟩
    | attempt reservation timeoutS places =>
      simp only [Call.wake,cancelled,here,here',Option.some.injEq] at woken woken'
      subst moved moved'
      exact ⟨kin.moved (Pc.Alike.release _ Exn.Alike.cancelled _),
        if_congr (List.forall₂_cons.mp places).1 rfl rfl⟩
    | commit reservation same done =>
      simp only [Call.wake,cancelled,here,here',Option.some.injEq] at woken woken'
      subst moved moved'
      exact ⟨kin.moved (Pc.Alike.release _ Exn.Alike.cancelled _),rfl⟩
    | release reservation exns done =>
      simp only [Call.wake,cancelled,here,here',Option.some.injEq] at woken woken'
      subst moved moved'
      exact ⟨kin.moved (Pc.Alike.failed Exn.Alike.cancelled),rfl⟩
    | _ => simp [Call.wake,cancelled,here] at woken

theorem Alike.submits (alike : first.Alike second) : first.submits = second.submits := by
  have pcs := alike.pc
  unfold Call.submits Call.estimated
  rw [alike.apiKey,alike.prompt,alike.maxTokens,alike.reservedAt]
  generalize first.pc = pc at pcs
  generalize second.pc = pc' at pcs
  cases pcs with
  | reserve result => cases result <;> rfl
  | commit reservation same done => cases done <;> simp [same]
  | release reservation exns done => cases done <;> rfl
  | _ => rfl

theorem Alike.deliver (alike : first.Alike second) (finished : Finished) :
    ({first with pc := first.pc.deliver finished} : Call).Alike
      {second with pc := second.pc.deliver finished} := by
  have pcs := alike.pc
  apply alike.toKin.moved
  generalize first.pc = pc at pcs
  generalize second.pc = pc' at pcs
  cases pcs with
  | reserve result =>
    cases result <;> cases finished <;> exact Pc.Alike.reserve _
  | commit reservation same done =>
    cases done <;> cases finished <;> exact Pc.Alike.commit reservation same _
  | release reservation exns done =>
    cases done <;> cases finished <;> exact Pc.Alike.release reservation exns _
  | attempt reservation timeoutS places => exact Pc.Alike.attempt reservation timeoutS places
  | returned response response' => exact Pc.Alike.returned response response'
  | refused exns => exact Pc.Alike.refused exns
  | failed exns => exact Pc.Alike.failed exns

end Call

/-- Two calls that both got their completion: they return it unless they are cancelled. -/
inductive Pc.Served : Pc → Pc → Prop
  | commit (reservation reservation' : Reservation) (completion completion' : Completion)
      (done done' : Bool) :
      Served (.commit reservation completion done) (.commit reservation' completion' done')
  | returned (response response' : RoutedResponse) :
      Served (.ended (.returned response)) (.ended (.returned response'))
  | release (reservation reservation' : Reservation) (done done' : Bool) :
      Served (.release reservation .cancelled done) (.release reservation' .cancelled done')
  | failed : Served (.ended (.failed .cancelled)) (.ended (.failed .cancelled))

theorem served_turn {cancelled : Bool} {pc pc' next next' : Pc} (served : pc.Served pc')
    (turn : Turn cancelled pc next) (turn' : Turn cancelled pc' next') : next.Served next' := by
  cases served with
  | commit =>
    cases turn with
    | respond reservation response =>
      cases turn'
      exact Pc.Served.returned _ _
    | abortCommit reservation completion done =>
      cases turn'
      exact Pc.Served.release _ _ _ _
  | returned => cases turn
  | release =>
    cases turn with
    | raise => cases turn'; exact Pc.Served.failed
    | abandon => cases turn'; exact Pc.Served.failed
  | failed => cases turn

theorem served_deliver {pc pc' : Pc} (served : pc.Served pc') (finished : Finished) :
    (pc.deliver finished).Served pc' := by
  cases served with
  | commit _ _ _ _ done => cases done <;> cases finished <;> exact Pc.Served.commit _ _ _ _ _ _
  | returned => exact Pc.Served.returned _ _
  | release _ _ done => cases done <;> cases finished <;> exact Pc.Served.release _ _ _ _
  | failed => exact Pc.Served.failed

theorem served_symm {pc pc' : Pc} (served : pc.Served pc') : pc'.Served pc := by
  cases served with
  | commit => exact Pc.Served.commit _ _ _ _ _ _
  | returned => exact Pc.Served.returned _ _
  | release => exact Pc.Served.release _ _ _ _
  | failed => exact Pc.Served.failed

/-- Until call `c` gets its completion the states are alike; what it is charged then may tell
them apart, but nothing that happens later makes it fail. -/
def Corresponds (c : Nat) (s s' : System) : Prop :=
  s.Alike s' ∨ ∃ call call', s.calls[c]? = some call ∧ s'.calls[c]? = some call' ∧
    call.pc.Served call'.pc

variable (limiter : SlidingWindowRateLimiter)

theorem served_step {c : Nat} {s s' next next' : System} {event event' : Event} {call call' : Call}
    (events : Event.Alike c event event') (known : s.calls[c]? = some call)
    (known' : s'.calls[c]? = some call') (served : call.pc.Served call'.pc)
    (stepped : s.step limiter event = some next) (stepped' : s'.step limiter event' = some next') :
    Corresponds c next next' := by
  obtain ⟨after,there,moves⟩ := step_known limiter stepped known
  obtain ⟨after',there',moves'⟩ := step_known limiter stepped' known'
  refine Or.inr ⟨after,after',there,there',?_⟩
  obtain ⟨wakeup,rfl,turned⟩ | ⟨other,quiet⟩ := moves
  · cases events with
    | @wake _ _ wakeup' alike =>
      obtain ⟨_,same,turned'⟩ | ⟨other',_⟩ := moves'
      · cases same
        have cancels : wakeup.isCancelled = wakeup'.isCancelled := by cases alike <;> rfl
        exact served_turn served turned.turn (cancels ▸ turned'.turn)
      · exact absurd rfl (other' wakeup')
  · obtain ⟨wakeup',rfl,_⟩ | ⟨_,quiet'⟩ := moves'
    · cases events
      exact absurd rfl (other _)
    · have left : after.pc.Served call'.pc := by
        obtain rfl | ⟨finished,rfl⟩ := quiet
        · exact served
        · exact served_deliver served finished
      obtain rfl | ⟨finished,rfl⟩ := quiet'
      · exact left
      · exact served_symm (served_deliver (served_symm left) finished)

theorem wakeup_charged {billed : Prop} {wakeup wakeup' : Wakeup}
    (events : Wakeup.Alike billed wakeup wakeup') : Wakeup.Alike True wakeup wakeup' ∨
      ¬billed ∧ ∃ completion completion' readings,
        wakeup = .answered (.completed completion) readings ∧
        wakeup' = .answered (.completed completion') readings := by
  cases events with
  | finished readings => exact Or.inl (Wakeup.Alike.finished readings)
  | cancelled => exact Or.inl Wakeup.Alike.cancelled
  | answered answers readings =>
    cases answers with
    | completed completion completion' same =>
      by_cases charged : billed
      · exact Or.inl (Wakeup.Alike.answered
          (Answer.Alike.completed _ _ fun _ => same charged) readings)
      · exact Or.inr ⟨charged,completion,completion',readings,rfl,rfl⟩
    | timeout => exact Or.inl (Wakeup.Alike.answered Answer.Alike.timeout readings)
    | providerError error error' same =>
      exact Or.inl (Wakeup.Alike.answered (Answer.Alike.providerError error error' same) readings)
    | unexpected text text' =>
      exact Or.inl (Wakeup.Alike.answered (Answer.Alike.unexpected text text') readings)

theorem completed_commits {call : Call} {breaker : CircuitBreaker} {completion : Completion}
    {readings : Readings} {moved : Call × CircuitBreaker}
    (woken : call.wake breaker (.answered (.completed completion) readings) = some moved) :
    ∃ reservation, moved.1.pc = .commit reservation completion false := by
  cases awaited : call.pc with
  | attempt reservation provider rest timeoutS =>
    simp only [Call.wake,awaited,Option.some.injEq] at woken
    subst moved
    exact ⟨reservation,rfl⟩
  | _ => simp [Call.wake,awaited] at woken

theorem alike_wake {c woken : Nat} {s s' : System} (alike : s.Alike s') {call call' : Call}
    (known : s.calls[woken]? = some call) (known' : s'.calls[woken]? = some call')
    {wakeup wakeup' : Wakeup} (events : Wakeup.Alike (woken ≠ c) wakeup wakeup')
    {moved moved' : Call × CircuitBreaker}
    (moves : call.wake (s.breakers call.router.breaker) wakeup = some moved)
    (moves' : call'.wake (s'.breakers call'.router.breaker) wakeup' = some moved') :
    Corresponds c (s.put woken moved) (s'.put woken moved') := by
  obtain ⟨inside,_⟩ := List.getElem?_eq_some_iff.mp known
  obtain ⟨inside',_⟩ := List.getElem?_eq_some_iff.mp known'
  have before := alike.calls woken call call' known known'
  obtain billed | ⟨own,completion,completion',readings,rfl,rfl⟩ := wakeup_charged events
  · rw [← alike.breakers,← before.router.breaker] at moves'
    obtain ⟨after,breakers⟩ := before.wake billed moves moves'
    refine Or.inl ⟨alike.books,?_,?_,?_,?_⟩
    · simp only [System.put,alike.breakers,breakers,after.router.breaker]
    · simp only [System.put,alike.jobs,after.submits]
    · simp only [System.put,List.length_set,alike.length]
    · intro c' other other' listed listed'
      by_cases same : woken = c'
      · subst c'
        rw [System.put,List.getElem?_set_self inside] at listed
        rw [System.put,List.getElem?_set_self inside'] at listed'
        cases listed
        cases listed'
        exact after
      · rw [System.put,List.getElem?_set_ne same] at listed
        rw [System.put,List.getElem?_set_ne same] at listed'
        exact alike.calls c' other other' listed listed'
  · obtain ⟨reservation,commits⟩ := completed_commits moves
    obtain ⟨reservation',commits'⟩ := completed_commits moves'
    obtain rfl := not_not.mp own
    refine Or.inr ⟨moved.1,moved'.1,List.getElem?_set_self inside,List.getElem?_set_self inside',?_⟩
    rw [commits,commits']
    exact Pc.Served.commit _ _ _ _ _ _

theorem alike_step {c : Nat} {s s' next next' : System} {event event' : Event} (alike : s.Alike s')
    (events : Event.Alike c event event') (stepped : s.step limiter event = some next)
    (stepped' : s'.step limiter event' = some next') : Corresponds c next next' := by
  cases events with
  | @route router router' routers apiKey prompt maxTokens requestId started reservedAt =>
    simp only [System.step,Option.some.injEq] at stepped stepped'
    subst next next'
    have entered : (Call.enter router apiKey prompt maxTokens requestId started reservedAt).Alike
        (Call.enter router' apiKey prompt maxTokens requestId started reservedAt) :=
      ⟨⟨routers,rfl,rfl,rfl,rfl,rfl,rfl,rfl⟩,Pc.Alike.reserve none⟩
    refine Or.inl ⟨alike.books,alike.breakers,?_,?_,?_⟩
    · simp only [alike.jobs,alike.length,entered.submits]
    · simp only [List.length_append,alike.length,List.length_singleton]
    · intro c' call call' known known'
      rw [List.getElem?_append] at known known'
      rw [alike.length] at known
      split_ifs at known known' with old
      · exact alike.calls c' call call' known known'
      · obtain rfl := List.mem_singleton.mp (List.mem_of_getElem? known)
        obtain rfl := List.mem_singleton.mp (List.mem_of_getElem? known')
        exact entered
  | transaction i =>
    obtain ⟨job,listed,rfl⟩ := Option.map_eq_some_iff.mp stepped
    obtain ⟨job',listed',rfl⟩ := Option.map_eq_some_iff.mp stepped'
    rw [alike.jobs] at listed
    cases listed.symm.trans listed'
    refine Or.inl ⟨?_,alike.breakers,?_,?_,?_⟩
    · simp only [alike.books]
    · simp only [alike.jobs]
    · simp only [List.length_modify,alike.length]
    · intro c' call call' known known'
      simp only [List.getElem?_modify,← alike.books] at known known'
      obtain ⟨old,here,rfl⟩ := Option.map_eq_some_iff.mp known
      obtain ⟨old',here',rfl⟩ := Option.map_eq_some_iff.mp known'
      have before := alike.calls c' old old' here here'
      split_ifs
      · exact before.deliver _
      · exact before
  | wake woken events =>
    obtain ⟨call,known,moves⟩ := Option.bind_eq_some_iff.mp stepped
    obtain ⟨call',known',moves'⟩ := Option.bind_eq_some_iff.mp stepped'
    obtain ⟨moved,turned,rfl⟩ := Option.map_eq_some_iff.mp moves
    obtain ⟨moved',turned',rfl⟩ := Option.map_eq_some_iff.mp moves'
    exact alike_wake alike known known' events turned turned'

theorem runs_correspond {c : Nat} {s s' last last' : System} {events events' : List Event}
    (start : Corresponds c s s') (alike : List.Forall₂ (Event.Alike c) events events')
    (ran : run (System.step limiter) s events = some last)
    (ran' : run (System.step limiter) s' events' = some last') : Corresponds c last last' := by
  induction alike generalizing s s' with
  | nil =>
    cases ran
    cases ran'
    exact start
  | cons same rest ih =>
    obtain ⟨next,stepped,after⟩ := run_cons ran
    obtain ⟨next',stepped',after'⟩ := run_cons ran'
    apply ih _ after after'
    obtain alike | ⟨call,call',known,known',served⟩ := start
    · exact alike_step limiter alike same stepped stepped'
    · exact served_step limiter same known known' served stepped stepped'

def Outcome.raised : Outcome → Option Exn
  | .returned _ => none
  | .refused exn => some exn
  | .failed exn => some exn

/-- In two runs from the same limiter and breakers, with the same calls at the same times,
whose providers differ in their names, in what they say and in their status codes, but not in
the kinds of their answers: a call that fails in one fails in the other, with the same response
to its client. -/
theorem failure_reveals_nothing (double : ℚ → UInt64) (books : Books)
    (breakers : Nat → CircuitBreaker) (c : Nat) (events events' : List Event) (last last' : System)
    (alike : List.Forall₂ (Event.Alike c) events events')
    (ran : run (System.step limiter) ⟨books,breakers,[],[]⟩ events = some last)
    (ran' : run (System.step limiter) ⟨books,breakers,[],[]⟩ events' = some last')
    (call : Call) (outcome : Outcome) (exn : Exn) (known : last.calls[c]? = some call)
    (ended : call.pc = .ended outcome) (raised : outcome.raised = some exn)
    (xRequestId : Option Str) (fresh : Str) :
    ∃ call' outcome' exn', last'.calls[c]? = some call' ∧ call'.pc = .ended outcome' ∧
      outcome'.raised = some exn' ∧
      handle double xRequestId fresh exn = handle double xRequestId fresh exn' := by
  have start : Corresponds c ⟨books,breakers,[],[]⟩ ⟨books,breakers,[],[]⟩ :=
    Or.inl ⟨rfl,rfl,rfl,rfl,by simp⟩
  obtain alike | ⟨other,call',known₁,known',served⟩ := runs_correspond limiter start alike ran ran'
  · have inside : c < last'.calls.length := by
      rw [← alike.length]
      exact (List.getElem?_eq_some_iff.mp known).1
    have known' := List.getElem?_eq_getElem inside
    have pcs := (alike.calls c call _ known known').pc
    generalize last'.calls[c] = call' at known' pcs
    rw [ended] at pcs
    generalize here : call'.pc = pc' at pcs
    cases pcs with
    | returned response response' => cases raised
    | @refused _ exn' exns =>
      cases raised
      exact ⟨call',_,exn',known',here,rfl,exn_alike_handle double xRequestId fresh exns⟩
    | @failed _ exn' exns =>
      cases raised
      exact ⟨call',_,exn',known',here,rfl,exn_alike_handle double xRequestId fresh exns⟩
  · cases known.symm.trans known₁
    rw [ended] at served
    generalize here : call'.pc = pc' at served
    cases served with
    | returned response response' => cases raised
    | failed =>
      cases raised
      exact ⟨call',_,.cancelled,known',here,rfl,rfl⟩

/-- Both providers fail, each in its own words. -/
def outageRun (router : ModelRouter) (first second : Answer) : List Event :=
  [.route router (lit "tenant-a") (lit "hello") 256 (lit "r1") 0 0,.transaction 0,
    .wake 0 (.finished ⟨0,0,0⟩),.wake 0 (.answered first ⟨1,1,10⟩),
    .wake 0 (.answered second ⟨2,2,10⟩),.transaction 0,.wake 0 (.finished ⟨2,2,0⟩)]

def vendorRun : List Event :=
  outageRun ⟨⟨0,lit "primary-openai"⟩,⟨1,lit "secondary-anthropic"⟩,3,none,0⟩
    (.providerError ⟨lit "connection to 10.4.2.19:8443 refused",some 500⟩)
    (.unexpected (lit "KeyError"))

def mirrorRun : List Event :=
  outageRun ⟨⟨4,lit "east"⟩,⟨5,lit "west"⟩,3,none,0⟩ (.providerError ⟨lit "slow down",some 429⟩)
    (.unexpected (lit "no route to host"))

theorem failure_reveals_nothing_outage :
    ∃ last last' call call' exn outcome' exn',
      run (System.step ⟨50000,60⟩) (System.start fun _ => CircuitBreaker.default) vendorRun =
        some last ∧
      run (System.step ⟨50000,60⟩) (System.start fun _ => CircuitBreaker.default) mirrorRun =
        some last' ∧
      last.calls[0]? = some call ∧ call.pc = .ended (.failed exn) ∧
      last'.calls[0]? = some call' ∧ call'.pc = .ended outcome' ∧ outcome'.raised = some exn' ∧
      handle (fun _ => 0) none (lit "r2") exn = handle (fun _ => 0) none (lit "r2") exn' := by
  obtain ⟨last,call,exn,ran,known,ended⟩ : ∃ last call exn,
      run (System.step ⟨50000,60⟩) (System.start fun _ => CircuitBreaker.default) vendorRun =
        some last ∧
      last.calls[0]? = some call ∧ call.pc = .ended (.failed exn) := ⟨_,_,_,rfl,rfl,rfl⟩
  obtain ⟨last',ran'⟩ : ∃ last', run (System.step ⟨50000,60⟩)
      (System.start fun _ => CircuitBreaker.default) mirrorRun = some last' := ⟨_,rfl⟩
  have routers : ModelRouter.Alike ⟨⟨0,lit "primary-openai"⟩,⟨1,lit "secondary-anthropic"⟩,3,none,0⟩
      ⟨⟨4,lit "east"⟩,⟨5,lit "west"⟩,3,none,0⟩ := ⟨rfl,rfl,rfl,by decide⟩
  have busy (billed : Prop) : Answer.Alike billed
      (.providerError ⟨lit "connection to 10.4.2.19:8443 refused",some 500⟩)
      (.providerError ⟨lit "slow down",some 429⟩) := Answer.Alike.providerError _ _ (by decide)
  have alike : List.Forall₂ (Event.Alike 0) vendorRun mirrorRun :=
    .cons (.route routers _ _ _ _ _ _) (.cons (.transaction 0)
      (.cons (.wake 0 (.finished _)) (.cons (.wake 0 (.answered (busy _) _))
        (.cons (.wake 0 (.answered (.unexpected _ _) _)) (.cons (.transaction 0)
          (.cons (.wake 0 (.finished _)) .nil))))))
  obtain ⟨call',outcome',exn',known',ended',raised',same⟩ := failure_reveals_nothing ⟨50000,60⟩
    (fun _ => 0) Books.empty (fun _ => CircuitBreaker.default) 0 vendorRun mirrorRun last last' alike
    ran ran' call _ exn known ended rfl none (lit "r2")
  exact ⟨last,last',call,call',exn,outcome',exn',ran,ran',known,ended,known',ended',raised',same⟩

end GatewaySuite.Router
