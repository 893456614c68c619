import GatewaySuite.Router.Progress
import GatewaySuite.Router.Threads
import Mathlib.Algebra.BigOperators.Group.Finset.Piecewise

/-! Every call ends, also over a database that is contended and can fail: no thread waits for ever
for the lock, a call hears of the thread it awaits whether that returns or raises, and the
statements of a call are bounded. -/
namespace GatewaySuite.Router
open Python Limiter Lib
variable (limiter : SlidingWindowRateLimiter)

theorem submits_awaits {call : Call} {work : Work} (submitted : work ∈ call.submits) :
    call.pc.awaits work = true := by
  unfold Call.submits at submitted
  split at submitted
  next awaited =>
    rw [List.mem_singleton.mp submitted,awaited]
    rfl
  next reservation completion awaited =>
    rw [List.mem_singleton.mp submitted,awaited]
    rfl
  next reservation exn awaited =>
    rw [List.mem_singleton.mp submitted,awaited]
    rfl
  next => cases submitted

/-- What a call still awaits after a transaction was not that transaction. -/
theorem deliver_submits {call : Call} {books : Books} {id : Nat} {done work : Work}
    (submitted : work ∈ ({call with pc := call.pc.deliver (perform limiter books id done).1} :
      Call).submits) : work ∈ call.submits ∧ work ≠ done := by
  obtain same | ⟨_,_,same⟩ | ⟨_,_,_,same⟩ | ⟨_,_,_,same⟩ :=
    deliver_cases call.pc (perform limiter books id done).1
  · have kept : work ∈ call.submits := by rwa [same] at submitted
    refine ⟨kept,?_⟩
    rintro rfl
    unfold Call.submits at kept
    split at kept
    next awaited =>
      rw [List.mem_singleton.mp kept,awaited] at same
      cases same
    next reservation completion awaited =>
      rw [List.mem_singleton.mp kept,awaited] at same
      cases same
    next reservation exn awaited =>
      rw [List.mem_singleton.mp kept,awaited] at same
      cases same
    next => cases kept
  · simp [Call.submits,same] at submitted
  · simp [Call.submits,same] at submitted
  · simp [Call.submits,same] at submitted

theorem mem_erased {jobs : List Job} {i : Nat} {job other : Job} (listed : jobs[i]? = some job)
    (member : other ∈ jobs) (apart : other ≠ job) : other ∈ jobs.eraseIdx i :=
  (List.mem_cons.mp ((erase_perm listed).mem_iff.mp member)).resolve_left apart

/-- Whoever awaits a thread finds it at work, or has an exception of it to raise. -/
def FaultSystem.Answerable (f : FaultSystem) : Prop :=
  ∀ c call, f.system.calls[c]? = some call → ∀ work ∈ call.submits,
    ⟨c,work⟩ ∈ f.system.jobs ∨ c ∈ f.failed

theorem resumed_answerable {f : FaultSystem} {c : Nat} {wakeup : Wakeup} {system : System}
    (answerable : f.Answerable) (stepped : f.system.step limiter (.wake c wakeup) = some system) :
    (f.resumed c system).Answerable := by
  obtain ⟨call,known,moves⟩ := Option.bind_eq_some_iff.mp stepped
  obtain ⟨moved,_,rfl⟩ := Option.map_eq_some_iff.mp moves
  intro other call' known' work submitted
  simp only [FaultSystem.resumed,System.put,List.getElem?_set,List.mem_append,List.mem_filter,
    decide_eq_true_eq] at known' ⊢
  split_ifs at known' with own inside
  · cases known'
    subst own
    exact Or.inl (Or.inr (List.mem_map_of_mem submitted))
  · obtain listed | failed := answerable other call' known' work submitted
    · exact Or.inl (Or.inl listed)
    · exact Or.inr ⟨failed,Ne.symm own⟩

theorem step_answerable (f : FaultSystem) (event : FaultEvent) (next : FaultSystem)
    (answerable : f.Answerable) (stepped : f.step limiter event = some next) :
    next.Answerable := by
  cases event with
  | runs event =>
    cases event with
    | wake c wakeup =>
      obtain ⟨system,here,rfl⟩ := Option.map_eq_some_iff.mp stepped
      exact resumed_answerable limiter answerable here
    | route router apiKey prompt maxTokens requestId started reservedAt =>
      cases stepped
      intro c call known work submitted
      dsimp only at known ⊢
      rw [List.getElem?_append] at known
      rw [List.mem_append]
      split_ifs at known with old
      · exact (answerable c call known work submitted).imp_left Or.inl
      · obtain ⟨inside,rfl⟩ := List.getElem?_eq_some_iff.mp known
        obtain rfl : c = f.system.calls.length := by
          simp only [List.length_singleton] at inside
          omega
        refine Or.inl (Or.inr (List.mem_map_of_mem ?_))
        simpa using submitted
    | transaction i =>
      obtain ⟨system,here,rfl⟩ := Option.map_eq_some_iff.mp stepped
      obtain ⟨job,listed,rfl⟩ := Option.map_eq_some_iff.mp here
      intro c call known work submitted
      dsimp only at known ⊢
      rw [List.getElem?_modify] at known
      obtain ⟨old,known',same⟩ := Option.map_eq_some_iff.mp known
      split_ifs at same with own
      · subst same own
        obtain ⟨kept,apart⟩ := deliver_submits limiter submitted
        refine (answerable job.call old known' work kept).imp_left fun member => ?_
        refine mem_erased listed member fun equal => apart ?_
        rw [← equal]
      · obtain rfl : old = call := same
        refine (answerable c old known' work submitted).imp_left fun member => ?_
        refine mem_erased listed member fun equal => own ?_
        rw [← equal]
  | fails i =>
    obtain ⟨job,listed,rfl⟩ := Option.map_eq_some_iff.mp stepped
    intro c call known work submitted
    dsimp only at known ⊢
    by_cases lost : (⟨c,work⟩ : Job) = job
    · subst lost
      have awaited : (f.system.calls[c]?).any (fun call => call.pc.awaits work) = true := by
        rw [known]
        exact submits_awaits submitted
      exact Or.inr (by simp [awaited])
    · obtain member | failed := answerable c call known work submitted
      · exact Or.inl (mem_erased listed member lost)
      · refine Or.inr ?_
        split_ifs
        · exact List.mem_cons_of_mem _ failed
        · exact failed
  | raises c =>
    simp only [FaultSystem.step] at stepped
    split_ifs at stepped
    obtain ⟨system,here,rfl⟩ := Option.map_eq_some_iff.mp stepped
    exact resumed_answerable limiter answerable here

def ThreadEvent.routes : ThreadEvent → Bool
  | .route _ _ _ _ _ _ _ => true
  | _ => false

namespace ThreadSystem

/-- The lock is held by a thread that is at work. -/
def Locked (t : ThreadSystem) : Prop :=
  ∀ j, t.shared.writer = some j →
    ∃ thread, t.threads[j]? = some thread ∧ thread.connection.holds = true

theorem locked_spawned {t : ThreadSystem} (locked : t.Locked) (spawned : List Thread) (j : Nat)
    (theirs : t.shared.writer = some j) :
    ∃ thread, (t.threads ++ spawned)[j]? = some thread ∧ thread.connection.holds = true := by
  obtain ⟨thread,listed,holds⟩ := locked j theirs
  refine ⟨thread,?_,holds⟩
  rw [List.getElem?_append_left (List.getElem?_eq_some_iff.mp listed).1,listed]

theorem resume_locked {t next : ThreadSystem} {c : Nat} {wakeup : Wakeup} (locked : t.Locked)
    (resumed : t.resume limiter c wakeup = some next) : next.Locked := by
  obtain ⟨call,_,moves⟩ := Option.bind_eq_some_iff.mp resumed
  obtain ⟨moved,_,rfl⟩ := Option.map_eq_some_iff.mp moves
  exact locked_spawned locked _

theorem step_locked (t : ThreadSystem) (event : ThreadEvent) (next : ThreadSystem)
    (locked : t.Locked) (stepped : t.step limiter event = some next) : next.Locked := by
  cases event with
  | route router apiKey prompt maxTokens requestId started reservedAt =>
    cases stepped
    exact locked_spawned locked _
  | wake c wakeup => exact resume_locked limiter locked stepped
  | raises c =>
    simp only [step] at stepped
    split_ifs at stepped
    exact resume_locked limiter locked stepped
  | executes i =>
    obtain ⟨thread,listed,moves⟩ := Option.bind_eq_some_iff.mp stepped
    obtain ⟨⟨shared,c⟩,ran,rfl⟩ := Option.map_eq_some_iff.mp moves
    have inside := (List.getElem?_eq_some_iff.mp listed).1
    have held (mine : t.shared.writer = some i) : thread.connection.holds = true := by
      obtain ⟨other,here,holds⟩ := locked i mine
      cases listed.symm.trans here
      exact holds
    intro j theirs
    dsimp only
    rw [List.getElem?_set]
    obtain ⟨rfl,holds⟩ | ⟨apart,before⟩ := Serial.statement_holder held ran theirs
    · exact ⟨_,by rw [if_pos rfl,if_pos inside],holds⟩
    · rw [if_neg (Ne.symm apart)]
      exact locked j before
  | fails i =>
    obtain ⟨thread,listed,moves⟩ := Option.bind_eq_some_iff.mp stepped
    split_ifs at moves
    cases moves
    intro j theirs
    dsimp only at theirs ⊢
    unfold Serial.Shared.close at theirs
    split_ifs at theirs with holds
    obtain ⟨other,here,holding⟩ := locked j theirs
    have apart : i ≠ j := by
      rintro rfl
      cases listed.symm.trans here
      exact holds holding
    exact ⟨other,by rw [List.getElem?_set_ne apart,here],holding⟩

/-- The event is a turn of the call that is no cancellation, or a statement of one of its threads
or of the one that holds the lock. -/
def Forwards (c : Nat) (t : ThreadSystem) : ThreadEvent → Prop
  | .wake woken wakeup => woken = c ∧ wakeup.isCancelled = false
  | .raises raised => raised = c
  | .executes i => ∃ thread, t.threads[i]? = some thread ∧
      (thread.job.call = c ∨ thread.connection.holds = true)
  | _ => False

theorem statement_forwards {t : ThreadSystem} {i : Nat} {thread : Thread}
    (listed : t.threads[i]? = some thread)
    {answer : Serial.Shared Nat (List Row) × Serial.Connection (List Row) Limiter.Result}
    (ran : Serial.statement t.shared i thread.connection = some answer) :
    ∃ next, t.step limiter (.executes i) = some next := by
  simp only [step,listed,Option.bind_some,ran,Option.map_some,Option.some.injEq,exists_eq']

theorem thread_forwards {t : ThreadSystem} (locked : t.Locked) {c : Nat} {work : Work}
    (listed : ⟨c,work⟩ ∈ t.jobs) :
    ∃ event next, t.step limiter event = some next ∧ Forwards c t event := by
  obtain ⟨thread,member,here⟩ := List.mem_filterMap.mp listed
  unfold Thread.outstanding? at here
  split_ifs at here with running
  obtain ⟨i,place⟩ := List.mem_iff_getElem?.mp member
  have own : thread.job.call = c := congrArg Job.call (Option.some.inj here)
  cases ran : Serial.statement t.shared i thread.connection with
  | some answer =>
    obtain ⟨next,stepped⟩ := statement_forwards limiter place ran
    exact ⟨.executes i,next,stepped,thread,place,Or.inl own⟩
  | none =>
    -- It waits for the lock, and the one that holds it does not.
    obtain ⟨_,j,theirs⟩ := Serial.statement_waits running ran
    obtain ⟨holder,there,holds⟩ := locked j theirs
    have working : holder.connection.open = true := by
      cases other : holder.connection <;> rw [other] at holds <;> cases holds
      rfl
    cases moves : Serial.statement t.shared j holder.connection with
    | some answer =>
      obtain ⟨next,stepped⟩ := statement_forwards limiter there moves
      exact ⟨.executes j,next,stepped,holder,there,Or.inr holds⟩
    | none =>
      have waits := (Serial.statement_waits working moves).1
      rw [holds] at waits
      cases waits

theorem turn_forwards {t : ThreadSystem} {c : Nat} {call : Call} {wakeup : Wakeup}
    (known : t.calls[c]? = some call)
    (offered : (call.wake (t.breakers call.router.breaker) wakeup).isSome = true) :
    ∃ next, t.resume limiter c wakeup = some next := by
  obtain ⟨moved,woken⟩ := Option.isSome_iff_exists.mp offered
  simp only [resume,known,Option.bind_some,woken,Option.map_some,Option.some.injEq,exists_eq']

/-- A call that has not ended is never stuck. -/
theorem running_forwards {t : ThreadSystem} {books : Books} (locked : t.Locked)
    (answerable : (t.faults books).Answerable) {c : Nat} {call : Call}
    (known : t.calls[c]? = some call) (running : ∀ outcome, call.pc ≠ .ended outcome) :
    ∃ event next, t.step limiter event = some next ∧ Forwards c t event := by
  have turn (wakeup : Wakeup) (plain : wakeup.isCancelled = false)
      (offered : (call.wake (t.breakers call.router.breaker) wakeup).isSome = true) :
      ∃ event next, t.step limiter event = some next ∧ Forwards c t event := by
    obtain ⟨next,stepped⟩ := turn_forwards limiter known offered
    exact ⟨.wake c wakeup,next,stepped,rfl,plain⟩
  have thread (work : Work) (submitted : work ∈ call.submits)
      (offered : (call.wake (t.breakers call.router.breaker) .cancelled).isSome = true) :
      ∃ event next, t.step limiter event = some next ∧ Forwards c t event := by
    obtain listed | failed := answerable c call known work submitted
    · exact thread_forwards limiter locked listed
    · obtain ⟨next,stepped⟩ := turn_forwards limiter known offered
      have raised : c ∈ t.failed := failed
      exact ⟨.raises c,next,by rw [step,if_pos raised,stepped],rfl⟩
  cases awaited : call.pc with
  | ended outcome => exact absurd awaited (running outcome)
  | attempt reservation provider rest timeoutS =>
    exact turn (.answered .timeout ⟨0,0,0⟩) rfl (by simp [Call.wake,awaited])
  | reserve answer =>
    cases answer with
    | some answer => exact turn (.finished ⟨0,0,0⟩) rfl (by simp [Call.wake,awaited])
    | none =>
      exact thread (.reserve call.apiKey call.estimated call.reservedAt)
        (by simp [Call.submits,awaited]) (by simp [Call.wake,Call.cancelled,awaited])
  | commit reservation completion done =>
    cases done with
    | true => exact turn (.finished ⟨0,0,0⟩) rfl (by simp [Call.wake,awaited])
    | false =>
      exact thread (.commit reservation.id completion.totalTokens)
        (by simp [Call.submits,awaited]) (by simp [Call.wake,Call.cancelled,awaited])
  | release reservation exn done =>
    cases done with
    | true => exact turn (.finished ⟨0,0,0⟩) rfl (by simp [Call.wake,awaited])
    | false =>
      exact thread (.release reservation.id)
        (by simp [Call.submits,awaited]) (by simp [Call.wake,Call.cancelled,awaited])

/-- No thread has more statements left than that. -/
def Spare (t : ThreadSystem) (left : Nat → Nat) : Prop :=
  ∀ (i : Nat) (thread : Thread), t.threads[i]? = some thread → thread.connection.Within (left i)

/-- What is left to do: six steps for each turn, of which five are the statements of a thread that
it starts, and the statements of the threads. -/
def total (t : ThreadSystem) (left : Nat → Nat) : Nat :=
  6 * (t.calls.map fun call => call.pc.turnsLeft).sum + ∑ i ∈ Finset.range t.threads.length, left i

theorem spare_spawned {t : ThreadSystem} {left : Nat → Nat} (spare : t.Spare left) (c : Nat)
    {submitted : List Work} (one : submitted.length ≤ 1) :
    let threads := t.threads ++ submitted.map (Thread.spawn limiter c)
    ∃ left', ({t with threads := threads} : ThreadSystem).Spare left' ∧
      ∑ i ∈ Finset.range threads.length, left' i ≤
        (∑ i ∈ Finset.range t.threads.length, left i) + 5 := by
  cases submitted with
  | nil => exact ⟨left,by simpa using spare,by simp⟩
  | cons work rest =>
    obtain rfl : rest = [] := by simpa using one
    refine ⟨Function.update left t.threads.length 5,?_,?_⟩
    · intro i thread listed
      dsimp only at listed
      rw [List.getElem?_append] at listed
      split_ifs at listed with old
      · rw [Function.update_of_ne old.ne]
        exact spare i thread listed
      · obtain ⟨inside,rfl⟩ := List.getElem?_eq_some_iff.mp listed
        obtain rfl : i = t.threads.length := by
          simp only [List.map_cons,List.map_nil,List.length_singleton] at inside
          omega
        rw [Function.update_self]
        simp only [List.map_cons,List.map_nil,List.getElem_singleton]
        exact program_within limiter c work
    · have others : ∑ i ∈ Finset.range t.threads.length, Function.update left t.threads.length 5 i =
          ∑ i ∈ Finset.range t.threads.length, left i := by
        apply Finset.sum_congr rfl
        intro i member
        rw [Function.update_of_ne (Finset.mem_range.mp member).ne]
      simp [Finset.sum_range_succ,others]

theorem spare_moved {t : ThreadSystem} {left : Nat → Nat} (spare : t.Spare left) (moved : Thread)
    {i : Nat} {thread : Thread} (listed : t.threads[i]? = some thread) (positive : 0 < left i)
    (shorter : moved.connection.Within (left i - 1)) :
    ∃ left', ({t with threads := t.threads.set i moved} : ThreadSystem).Spare left' ∧
      (∑ i ∈ Finset.range t.threads.length, left' i) + 1 =
        ∑ i ∈ Finset.range t.threads.length, left i := by
  have member : i ∈ Finset.range t.threads.length :=
    Finset.mem_range.mpr (List.getElem?_eq_some_iff.mp listed).1
  refine ⟨Function.update left i (left i - 1),?_,?_⟩
  · intro j other there
    dsimp only at there
    rw [List.getElem?_set] at there
    split_ifs at there with own
    · cases there
      subst own
      rwa [Function.update_self]
    · rw [Function.update_of_ne (Ne.symm own)]
      exact spare j other there
  · rw [Finset.sum_update_of_mem member,Finset.sum_eq_add_sum_sdiff_singleton_of_mem member left]
    omega

theorem resume_total {t next : ThreadSystem} {left : Nat → Nat} {c : Nat} {wakeup : Wakeup}
    (spare : t.Spare left) (resumed : t.resume limiter c wakeup = some next) :
    ∃ left', next.Spare left' ∧ next.total left' + 1 ≤ t.total left := by
  obtain ⟨call,known,moves⟩ := Option.bind_eq_some_iff.mp resumed
  obtain ⟨moved,woken,rfl⟩ := Option.map_eq_some_iff.mp moves
  obtain ⟨left',spare',more⟩ := spare_spawned limiter spare c moved.1.submits_length
  refine ⟨left',spare',?_⟩
  have fewer := Call.wakes_turnsLeft (Call.wake_cases woken)
  have turns := sum_set t.calls moved.1 known
  simp only [total]
  omega

theorem told_total (t : ThreadSystem) (job : Job) (answer : Option Limiter.Result) :
    (t.told job answer).map (fun call => call.pc.turnsLeft) =
      t.calls.map fun call => call.pc.turnsLeft := by
  cases answer with
  | none => rfl
  | some result => exact told_turnsLeft t.calls job.call (job.work.finished result)

/-- Each step is one less to do, and a new call brings thirty-five. -/
theorem step_total {t next : ThreadSystem} {event : ThreadEvent} {left : Nat → Nat}
    (spare : t.Spare left) (stepped : t.step limiter event = some next) :
    ∃ left', next.Spare left' ∧
      next.total left' + 1 ≤ t.total left + if event.routes then 36 else 0 := by
  cases event with
  | wake c wakeup => exact resume_total limiter spare stepped
  | raises c =>
    simp only [step] at stepped
    split_ifs at stepped
    exact resume_total limiter spare stepped
  | route router apiKey prompt maxTokens requestId started reservedAt =>
    cases stepped
    obtain ⟨left',spare',more⟩ := spare_spawned limiter spare t.calls.length (Call.submits_length
      (Call.enter router apiKey prompt maxTokens requestId started reservedAt))
    refine ⟨left',spare',?_⟩
    have entered : (Call.enter router apiKey prompt maxTokens requestId started
      reservedAt).pc.turnsLeft = 5 := rfl
    simp only [total,ThreadEvent.routes,if_true,List.map_append,List.sum_append,List.map_cons,
      List.map_nil,List.sum_cons,List.sum_nil]
    omega
  | executes i =>
    obtain ⟨thread,listed,moves⟩ := Option.bind_eq_some_iff.mp stepped
    obtain ⟨⟨shared,c⟩,ran,rfl⟩ := Option.map_eq_some_iff.mp moves
    obtain ⟨positive,shorter⟩ := Serial.statement_shortens (spare i thread listed) ran
    obtain ⟨left',spare',less⟩ :=
      spare_moved spare {thread with connection := c} listed positive shorter
    refine ⟨left',spare',?_⟩
    simp only [total,told_total,List.length_set,ThreadEvent.routes,Bool.false_eq_true,if_false]
    omega
  | fails i =>
    obtain ⟨thread,listed,moves⟩ := Option.bind_eq_some_iff.mp stepped
    split_ifs at moves with running
    cases moves
    have positive := Serial.within_open (spare i thread listed) running
    obtain ⟨left',spare',less⟩ :=
      spare_moved spare {thread with connection := .locked} listed positive trivial
    refine ⟨left',spare',?_⟩
    simp only [total,List.length_set,ThreadEvent.routes,Bool.false_eq_true,if_false]
    omega

theorem run_total {t last : ThreadSystem} {events : List ThreadEvent} {left : Nat → Nat}
    (spare : t.Spare left) (ran : run (step limiter) t events = some last) :
    events.length ≤ t.total left + 36 * events.countP ThreadEvent.routes := by
  induction events generalizing t left with
  | nil => simp
  | cons event rest ih =>
    obtain ⟨next,here,later⟩ := run_cons ran
    obtain ⟨left',spare',one⟩ := step_total limiter spare here
    have more := ih spare' later
    rw [List.length_cons,List.countP_cons]
    split_ifs at one ⊢ <;> omega

end ThreadSystem

/-- In every run of the threads, whatever their order and whichever statements raise: there are
thirty-six steps at most for each call of `route`, and a call that has not ended can go on, or
one of its threads, or the one that holds the lock. -/
theorem threads_terminate {breakers : Nat → CircuitBreaker} {events : List ThreadEvent}
    {last : ThreadSystem}
    (ran : run (ThreadSystem.step limiter) (ThreadSystem.start breakers) events = some last) :
    events.length ≤ 36 * events.countP ThreadEvent.routes ∧
      ∀ c call, last.calls[c]? = some call → (∀ outcome, call.pc ≠ .ended outcome) →
        ∃ event next, last.step limiter event = some next ∧ last.Forwards c event := by
  have spare : (ThreadSystem.start breakers).Spare fun _ => 0 := by
    intro i thread listed
    simp [ThreadSystem.start] at listed
  have unlocked : (ThreadSystem.start breakers).Locked := by
    intro j theirs
    cases theirs
  have silent : (FaultSystem.start breakers).Answerable := by
    intro c call known
    simp [FaultSystem.start,System.start] at known
  constructor
  · have bound := ThreadSystem.run_total limiter spare ran
    have empty : (ThreadSystem.start breakers).total (fun _ => 0) = 0 := rfl
    omega
  · intro c call known running
    obtain ⟨_,moves,books,moved,_⟩ := run_refines limiter ran
    have locked := run_invariant (ThreadSystem.step_locked limiter) unlocked ran
    have answerable := run_invariant (step_answerable limiter) silent moved
    exact ThreadSystem.running_forwards limiter locked answerable known running

theorem threads_terminate_broken :
    brokenRun.length ≤ 36 * brokenRun.countP ThreadEvent.routes := by
  have ends : (run (ThreadSystem.step ⟨50000,60⟩)
      (ThreadSystem.start fun _ => CircuitBreaker.default) brokenRun).isSome = true := by
    decide +kernel
  obtain ⟨last,ran⟩ := Option.isSome_iff_exists.mp ends
  exact (threads_terminate ⟨50000,60⟩ ran).1

end GatewaySuite.Router
