import GatewaySuite.Limiter.Statements
import GatewaySuite.Router.Faults

/-! The router with its worker threads at work. Each runs the statements of its transaction on a
connection of its own, in any order with the others' statements and the calls' stretches, and any
statement may raise. Every such run is one of the system in which a transaction is one step. -/
namespace GatewaySuite.Router
open Python Limiter Lib
variable (limiter : SlidingWindowRateLimiter)

/-- The statements of a transaction, with the default `begin_statement`. -/
def Work.program (newId : Nat) : Work → Serial.Program (List Row) Limiter.Result
  | .reserve apiKey estimatedTokens now =>
    reserveStatements limiter .immediate newId apiKey estimatedTokens now
  | .commit reservationId actualTokens => commitStatements reservationId actualTokens
  | .release reservationId => releaseStatements reservationId

def Work.finished (work : Work) : Limiter.Result → Finished
  | .reserved result => .reserved result
  | _ =>
    match work with
    | .release _ => .released
    | _ => .committed

structure Thread where
  job : Job
  connection : Serial.Connection (List Row) Limiter.Result

namespace Thread

def spawn (c : Nat) (work : Work) : Thread := ⟨⟨c,work⟩,.ready (work.program limiter c)⟩

/-- The job that the thread has not finished. -/
def outstanding? (thread : Thread) : Option Job :=
  if thread.connection.open then some thread.job else none

end Thread

/-- A thread keeps its place in the list, which is the number of its connection. -/
structure ThreadSystem where
  shared : Serial.Shared Nat (List Row)
  breakers : Nat → CircuitBreaker
  calls : List Call
  threads : List Thread
  failed : List Nat
  lost : List Job

inductive ThreadEvent where
  | route (router : ModelRouter) (apiKey prompt : Str) (maxTokens : Int) (requestId : Str)
      (started reservedAt : ℚ)
  | wake (call : Nat) (wakeup : Wakeup)
  | executes (thread : Nat)
  | fails (thread : Nat)
  | raises (call : Nat)

namespace ThreadSystem

def start (breakers : Nat → CircuitBreaker) : ThreadSystem := ⟨⟨[],[],none⟩,breakers,[],[],[],[]⟩

def resume (t : ThreadSystem) (c : Nat) (wakeup : Wakeup) : Option ThreadSystem :=
  (t.calls[c]?).bind fun call =>
    (call.wake (t.breakers call.router.breaker) wakeup).map fun moved => {t with
      breakers := Function.update t.breakers moved.1.router.breaker moved.2
      calls := t.calls.set c moved.1
      threads := t.threads ++ moved.1.submits.map (Thread.spawn limiter c)
      failed := t.failed.filter (· ≠ c)}

/-- The calls after a statement of a thread: the result, if it returned one, reaches its call. -/
def told (t : ThreadSystem) (job : Job) (answer : Option Limiter.Result) : List Call :=
  match answer with
  | some result => t.calls.modify job.call fun call =>
      {call with pc := call.pc.deliver (job.work.finished result)}
  | none => t.calls

def step (t : ThreadSystem) : ThreadEvent → Option ThreadSystem
  | .route router apiKey prompt maxTokens requestId started reservedAt =>
    let call := Call.enter router apiKey prompt maxTokens requestId started reservedAt
    some {t with
      calls := t.calls ++ [call]
      threads := t.threads ++ call.submits.map (Thread.spawn limiter t.calls.length)}
  | .wake c wakeup => t.resume limiter c wakeup
  | .executes i =>
    (t.threads[i]?).bind fun thread =>
      (Serial.statement t.shared i thread.connection).map fun (shared,connection) => {t with
        shared := shared
        calls := t.told thread.job connection.answer
        threads := t.threads.set i {thread with connection := connection}}
  | .fails i =>
    -- The statement raises, or the wait for the lock times out; `finally` closes the connection.
    (t.threads[i]?).bind fun thread =>
      if thread.connection.open then
        let awaited := (t.calls[thread.job.call]?).any fun call => call.pc.awaits thread.job.work
        some {t with
          shared := t.shared.close thread.connection
          threads := t.threads.set i {thread with connection := .locked}
          failed := if awaited then thread.job.call::t.failed else t.failed
          lost := t.lost ++ [thread.job]}
      else none
  | .raises c => if c ∈ t.failed then t.resume limiter c .cancelled else none

def jobs (t : ThreadSystem) : List Job := t.threads.filterMap Thread.outstanding?

/-- What the system of whole transactions is, with the books it keeps of the table. -/
def faults (t : ThreadSystem) (books : Books) : FaultSystem :=
  ⟨⟨books,t.breakers,t.calls,t.jobs⟩,t.failed,t.lost⟩

/-- Each thread that is not over is somewhere in its own transaction. -/
def Working (t : ThreadSystem) : Prop :=
  ∀ (i : Nat) (thread : Thread), t.threads[i]? = some thread → thread.connection.open = true →
    thread.connection.Exclusive (thread.job.work.program limiter thread.job.call) t.shared i

end ThreadSystem

theorem program_eager (newId : Nat) (work : Work) : (work.program limiter newId).eager = true := by
  cases work with
  | reserve apiKey estimatedTokens now =>
    exact statements_eager (.reserve newId apiKey estimatedTokens now)
  | commit reservationId actualTokens => rfl
  | release reservationId => rfl

theorem program_within (newId : Nat) (work : Work) : (work.program limiter newId).Within 5 := by
  have each (op : Operation) : (statements limiter .immediate op).Within 5 :=
    statements_within op .immediate
  cases work with
  | reserve apiKey estimatedTokens now => exact each (.reserve newId apiKey estimatedTokens now)
  | commit reservationId actualTokens => exact each (.commit ⟨reservationId,[],0⟩ actualTokens)
  | release reservationId => exact each (.release ⟨reservationId,[],0⟩)

/-- Alone on the table, the statements of a transaction are the transaction. -/
theorem program_performs (books : Books) (newId : Nat) (work : Work) :
    (perform limiter books newId work).1 =
        work.finished ((work.program limiter newId).alone books.table).1 ∧
      (perform limiter books newId work).2.table =
        ((work.program limiter newId).alone books.table).2 := by
  cases work with
  | reserve apiKey estimatedTokens now =>
    have alone : (reserveStatements limiter .immediate newId apiKey estimatedTokens now).alone
        books.table = execute limiter books.table (.reserve newId apiKey estimatedTokens now) :=
      statements_alone limiter .immediate (.reserve newId apiKey estimatedTokens now) books.table
    rw [Work.program,alone,execute,
      ← books.reserve_reserveSync limiter apiKey estimatedTokens now newId]
    exact ⟨rfl,rfl⟩
  | commit reservationId actualTokens =>
    have alone : (commitStatements reservationId actualTokens).alone books.table =
        (.done,commitSync books.table reservationId actualTokens) :=
      statements_alone limiter .immediate (.commit ⟨reservationId,[],0⟩ actualTokens) books.table
    rw [Work.program,alone]
    exact ⟨rfl,rfl⟩
  | release reservationId =>
    have alone : (releaseStatements reservationId).alone books.table =
        (.done,releaseSync books.table reservationId) :=
      statements_alone limiter .immediate (.release ⟨reservationId,[],0⟩) books.table
    rw [Work.program,alone]
    exact ⟨rfl,rfl⟩

section
variable {α β : Type} {f : α → Option β}

theorem filterMap_kept {l : List α} {i : Nat} {x y : α} (here : l[i]? = some x) (same : f y = f x) :
    (l.set i y).filterMap f = l.filterMap f := by
  induction l generalizing i with
  | nil => simp at here
  | cons head rest ih =>
    cases i with
    | zero =>
      obtain rfl : head = x := by simpa using here
      simp [List.filterMap_cons,same]
    | succ i => simp [List.filterMap_cons,ih (by simpa using here)]

theorem filterMap_gone {l : List α} {i : Nat} {x y : α} {z : β} (here : l[i]? = some x)
    (kept : f x = some z) (gone : f y = none) :
    ∃ k, (l.filterMap f)[k]? = some z ∧ (l.set i y).filterMap f = (l.filterMap f).eraseIdx k := by
  induction l generalizing i with
  | nil => simp at here
  | cons head rest ih =>
    cases i with
    | zero =>
      obtain rfl : head = x := by simpa using here
      exact ⟨0,by simp [kept],by simp [kept,gone]⟩
    | succ i =>
      obtain ⟨k,found,erased⟩ := ih (by simpa using here)
      cases first : f head with
      | none => exact ⟨k,by simpa [first] using found,by simpa [first] using erased⟩
      | some w => exact ⟨k+1,by simpa [first] using found,by simpa [first] using erased⟩

end

namespace ThreadSystem

theorem spawned_jobs (c : Nat) (submitted : List Work) :
    (submitted.map (Thread.spawn limiter c)).filterMap Thread.outstanding? =
      submitted.map (Job.mk c) := by
  rw [List.filterMap_map,← List.filterMap_eq_map]
  rfl

theorem working_spawned {t : ThreadSystem} (working : t.Working limiter) (c : Nat)
    (submitted : List Work) :
    ({t with threads := t.threads ++ submitted.map (Thread.spawn limiter c)} :
      ThreadSystem).Working limiter := by
  intro i thread listed running
  dsimp only at listed ⊢
  rw [List.getElem?_append] at listed
  split_ifs at listed with old
  · exact working i thread listed running
  · obtain ⟨work,_,rfl⟩ := List.mem_map.mp (List.mem_of_getElem? listed)
    rfl

/-- A thread moves, and with it the shared part, but not what the others hold. -/
theorem working_moved {t : ThreadSystem} (working : t.Working limiter) {i : Nat} {thread : Thread}
    {shared : Serial.Shared Nat (List Row)} {c : Serial.Connection (List Row) Limiter.Result}
    (apart : shared = t.shared ∨ ∀ j, t.shared.writer = some j → j = i)
    (own : c.open = true →
      c.Exclusive (thread.job.work.program limiter thread.job.call) shared i) :
    ({t with shared := shared, threads := t.threads.set i {thread with connection := c}} :
      ThreadSystem).Working limiter := by
  intro j other listed running
  dsimp only at listed ⊢
  rw [List.getElem?_set] at listed
  split_ifs at listed with same inside
  · cases listed
    subst same
    exact own running
  · exact Serial.exclusive_apart (working j other listed running) (Ne.symm same) apart

theorem jobs_spawned (t : ThreadSystem) (c : Nat) (submitted : List Work) :
    (t.threads ++ submitted.map (Thread.spawn limiter c)).filterMap Thread.outstanding? =
      t.jobs ++ submitted.map (Job.mk c) := by
  rw [List.filterMap_append,spawned_jobs,jobs]

theorem resume_faults {t next : ThreadSystem} {c : Nat} {wakeup : Wakeup} (books : Books)
    (resumed : t.resume limiter c wakeup = some next) :
    ((t.faults books).system.step limiter (.wake c wakeup)).map ((t.faults books).resumed c) =
      some (next.faults books) ∧ next.shared = t.shared ∧
        (t.Working limiter → next.Working limiter) := by
  obtain ⟨call,known,moves⟩ := Option.bind_eq_some_iff.mp resumed
  obtain ⟨moved,woken,rfl⟩ := Option.map_eq_some_iff.mp moves
  refine ⟨?_,rfl,fun working => working_spawned limiter working c moved.1.submits⟩
  have spawned := jobs_spawned limiter t c moved.1.submits
  simp only [faults,System.step,known,Option.bind_some,woken,Option.map_some,System.put,
    FaultSystem.resumed]
  rw [← spawned]
  rfl

theorem outstanding_running {thread : Thread} (running : thread.connection.open = true) :
    thread.outstanding? = some thread.job := if_pos running

/-- A statement is nothing to the system of whole transactions until it returns; then it is the
transaction. -/
theorem executes_faults {t : ThreadSystem} {books : Books} {i : Nat} {thread : Thread}
    {shared : Serial.Shared Nat (List Row)} {c : Serial.Connection (List Row) Limiter.Result}
    (working : t.Working limiter) (same : books.table = t.shared.committed)
    (listed : t.threads[i]? = some thread)
    (ran : Serial.statement t.shared i thread.connection = some (shared,c)) :
    let next : ThreadSystem := {t with
      shared := shared
      calls := t.told thread.job c.answer
      threads := t.threads.set i {thread with connection := c}}
    ∃ moves books', run (FaultSystem.step limiter) (t.faults books) moves = some (next.faults books') ∧
      books'.table = shared.committed := by
  have running := Serial.statement_runs ran
  have exclusive := working i thread listed running
  have eager := program_eager limiter thread.job.call thread.job.work
  obtain ⟨still,kept⟩ | ⟨result,rfl,alone⟩ := Serial.statement_exclusive eager exclusive ran
  · refine ⟨[],books,?_,same.trans kept.symm⟩
    have idle : (t.threads.set i {thread with connection := c}).filterMap Thread.outstanding? =
        t.jobs := by
      apply filterMap_kept listed
      rw [outstanding_running running]
      exact outstanding_running (Serial.exclusive_open still)
    simp only [run,faults,told,Serial.exclusive_silent still,jobs,idle]
  · obtain ⟨k,found,erased⟩ := filterMap_gone (y := {thread with connection := .returned result})
      listed (outstanding_running running) rfl
    obtain ⟨finished,table⟩ := program_performs limiter books thread.job.call thread.job.work
    rw [same,alone] at finished table
    refine ⟨[.runs (.transaction k)],(perform limiter books thread.job.call thread.job.work).2,?_,table⟩
    simp only [run,FaultSystem.step,System.step,faults,jobs,found,erased,finished,told,
      Serial.Connection.answer,Option.map_some,Option.bind_some]

theorem fails_faults {t : ThreadSystem} (books : Books) {i : Nat} {thread : Thread}
    (listed : t.threads[i]? = some thread) (running : thread.connection.open = true) :
    let awaited := (t.calls[thread.job.call]?).any fun call => call.pc.awaits thread.job.work
    let next : ThreadSystem := {t with
      shared := t.shared.close thread.connection
      threads := t.threads.set i {thread with connection := .locked}
      failed := if awaited then thread.job.call::t.failed else t.failed
      lost := t.lost ++ [thread.job]}
    ∃ k, (t.faults books).step limiter (.fails k) = some (next.faults books) := by
  obtain ⟨k,found,erased⟩ := filterMap_gone (y := {thread with connection := .locked})
    listed (outstanding_running running) rfl
  refine ⟨k,?_⟩
  simp only [FaultSystem.step,faults,jobs,found,erased,Option.map_some]
  rfl

end ThreadSystem

/-- What a run of the threads shows: the calls, the breakers, and the table in the database. -/
def Refines (t : ThreadSystem) (f : FaultSystem) : Prop :=
  ∃ books, f = t.faults books ∧ books.table = t.shared.committed

theorem step_refines (t : ThreadSystem) (f : FaultSystem) (event : ThreadEvent)
    (next : ThreadSystem) (related : t.Working limiter ∧ Refines t f)
    (stepped : t.step limiter event = some next) :
    ∃ moves f', run (FaultSystem.step limiter) f moves = some f' ∧
      next.Working limiter ∧ Refines next f' := by
  obtain ⟨working,books,rfl,same⟩ := related
  cases event with
  | route router apiKey prompt maxTokens requestId started reservedAt =>
    cases stepped
    let call := Call.enter router apiKey prompt maxTokens requestId started reservedAt
    refine ⟨[.runs (.route router apiKey prompt maxTokens requestId started reservedAt)],_,rfl,
      ThreadSystem.working_spawned limiter working t.calls.length call.submits,books,?_,same⟩
    have spawned := ThreadSystem.jobs_spawned limiter t t.calls.length call.submits
    simp only [ThreadSystem.faults]
    rw [← spawned]
    rfl
  | wake c wakeup =>
    obtain ⟨resumed,shared,kept⟩ := t.resume_faults limiter books stepped
    refine ⟨[.runs (.wake c wakeup)],next.faults books,?_,kept working,books,rfl,?_⟩
    · simp only [run,FaultSystem.step,resumed,Option.bind_some]
    · rw [shared,same]
  | executes i =>
    obtain ⟨thread,listed,moves⟩ := Option.bind_eq_some_iff.mp stepped
    obtain ⟨⟨shared,c⟩,ran,rfl⟩ := Option.map_eq_some_iff.mp moves
    have running := Serial.statement_runs ran
    have exclusive := working i thread listed running
    have eager := program_eager limiter thread.job.call thread.job.work
    obtain ⟨moves,books',answered,table⟩ := t.executes_faults limiter working same listed ran
    refine ⟨moves,_,answered,?_,books',rfl,table⟩
    refine ThreadSystem.working_moved limiter working (Serial.statement_apart eager exclusive ran) ?_
    intro left
    obtain ⟨still,_⟩ | ⟨result,rfl,_⟩ := Serial.statement_exclusive eager exclusive ran
    · exact still
    · cases left
  | fails i =>
    obtain ⟨thread,listed,moves⟩ := Option.bind_eq_some_iff.mp stepped
    split_ifs at moves with running
    cases moves
    obtain ⟨k,failed⟩ := t.fails_faults limiter books listed running
    refine ⟨[.fails k],_,by rw [run,failed]; rfl,?_,books,rfl,?_⟩
    · refine ThreadSystem.working_moved limiter working
        (Serial.close_apart (working i thread listed running)) ?_
      intro left
      cases left
    · rw [same]
      exact (Serial.close_committed t.shared thread.connection).symm
  | raises c =>
    simp only [ThreadSystem.step] at stepped
    split_ifs at stepped with listed
    obtain ⟨resumed,shared,kept⟩ := t.resume_faults limiter books stepped
    refine ⟨[.raises c],next.faults books,?_,kept working,books,rfl,?_⟩
    · have member : c ∈ (t.faults books).failed := listed
      rw [run,FaultSystem.step,if_pos member,resumed]
      rfl
    · rw [shared,same]

/-- What an ended call whose threads are over leaves in the database. -/
structure Leaves (t : ThreadSystem) (c : Nat) (call : Call) (outcome : Outcome) : Prop where
  returned : ∀ response, outcome = .returned response →
    (∀ job ∈ t.lost, job.call ≠ c) ∧ ∀ row ∈ t.shared.committed, row.id = c →
      row = ⟨c,call.apiKey,response.completion.totalTokens,call.reservedAt,.committed⟩
  raised : (∀ response, outcome ≠ .returned response) → ∀ row ∈ t.shared.committed, row.id = c →
    outcome = .refused .cancelled ∨ ⟨c,.release c⟩ ∈ t.lost

theorem follows_leaves {t : ThreadSystem} {books : Books} {s : System} (coherent : Coherent s)
    (follows : Follows (t.faults books) s) (same : books.table = t.shared.committed) {c : Nat}
    {call : Call} {outcome : Outcome} (known : t.calls[c]? = some call)
    (ended : call.pc = .ended outcome) (finished : ∀ job ∈ t.jobs, job.call ≠ c) :
    Leaves t c call outcome := by
  obtain ⟨lossless,settled⟩ := follows_settled coherent follows known ended finished
  obtain ⟨jobs,rfl,_⟩ := follows
  have own : books.table.filter (fun row => row.id = c) =
      if evicted books.ledger c then [] else rows (holds books.ledger c) := own_rows coherent c
  have stored {row : Row} (member : row ∈ t.shared.committed) (mine : row.id = c) :
      row ∈ books.table.filter fun row => row.id = c := by
    rw [same]
    exact List.mem_filter.mpr ⟨member,by simpa using mine⟩
  constructor
  · rintro response rfl
    refine ⟨lossless response rfl,fun row member mine => ?_⟩
    have here := stored member mine
    have kept : Settled (t.faults books).system c call (.returned response) := by
      refine settled.mpr ?_
      rintro ⟨_,_,refused | lost⟩
      · cases refused
      · exact lossless response rfl _ lost rfl
    cases gone : evicted books.ledger c with
    | true =>
      rw [own,gone] at here
      cases here
    | false =>
      have only : books.table.filter (fun row => row.id = c) = [_] := kept.1 response rfl gone
      rw [only,List.mem_singleton] at here
      exact here
  · intro unanswered row member mine
    by_contra neither
    have kept := settled.mpr fun ⟨_,_,either⟩ => neither either
    have none : books.table.filter (fun row => row.id = c) = [] := kept.2.1 unanswered
    have here := stored member mine
    rw [none] at here
    cases here

variable {breakers : Nat → CircuitBreaker} {events : List ThreadEvent} {last : ThreadSystem}

theorem run_refines
    (ran : run (ThreadSystem.step limiter) (ThreadSystem.start breakers) events = some last) :
    last.Working limiter ∧ ∃ moves books,
      run (FaultSystem.step limiter) (FaultSystem.start breakers) moves = some (last.faults books) ∧
        books.table = last.shared.committed := by
  have idle : (ThreadSystem.start breakers).Working limiter := by
    intro i thread listed
    simp [ThreadSystem.start] at listed
  obtain ⟨moves,f,moved,working,books,rfl,same⟩ :=
    run_answered (step_refines limiter) ⟨idle,Books.empty,rfl,rfl⟩ ran
  exact ⟨working,moves,books,moved,same⟩

/-- Worker threads that run their statements in any order, each of which may raise, do no more
than a system where each transaction is one step or fails in one: the calls, the breakers and the
table in the database come out the same. So an ended call leaves nothing in the database but the
row of a returned response, unless nobody took its reservation or its release failed. -/
theorem threads_refine
    (ran : run (ThreadSystem.step limiter) (ThreadSystem.start breakers) events = some last) :
    (∃ moves books,
      run (FaultSystem.step limiter) (FaultSystem.start breakers) moves = some (last.faults books) ∧
        books.table = last.shared.committed) ∧
    ∀ c call outcome, last.calls[c]? = some call → call.pc = .ended outcome →
      (∀ job ∈ last.jobs, job.call ≠ c) → Leaves last c call outcome := by
  obtain ⟨_,moves,books,moved,same⟩ := run_refines limiter ran
  refine ⟨⟨moves,books,moved,same⟩,?_⟩
  intro c call outcome known ended finished
  obtain ⟨_,s,ran',follows⟩ := run_follows limiter moved
  have coherent := run_invariant (step_coherent limiter) (start_coherent breakers) ran'
  exact follows_leaves coherent follows same known ended finished

/-- Two calls of one tenant; the connection of the second breaks between its insert and its commit,
while the thread of the first waits to begin. -/
def brokenRun : List ThreadEvent :=
  [.route sampleRouter (lit "tenant-a") (lit "hello") 256 (lit "r1") 0 0,
    .route sampleRouter (lit "tenant-a") (lit "hello") 256 (lit "r2") 0 0,
    .executes 0,.executes 0,.executes 0,.executes 0,.executes 0,.executes 1,
    .wake 0 (.finished ⟨0,0,0⟩),.executes 1,
    .wake 0 (.answered (.completed ⟨lit "hi",1,2,lit "primary"⟩) ⟨1,1,10⟩),.executes 1,.executes 1,
    .fails 1,.raises 1,.executes 2,.executes 2,.executes 2,.wake 0 (.finished ⟨2,2,0⟩)]

def Pc.returned? : Pc → Option RoutedResponse
  | .ended (.returned response) => some response
  | _ => none

theorem Pc.returned?_some {pc : Pc} {response : RoutedResponse}
    (returned : pc.returned? = some response) : pc = .ended (.returned response) := by
  unfold Pc.returned? at returned
  split at returned
  · cases returned
    rfl
  · cases returned

theorem threads_refine_broken :
    ∃ last call, run (ThreadSystem.step ⟨50000,60⟩)
        (ThreadSystem.start fun _ => CircuitBreaker.default) brokenRun = some last ∧
      last.calls[0]? = some call ∧ ∀ row ∈ last.shared.committed, row.id = 0 →
        row.apiKey = call.apiKey ∧ row.state = .committed := by
  have ends : ((run (ThreadSystem.step ⟨50000,60⟩)
      (ThreadSystem.start fun _ => CircuitBreaker.default) brokenRun).any fun last =>
        last.jobs.isEmpty && (last.calls[0]?).any fun call => call.pc.returned?.isSome) = true := by
    decide +kernel
  obtain ⟨last,ran,here⟩ := (Option.any_eq_true ..).mp ends
  obtain ⟨idle,first⟩ := Bool.and_eq_true_iff.mp here
  obtain ⟨call,known,answered⟩ := (Option.any_eq_true ..).mp first
  obtain ⟨response,returned⟩ := Option.isSome_iff_exists.mp answered
  refine ⟨last,call,ran,known,fun row member mine => ?_⟩
  have leaves := (threads_refine ⟨50000,60⟩ ran).2 0 call _ known (Pc.returned?_some returned)
    (by simp [List.isEmpty_iff.mp idle])
  rw [(leaves.returned response rfl).2 row member mine]
  exact ⟨rfl,rfl⟩

end GatewaySuite.Router
