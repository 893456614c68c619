import GatewaySuite.Router.Cancellation

/-! The router over a database that can fail. A transaction that raises, or never leaves the
queue of the pool, has changed nothing, and its exception goes the way of a cancellation: such a
run is one of the system in which that transaction never gets the write lock and the call that
awaited it is cancelled. -/
namespace GatewaySuite.Router
open Python Limiter Lib
variable (limiter : SlidingWindowRateLimiter)

inductive FaultEvent where
  | runs (event : Event)
  | fails (job : Nat)
  | raises (call : Nat)

/-- `failed` are the calls whose worker thread has raised and that have not run since; `lost` are
the transactions that never took effect: those that raised, and those that a cancelled await
withdrew from the pool's queue, which `fails` too, with nobody left to raise to. -/
structure FaultSystem where
  system : System
  failed : List Nat
  lost : List Job

def Pc.awaits (pc : Pc) (work : Work) : Bool :=
  match pc,work with
  | .reserve none,.reserve _ _ _ => true
  | .commit _ _ false,.commit _ _ => true
  | .release _ _ false,.release _ => true
  | _,_ => false

namespace FaultSystem

def start (breakers : Nat → CircuitBreaker) : FaultSystem := ⟨System.start breakers,[],[]⟩

def resumed (s : FaultSystem) (c : Nat) (system : System) : FaultSystem :=
  {s with system := system, failed := s.failed.filter (· ≠ c)}

/-- At the await `sqlite3.OperationalError` is caught no more than `CancelledError` is: before the
`try` it ends the call, in the `try` it goes to the `finally`, and there it replaces what was
being raised. `Exn.cancelled` stands for either. -/
def step (s : FaultSystem) : FaultEvent → Option FaultSystem
  | .runs (.wake c wakeup) => (s.system.step limiter (.wake c wakeup)).map (s.resumed c)
  | .runs event => (s.system.step limiter event).map fun system => {s with system := system}
  | .fails i =>
    (s.system.jobs[i]?).map fun job =>
      let awaited := (s.system.calls[job.call]?).any fun call => call.pc.awaits job.work
      {s with
        system := {s.system with jobs := s.system.jobs.eraseIdx i}
        failed := if awaited then job.call::s.failed else s.failed
        lost := s.lost ++ [job]}
  | .raises c =>
    if c ∈ s.failed then (s.system.step limiter (.wake c .cancelled)).map (s.resumed c) else none

end FaultSystem

/-- The system in which the lost transactions are outstanding for ever. -/
def Follows (f : FaultSystem) (s : System) : Prop :=
  ∃ jobs, s = {f.system with jobs := jobs} ∧ jobs.Perm (f.system.jobs ++ f.lost)

theorem start_follows (breakers : Nat → CircuitBreaker) :
    Follows (FaultSystem.start breakers) (System.start breakers) :=
  ⟨[],rfl,List.Perm.refl _⟩

theorem erase_perm {jobs : List Job} {i : Nat} {job : Job} (listed : jobs[i]? = some job) :
    jobs.Perm (job::jobs.eraseIdx i) := by
  obtain ⟨inside,rfl⟩ := List.getElem?_eq_some_iff.mp listed
  exact (List.getElem_cons_eraseIdx_perm inside).symm

theorem wake_follows {f : FaultSystem} {s system : System} {c : Nat} {wakeup : Wakeup}
    (follows : Follows f s) (stepped : f.system.step limiter (.wake c wakeup) = some system) :
    ∃ next, s.step limiter (.wake c wakeup) = some next ∧ Follows (f.resumed c system) next := by
  obtain ⟨jobs,rfl,perm⟩ := follows
  obtain ⟨call,known,moves⟩ := Option.bind_eq_some_iff.mp stepped
  obtain ⟨moved,woken,rfl⟩ := Option.map_eq_some_iff.mp moves
  refine ⟨({f.system with jobs := jobs} : System).put c moved,?_,_,rfl,?_⟩
  · simp only [System.step,known,Option.bind_some,woken,Option.map_some]
  · have more := perm.append_right (moved.1.submits.map (Job.mk c))
    rw [List.append_assoc] at more
    refine more.trans ?_
    simp only [FaultSystem.resumed,System.put,List.append_assoc]
    exact List.perm_append_comm.append_left _

theorem step_follows (f : FaultSystem) (s : System) (event : FaultEvent) (next : FaultSystem)
    (follows : Follows f s) (stepped : f.step limiter event = some next) :
    ∃ events last, run (System.step limiter) s events = some last ∧ Follows next last := by
  cases event with
  | runs event =>
    cases event with
    | wake c wakeup =>
      obtain ⟨system,here,rfl⟩ := Option.map_eq_some_iff.mp stepped
      obtain ⟨last,there,after⟩ := wake_follows limiter follows here
      exact ⟨[.wake c wakeup],last,by simp [run,there],after⟩
    | route router apiKey prompt maxTokens requestId started reservedAt =>
      obtain ⟨jobs,rfl,perm⟩ := follows
      cases stepped
      refine ⟨[.route router apiKey prompt maxTokens requestId started reservedAt],_,rfl,_,rfl,?_⟩
      refine (perm.append_right _).trans ?_
      simp only [List.append_assoc]
      exact List.perm_append_comm.append_left _
    | transaction i =>
      obtain ⟨system,here,rfl⟩ := Option.map_eq_some_iff.mp stepped
      obtain ⟨jobs,rfl,perm⟩ := follows
      obtain ⟨job,listed,rfl⟩ := Option.map_eq_some_iff.mp here
      have member : job ∈ jobs :=
        perm.mem_iff.mpr (List.mem_append_left _ (List.mem_of_getElem? listed))
      obtain ⟨j,inside⟩ := List.mem_iff_getElem?.mp member
      refine ⟨[.transaction j],_,?_,jobs.eraseIdx j,rfl,?_⟩
      · simp only [run,System.step,inside,Option.map_some,Option.bind_some]
      · have whole := (erase_perm inside).symm.trans
          (perm.trans ((erase_perm listed).append_right f.lost))
        exact (List.perm_cons job).mp whole
  | fails i =>
    obtain ⟨job,listed,rfl⟩ := Option.map_eq_some_iff.mp stepped
    obtain ⟨jobs,rfl,perm⟩ := follows
    refine ⟨[],_,rfl,jobs,rfl,perm.trans ?_⟩
    refine ((erase_perm listed).append_right f.lost).trans ?_
    have behind : (job::(f.system.jobs.eraseIdx i ++ f.lost)).Perm
        (f.system.jobs.eraseIdx i ++ f.lost ++ [job]) := (List.perm_append_singleton job _).symm
    rwa [List.append_assoc] at behind
  | raises c =>
    simp only [FaultSystem.step] at stepped
    split_ifs at stepped
    obtain ⟨system,here,rfl⟩ := Option.map_eq_some_iff.mp stepped
    obtain ⟨last,there,after⟩ := wake_follows limiter follows here
    exact ⟨[.wake c .cancelled],last,by simp [run,there],after⟩

theorem run_follows {breakers : Nat → CircuitBreaker} {events : List FaultEvent} {last : FaultSystem}
    (ran : run (FaultSystem.step limiter) (FaultSystem.start breakers) events = some last) :
    ∃ events' s, run (System.step limiter) (System.start breakers) events' = some s ∧
      Follows last s :=
  run_answered (fun s a event next follows stepped => step_follows limiter s a event next follows stepped)
    (start_follows breakers) ran

theorem mem_works {jobs : List Job} {c : Nat} {work : Work} :
    work ∈ works jobs c ↔ ⟨c,work⟩ ∈ jobs := by
  unfold works
  constructor
  · intro member
    obtain ⟨⟨call,work'⟩,inside,rfl⟩ := List.mem_map.mp member
    obtain ⟨listed,own⟩ := List.mem_filter.mp inside
    obtain rfl : call = c := by simpa using own
    exact listed
  · intro listed
    exact List.mem_map.mpr ⟨⟨c,work⟩,List.mem_filter.mpr ⟨listed,by simp⟩,rfl⟩

theorem follows_works {f : FaultSystem} {s : System} (follows : Follows f s) {c : Nat}
    (finished : ∀ job ∈ f.system.jobs, job.call ≠ c) :
    ∀ work, work ∈ works s.jobs c ↔ ⟨c,work⟩ ∈ f.lost := by
  obtain ⟨jobs,rfl,perm⟩ := follows
  intro work
  rw [mem_works,perm.mem_iff,List.mem_append,or_iff_right]
  intro listed
  exact finished _ listed rfl

theorem draining_release {hold : Entry} {done : Bool} {holds : List Entry} {works : List Work}
    (draining : Draining hold done holds works) : .release hold.id ∈ works ↔ done = false := by
  cases draining with
  | asked actual front back before behind => simp
  | given actual works commits =>
    refine iff_of_false (fun member => ?_) (by simp)
    obtain ⟨count,same⟩ := commits _ member
    cases same

theorem returned_idle {hold : Entry} {response : RoutedResponse} {entries : List Entry}
    {works : List Work} (sound : Sound hold (.ended (.returned response)) entries works) : works = [] := by
  cases sound
  rfl

theorem follows_settled {f : FaultSystem} {s : System} (coherent : Coherent s) (follows : Follows f s)
    {c : Nat} {call : Call} {outcome : Outcome} (known : f.system.calls[c]? = some call)
    (ended : call.pc = .ended outcome) (finished : ∀ job ∈ f.system.jobs, job.call ≠ c) :
    (∀ response, outcome = .returned response → ∀ job ∈ f.lost, job.call ≠ c) ∧
    (Settled f.system c call outcome ↔
      ¬(holds f.system.books.ledger c ≠ [] ∧ evicted f.system.books.ledger c = false ∧
        (outcome = .refused .cancelled ∨ ⟨c,.release c⟩ ∈ f.lost))) := by
  have left := follows_works follows finished
  obtain ⟨jobs,rfl,_⟩ := follows
  have here := coherent c
  have own := own_rows coherent c
  dsimp only at here left own
  rw [known] at here
  dsimp only at here
  rw [ended] at here
  rw [← left (.release c)]
  generalize works jobs c = outstanding at here left
  constructor
  · rintro response rfl ⟨call',work⟩ lost rfl
    have member := (left work).mpr lost
    rw [returned_idle here] at member
    cases member
  · rw [Settled,own]
    generalize evicted f.system.books.ledger c = gone
    generalize holds f.system.books.ledger c = entries at here
    cases here with
    | returned response => cases gone <;> simp [rows,Entry.present,Entry.row,Call.hold,opened]
    | refused exn plain => simp [rows]
    | failed exn plain => simp [rows,Entry.present]
    | drained done holds works state =>
      have released := draining_release state
      cases state with
      | asked actual front back before behind =>
        cases gone <;> simp [rows,Entry.present,Entry.row,Call.hold,opened]
      | given actual works commits =>
        have kept : .release c ∉ outstanding := by simpa [Call.hold,opened] using released
        simp [rows,Entry.present,kept]
    | hungUp => simp [rows]
    | hungUpRefused => simp [rows]
    | leaked => cases gone <;> simp [rows,Entry.present,Entry.row,Call.hold,opened]

/-- For every ended call of every run with lost transactions and cancellations: a call that
returned a response has lost none; and its row is settled, unless the limiter admitted it, the
row is not too old yet, and either the call gave up on its reserve or its release was lost. -/
theorem faults_settled (breakers : Nat → CircuitBreaker) (events : List FaultEvent) (last : FaultSystem)
    (ran : run (FaultSystem.step limiter) (FaultSystem.start breakers) events = some last)
    (c : Nat) (call : Call) (outcome : Outcome) (known : last.system.calls[c]? = some call)
    (ended : call.pc = .ended outcome) (finished : ∀ job ∈ last.system.jobs, job.call ≠ c) :
    (∀ response, outcome = .returned response → ∀ job ∈ last.lost, job.call ≠ c) ∧
    (Settled last.system c call outcome ↔
      ¬(holds last.system.books.ledger c ≠ [] ∧ evicted last.system.books.ledger c = false ∧
        (outcome = .refused .cancelled ∨ ⟨c,.release c⟩ ∈ last.lost))) := by
  obtain ⟨events',s,ran',follows⟩ := run_follows limiter ran
  have coherent := run_invariant (step_coherent limiter) (start_coherent breakers) ran'
  exact follows_settled coherent follows known ended finished

/-- The commit of an answered call fails; then the release is taken up. -/
def unbilledRun (release : FaultEvent) : List FaultEvent :=
  [.runs (.route sampleRouter (lit "tenant-a") (lit "hello") 256 (lit "r1") 0 0),
    .runs (.transaction 0),.runs (.wake 0 (.finished ⟨0,0,0⟩)),
    .runs (.wake 0 (.answered (.completed ⟨lit "hi",1,2,lit "primary"⟩) ⟨1,1,10⟩)),
    .fails 0,.raises 0,release]

def settledRun : List FaultEvent :=
  unbilledRun (.runs (.transaction 0)) ++ [.runs (.wake 0 (.finished ⟨2,2,0⟩))]

theorem faults_settled_unbilled :
    ∃ last call, run (FaultSystem.step ⟨50000,60⟩) (FaultSystem.start fun _ => CircuitBreaker.default)
        settledRun = some last ∧
      last.lost.length = 1 ∧ Settled last.system 0 call (.failed .cancelled) := by
  obtain ⟨last,call,ran,known,ended,jobs,lost⟩ : ∃ last call,
      run (FaultSystem.step ⟨50000,60⟩) (FaultSystem.start fun _ => CircuitBreaker.default)
        settledRun = some last ∧
      last.system.calls[0]? = some call ∧ call.pc = .ended (.failed .cancelled) ∧
      last.system.jobs = [] ∧ last.lost = [⟨0,.commit 0 3⟩] := ⟨_,_,rfl,rfl,rfl,rfl,rfl⟩
  refine ⟨last,call,ran,by rw [lost]; rfl,?_⟩
  have settled := (faults_settled _ _ _ last ran 0 call _ known ended (by simp [jobs])).2
  exact settled.mpr (by simp [lost])

-- Where the release fails too, the row stays reserved until it is too old.
example : ∃ last, run (FaultSystem.step ⟨50000,60⟩) (FaultSystem.start fun _ => CircuitBreaker.default)
      (unbilledRun (.fails 0) ++ [.raises 0]) = some last ∧
    last.system.calls.map Call.pc = [.ended (.failed .cancelled)] ∧
    last.system.books.table = [⟨0,lit "tenant-a",257,0,.reserved⟩] := ⟨_,rfl,rfl,rfl⟩

end GatewaySuite.Router
