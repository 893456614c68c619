import GatewaySuite.Router.Accounting

/-! What a cancelled call leaves behind. Cancelled at a provider, at its commit or at its
release, it leaves nothing; but while it awaits its reserve it has not entered the `try` yet,
and the row that the worker thread goes on to insert stays reserved. -/
namespace GatewaySuite.Router
open Python Limiter Lib
variable (limiter : SlidingWindowRateLimiter)

def HangsUp (c : Nat) (s : System) (event : Event) : Prop :=
  event = .wake c .cancelled ∧ ∃ call result, s.calls[c]? = some call ∧ call.pc = .reserve result

def Admits (c : Nat) (s : System) (event : Event) : Prop :=
  ∃ i job reservation, event = .transaction i ∧ s.jobs[i]? = some job ∧ job.call = c ∧
    (perform limiter s.books c job.work).1 = .reserved (.ok reservation)

/-- The row of an ended call: committed with the count if it returned a response, absent if
not, and in no case left in state `reserved`. -/
def Settled (s : System) (c : Nat) (call : Call) (outcome : Outcome) : Prop :=
  let own := s.books.table.filter fun row => row.id = c
  (∀ response, outcome = .returned response → evicted s.books.ledger c = false →
    own = [⟨c,call.apiKey,response.completion.totalTokens,call.reservedAt,.committed⟩]) ∧
  ((∀ response, outcome ≠ .returned response) → own = []) ∧
  ∀ row ∈ own, row.state ≠ .reserved

def HungUp (c : Nat) (s : System) : Prop :=
  ∃ call, s.calls[c]? = some call ∧ call.pc = .ended (.refused .cancelled)

theorem step_hungUp (c : Nat) (s : System) (event : Event) (next : System)
    (stepped : s.step limiter event = some next) :
    HungUp c next ↔ HungUp c s ∨ HangsUp c s event := by
  constructor
  · rintro ⟨call,known,ended⟩
    obtain ⟨awaits,_⟩ | ⟨previous,old,moves⟩ := step_arisen limiter stepped known
    · cases awaits.symm.trans ended
    · obtain ⟨wakeup,same,turned⟩ | ⟨_,rfl | ⟨finished,rfl⟩⟩ := moves
      · have turn := turned.turn
        rw [ended] at turn
        obtain ⟨so,result,awaited⟩ := turn_hungUp turn
        rw [isCancelled_eq so] at same
        exact Or.inr ⟨same,previous,result,old,awaited⟩
      · exact Or.inl ⟨call,old,ended⟩
      · exact Or.inl ⟨previous,old,deliver_ended.mp ended⟩
  · rintro (⟨call,known,ended⟩ | ⟨rfl,call,result,known,awaited⟩)
    · obtain ⟨call',known',moves⟩ := step_known limiter stepped known
      refine ⟨call',known',?_⟩
      obtain ⟨wakeup,_,turned⟩ | ⟨_,rfl | ⟨finished,rfl⟩⟩ := moves
      · have turn := turned.turn
        rw [ended] at turn
        exact (turn_ended turn).elim
      · exact ended
      · exact deliver_ended.mpr ended
    · obtain ⟨call',known',moves⟩ := step_known limiter stepped known
      refine ⟨call',known',?_⟩
      obtain ⟨wakeup,same,turned⟩ | ⟨other,_⟩ := moves
      · cases same
        have turn := turned.turn
        rw [awaited] at turn
        exact turn_reserve_cancelled turn
      · exact absurd rfl (other .cancelled)

theorem effect_admits {id : Nat} {work : Work} {finished : Finished} {before after : List Entry}
    (effect : Effect id work finished before after) :
    after ≠ [] ↔ before ≠ [] ∨ ∃ reservation, finished = .reserved (.ok reservation) := by
  cases effect <;> simp

theorem step_admitted (c : Nat) (s : System) (event : Event) (next : System)
    (coherent : Coherent s) (stepped : s.step limiter event = some next) :
    holds next.books.ledger c ≠ [] ↔ holds s.books.ledger c ≠ [] ∨ Admits limiter c s event := by
  cases event with
  | route router apiKey prompt maxTokens requestId started reservedAt =>
    simp only [System.step,Option.some.injEq] at stepped
    subst next
    simp [Admits]
  | wake c' wakeup =>
    obtain ⟨woken,_,moves⟩ := Option.bind_eq_some_iff.mp stepped
    obtain ⟨moved,_,rfl⟩ := Option.map_eq_some_iff.mp moves
    simp [Admits,System.put]
  | transaction i =>
    obtain ⟨job,listed,rfl⟩ := Option.map_eq_some_iff.mp stepped
    obtain ⟨effect,frame⟩ :=
      perform_effect limiter s.books job.call job.work (listed_belongs coherent listed)
    by_cases own : job.call = c
    · subst c
      have admits : Admits limiter job.call s (.transaction i) ↔ ∃ reservation,
          (perform limiter s.books job.call job.work).1 = .reserved (.ok reservation) := by
        constructor
        · rintro ⟨i',job',reservation,same,listed',_,admitted⟩
          cases same
          cases listed.symm.trans listed'
          exact ⟨reservation,admitted⟩
        · rintro ⟨reservation,admitted⟩
          exact ⟨i,job,reservation,rfl,listed,rfl,admitted⟩
      rw [admits]
      exact effect_admits effect
    · have foreign : ¬Admits limiter c s (.transaction i) := by
        rintro ⟨i',job',reservation,same,listed',mine,_⟩
        cases same
        cases listed.symm.trans listed'
        exact own mine
      dsimp only
      rw [frame c (Ne.symm own)]
      exact (or_iff_left foreign).symm

/-- For every call that has ended and whose transactions have all finished, in every run: its
row is settled, unless the call was cancelled while it awaited a reserve that the limiter
admits, and the row is not too old yet. -/
theorem cancellation_settled_iff (breakers : Nat → CircuitBreaker) (events : List Event)
    (last : System) (ran : run (System.step limiter) (System.start breakers) events = some last)
    (c : Nat) (call : Call) (outcome : Outcome) (known : last.calls[c]? = some call)
    (ended : call.pc = .ended outcome) (finished : ∀ job ∈ last.jobs, job.call ≠ c) :
    Settled last c call outcome ↔
      ¬(Takes (System.step limiter) (HangsUp c) (System.start breakers) events ∧
        Takes (System.step limiter) (Admits limiter c) (System.start breakers) events ∧
        evicted last.books.ledger c = false) := by
  have coherent := run_invariant (step_coherent limiter) (start_coherent breakers) ran
  have hangs := takes_iff (fun _ _ _ _ _ => trivial)
    (fun s event next (_ : True) => step_hungUp limiter c s event next) trivial ran
  have admits := takes_iff (step_coherent limiter) (step_admitted limiter c)
    (start_coherent breakers) ran
  rw [or_iff_right (by simp [HungUp,System.start])] at hangs
  rw [or_iff_right (by simp [System.start,Books.empty,holds])] at admits
  rw [← hangs,← admits]
  have hung : HungUp c last ↔ outcome = .refused .cancelled := by
    simp [HungUp,known,ended]
  have here := coherent c
  have own := own_rows coherent c
  have idle : works last.jobs c = [] := by
    simpa [works,List.filter_eq_nil_iff] using finished
  rw [known] at here
  dsimp only at here
  rw [ended,idle] at here
  rw [hung,Settled,own]
  generalize evicted last.books.ledger c = gone
  generalize holds last.books.ledger c = entries at here
  generalize none : ([] : List Work) = left at here
  cases here with
  | returned response => cases gone <;> simp [rows,Entry.present,Entry.row,Call.hold,opened]
  | refused exn plain => simp [rows]
  | failed exn plain => simp [rows,Entry.present]
  | drained done holds works state =>
    cases state with
    | asked actual front back before behind => simp at none
    | given actual works commits => simp [rows,Entry.present]
  | hungUp => cases none
  | hungUpRefused => simp [rows]
  | leaked => cases gone <;> simp [rows,Entry.present,Entry.row,Call.hold,opened]

/-- The client disconnects while a provider is answering. -/
def abortRun : List Event :=
  [.route sampleRouter (lit "tenant-a") (lit "hello") 256 (lit "r1") 0 0,.transaction 0,
    .wake 0 (.finished ⟨0,0,0⟩),.wake 0 .cancelled,.transaction 0,.wake 0 (.finished ⟨0,0,0⟩)]

theorem cancellation_settled_iff_abort :
    ∃ last call, run (System.step ⟨50000,60⟩) (System.start fun _ => CircuitBreaker.default)
        abortRun = some last ∧
      (Settled last 0 call (.failed .cancelled) ↔
        ¬(Takes (System.step ⟨50000,60⟩) (HangsUp 0) (System.start fun _ => CircuitBreaker.default)
            abortRun ∧
          Takes (System.step ⟨50000,60⟩) (Admits ⟨50000,60⟩ 0)
            (System.start fun _ => CircuitBreaker.default) abortRun ∧
          evicted last.books.ledger 0 = false)) := by
  obtain ⟨last,call,ran,known,ended,jobs⟩ : ∃ last call,
      run (System.step ⟨50000,60⟩) (System.start fun _ => CircuitBreaker.default) abortRun =
        some last ∧
      last.calls[0]? = some call ∧ call.pc = .ended (.failed .cancelled) ∧ last.jobs = [] :=
    ⟨_,_,rfl,rfl,rfl,rfl⟩
  exact ⟨last,call,ran,
    cancellation_settled_iff _ _ _ last ran 0 call _ known ended (by simp [jobs])⟩

/-- The client disconnects while the worker thread is still inserting the row. -/
def hangUpRun : List Event :=
  [.route sampleRouter (lit "tenant-a") (lit "hello") 256 (lit "r1") 0 0,.wake 0 .cancelled,
    .transaction 0]

theorem cancelled_reserve_leaks :
    ¬∀ (limiter : SlidingWindowRateLimiter) (breakers : Nat → CircuitBreaker) (events : List Event)
      (last : System), run (System.step limiter) (System.start breakers) events = some last →
      ∀ c call outcome, last.calls[c]? = some call → call.pc = .ended outcome →
        (∀ job ∈ last.jobs, job.call ≠ c) → Settled last c call outcome := by
  intro every
  obtain ⟨last,call,ran,known,ended,table,jobs⟩ : ∃ last call,
      run (System.step ⟨50000,60⟩) (System.start fun _ => CircuitBreaker.default) hangUpRun =
        some last ∧
      last.calls[0]? = some call ∧ call.pc = .ended (.refused .cancelled) ∧
      last.books.table = [⟨0,lit "tenant-a",257,0,.reserved⟩] ∧ last.jobs = [] :=
    ⟨_,_,rfl,rfl,rfl,rfl,rfl⟩
  have settled := every _ _ _ last ran 0 call _ known ended (by simp [jobs])
  exact settled.2.2 ⟨0,lit "tenant-a",257,0,.reserved⟩ (by simp [table]) rfl

end GatewaySuite.Router
