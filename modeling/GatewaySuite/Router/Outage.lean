import GatewaySuite.Router.App
import GatewaySuite.Router.Liveness

/-! What a client sees of a database that fails: an internal error, exactly where its call lost a
transaction, or its completion cannot be written. -/
namespace GatewaySuite.Router
open Python Limiter Lib
variable (limiter : SlidingWindowRateLimiter)

def FaultSystem.loses (f : FaultSystem) (c : Nat) : Prop := ∃ job ∈ f.lost, job.call = c

def FaultEvent.cancels : FaultEvent → Bool
  | .runs event => event.cancels
  | _ => false

/-- Without cancellations a call has at most the one transaction outstanding that it awaits; once
that is lost the call has an exception to raise, and once that is raised its end is marked. -/
def Heard (call : Call) (outstanding : List Work) (failed lost : Prop) : Prop :=
  outstanding = call.submits ∧ ¬failed ∧ (lost ↔ call.pc.steady = false) ∨
  outstanding = [] ∧ failed ∧ lost ∧ call.submits ≠ []

def FaultSystem.Tallied (f : FaultSystem) : Prop :=
  ∀ c, match f.system.calls[c]? with
    | none => works f.system.jobs c = [] ∧ c ∉ f.failed ∧ ¬f.loses c
    | some call => Heard call (works f.system.jobs c) (c ∈ f.failed) (f.loses c)

theorem turn_steady_eq {before after : Pc} (turn : Turn false before after) :
    after.steady = before.steady := by
  cases turn with
  | refuse error exn plain => exact (plain_iff exn).mpr plain
  | expire reservation exn plain => exact (plain_iff exn).mpr plain
  | fail reservation provider rest timeoutS exn plain => exact (plain_iff exn).mpr plain
  | _ => rfl

theorem turn_marked {before after : Pc} (turn : Turn true before after) : after.steady = false := by
  cases turn <;> rfl

theorem deliver_steady_eq (pc : Pc) (finished : Finished) :
    (pc.deliver finished).steady = pc.steady := by
  unfold Pc.deliver
  split <;> rfl

/-- A turn that is no cancellation takes a result, and awaits nothing before it. -/
theorem turn_idle {call : Call} {after : Pc} (turn : Turn false call.pc after) :
    call.submits = [] := by
  unfold Call.submits
  generalize call.pc = before at turn
  cases turn <;> rfl

theorem turned_heard {call next : Call} {cancelled : Bool} {outstanding : List Work}
    {failed lost : Prop} (heard : Heard call outstanding failed lost)
    (turned : call.Turned next cancelled) (cause : cancelled = true → failed) :
    Heard next (outstanding ++ next.submits) False lost := by
  have turn := turned.turn
  obtain ⟨rfl,absent,account⟩ | ⟨rfl,_,lost,awaits⟩ := heard
  · cases cancelled with
    | true => exact absurd (cause rfl) absent
    | false =>
      rw [turn_idle turn]
      exact Or.inl ⟨rfl,not_false,by rw [turn_steady_eq turn]; exact account⟩
  · cases cancelled with
    | true => exact Or.inl ⟨rfl,not_false,iff_of_true lost (turn_marked turn)⟩
    | false => exact absurd (turn_idle turn) awaits

theorem resumed_tallied {f : FaultSystem} {c : Nat} {wakeup : Wakeup} {system : System}
    (tallied : f.Tallied) (stepped : f.system.step limiter (.wake c wakeup) = some system)
    (cause : wakeup.isCancelled = true → c ∈ f.failed) : (f.resumed c system).Tallied := by
  obtain ⟨call,known,moves⟩ := Option.bind_eq_some_iff.mp stepped
  obtain ⟨moved,woken,rfl⟩ := Option.map_eq_some_iff.mp moves
  have inside := (List.getElem?_eq_some_iff.mp known).1
  intro other
  have here := tallied other
  simp only [FaultSystem.resumed,FaultSystem.loses,System.put,List.getElem?_set,works_append,
    works_submitted,List.mem_filter] at here ⊢
  by_cases own : c = other
  · subst own
    rw [known] at here
    have heard := turned_heard here (Call.wake_turned woken) cause
    simpa [inside] using heard
  · simpa [own,Ne.symm own] using here

/-- A call with a transaction outstanding awaits that one, and has no other. -/
theorem listed_heard {f : FaultSystem} (tallied : f.Tallied) {i : Nat} {job : Job}
    (listed : f.system.jobs[i]? = some job) :
    ∃ call, f.system.calls[job.call]? = some call ∧ call.submits = [job.work] ∧
      works (f.system.jobs.eraseIdx i) job.call = [] ∧ job.call ∉ f.failed ∧
      (f.loses job.call ↔ call.pc.steady = false) := by
  obtain ⟨⟨front,back,whole,left⟩,_⟩ := works_eraseIdx listed
  have here := tallied job.call
  rw [whole] at here
  cases known : f.system.calls[job.call]? with
  | none =>
    rw [known] at here
    simp at here
  | some call =>
    rw [known] at here
    obtain ⟨only,absent,account⟩ | ⟨none,_⟩ := here
    · have one := call.submits_length
      rw [← only,List.length_append,List.length_cons] at one
      obtain rfl : front = [] := List.eq_nil_of_length_eq_zero (by omega)
      obtain rfl : back = [] := List.eq_nil_of_length_eq_zero (by omega)
      exact ⟨call,rfl,only.symm,left,absent,account⟩
    · simp at none

theorem transaction_tallied {f : FaultSystem} {i : Nat} {system : System} (tallied : f.Tallied)
    (stepped : f.system.step limiter (.transaction i) = some system) :
    ({f with system := system} : FaultSystem).Tallied := by
  obtain ⟨job,listed,rfl⟩ := Option.map_eq_some_iff.mp stepped
  obtain ⟨call,known,only,left,absent,account⟩ := listed_heard tallied listed
  intro c
  dsimp only
  rw [List.getElem?_modify]
  by_cases own : job.call = c
  · subst own
    rw [known]
    simp only [if_true,Option.map_eq_map,Option.map_some]
    refine Or.inl ⟨?_,absent,?_⟩
    · rw [left]
      refine (List.eq_nil_iff_forall_not_mem.mpr fun work submitted => ?_).symm
      obtain ⟨kept,apart⟩ := deliver_submits limiter submitted
      rw [only,List.mem_singleton] at kept
      exact apart kept
    · rw [deliver_steady_eq]
      exact account
  · have here := tallied c
    rw [(works_eraseIdx listed).2 c (Ne.symm own)]
    simpa [own,FaultSystem.loses] using here

theorem step_tallied {f next : FaultSystem} {event : FaultEvent} (patient : event.cancels = false)
    (tallied : f.Tallied) (stepped : f.step limiter event = some next) : next.Tallied := by
  cases event with
  | runs event =>
    cases event with
    | wake c wakeup =>
      obtain ⟨system,here,rfl⟩ := Option.map_eq_some_iff.mp stepped
      refine resumed_tallied limiter tallied here fun cancelled => ?_
      cases patient.symm.trans cancelled
    | transaction i =>
      obtain ⟨system,here,rfl⟩ := Option.map_eq_some_iff.mp stepped
      exact transaction_tallied limiter tallied here
    | route router apiKey prompt maxTokens requestId started reservedAt =>
      cases stepped
      intro c
      have here := tallied c
      simp only [works_append,works_submitted,FaultSystem.loses] at here ⊢
      rcases Nat.lt_trichotomy c f.system.calls.length with old | rfl | beyond
      · rw [List.getElem?_append_left old,if_neg old.ne',List.append_nil]
        exact here
      · rw [List.getElem?_eq_none le_rfl] at here
        obtain ⟨idle,absent,lossless⟩ := here
        rw [List.getElem?_concat_length,if_pos rfl,idle]
        exact Or.inl ⟨rfl,absent,iff_of_false lossless (by simp [Call.enter,Pc.steady])⟩
      · rw [List.getElem?_eq_none beyond.le] at here
        have longer : (f.system.calls ++ [Call.enter router apiKey prompt maxTokens requestId
            started reservedAt]).length ≤ c := by
          rw [List.length_append]
          exact beyond
        rw [List.getElem?_eq_none longer,if_neg beyond.ne,List.append_nil]
        exact here
  | fails i =>
    obtain ⟨job,listed,rfl⟩ := Option.map_eq_some_iff.mp stepped
    obtain ⟨call,known,only,left,_,_⟩ := listed_heard tallied listed
    have awaited :
        (f.system.calls[job.call]?).any (fun call => call.pc.awaits job.work) = true := by
      rw [known]
      exact submits_awaits (by simp [only])
    intro c
    simp only [FaultSystem.loses,awaited,if_true]
    by_cases own : job.call = c
    · subst own
      rw [known]
      exact Or.inr ⟨left,List.mem_cons_self,⟨job,by simp,rfl⟩,by simp [only]⟩
    · have here := tallied c
      rw [(works_eraseIdx listed).2 c (Ne.symm own)]
      simpa [own,Ne.symm own,FaultSystem.loses,or_and_right,exists_or] using here
  | raises c =>
    simp only [FaultSystem.step] at stepped
    split_ifs at stepped with failed
    obtain ⟨system,here,rfl⟩ := Option.map_eq_some_iff.mp stepped
    exact resumed_tallied limiter tallied here fun _ => failed

theorem run_refuses {breakers : Nat → CircuitBreaker} {events : List Event} {last : System}
    (ran : run (System.step limiter) (System.start breakers) events = some last) :
    ∀ (c : Nat) call, last.calls[c]? = some call → call.Refuses := by
  have kept (s : System) (event : Event) (next : System)
      (held : Coherent s ∧ ∀ (c : Nat) call, s.calls[c]? = some call → call.Refuses)
      (stepped : s.step limiter event = some next) :
      Coherent next ∧ ∀ (c : Nat) call, next.calls[c]? = some call → call.Refuses :=
    ⟨step_coherent limiter s event next held.1 stepped,
      step_refuses limiter held.1 held.2 stepped⟩
  exact (run_invariant kept ⟨start_coherent breakers,by simp [System.start]⟩ ran).2

section
variable (double : ℚ → UInt64)

/-- The response to a request whose call has ended; where nobody was cancelled, the exception of
the database is what is left for the last handler. -/
def Outcome.answer (request : Request) : Outcome → Response
  | .returned result => (completed result).getD
      (unhandledHandler double request.xRequestId request.freshUnhandled)
  | .refused exn => (handle double request.xRequestId request.freshUnhandled exn).getD
      (unhandledHandler double request.xRequestId request.freshUnhandled)
  | .failed exn => (handle double request.xRequestId request.freshUnhandled exn).getD
      (unhandledHandler double request.xRequestId request.freshUnhandled)

theorem gatewayErrorHandler_external (exc : GatewayError) :
    (gatewayErrorHandler double exc).statusCode ≠ 500 := by
  intro internal
  have listed := httpStatus_code exc.code
  have same : httpStatus exc.code.text = 500 := internal
  rw [same] at listed
  revert listed
  decide

theorem returned_internal {request : Request} {result : RoutedResponse}
    (own : result.requestId = request.requestId) :
    ((Outcome.returned result).answer double request).statusCode = 500 ↔
      result.written = false := by
  have named : encodes result.requestId = true := by
    rw [own]
    exact request.idOr_encodes List.mem_cons_self
  unfold Outcome.answer
  dsimp only
  cases written : result.written with
  | false =>
    rw [completed_unwritten named written]
    exact iff_of_true rfl rfl
  | true =>
    rw [completed_written named written]
    exact iff_of_false (by simp) (by simp)

end

end GatewaySuite.Router
