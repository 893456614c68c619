import GatewaySuite.Lib.Run
import Mathlib.Algebra.Order.Monoid.Defs

/-! A machine on a clock. A task of it may wait under a timer, which the event that makes it wait
sets. Nothing in the machine holds back the clock: that a wait ends when its timer is over, or how
long after that, is an assumption about a run. -/
namespace GatewaySuite.Lib.Clock
variable {S E I T : Type}

structure Timer (I T : Type) where
  task : I
  since : T
  timeout : T

structure Paced (S I T : Type) where
  state : S
  now : T
  timers : List (Timer I T)

/-- A machine with the moments at which an event can read the clock, the task that it moves, and
the timeouts under which the tasks wait; a task that is not moved goes on waiting as it did. -/
structure Machine (S E I T : Type) [Zero T] [LE T] where
  step : S → E → Option S
  reads : E → T → Bool
  moves : E → Option I
  waits : S → I → Option T
  frame : ∀ s e next i, step s e = some next → moves e ≠ some i → waits next i = waits s i
  patient : ∀ s i timeout, waits s i = some timeout → 0 ≤ timeout

variable [AddCommMonoid T] [LinearOrder T]

def Paced.start (s : S) (now : T) : Paced S I T := ⟨s,now,[]⟩

/-- No timer has been over for longer than that. -/
def Within (overrun now : T) (timers : List (Timer I T)) : Prop :=
  ∀ timer ∈ timers, now ≤ timer.since + timer.timeout + overrun

instance (overrun now : T) (timers : List (Timer I T)) : Decidable (Within overrun now timers) :=
  inferInstanceAs (Decidable (∀ timer ∈ timers, now ≤ timer.since + timer.timeout + overrun))

namespace Machine
variable [DecidableEq I] (m : Machine S E I T)

def rearmed (s : S) (now : T) (timers : List (Timer I T)) : Option I → List (Timer I T)
  | none => timers
  | some i =>
    timers.filter (fun timer => timer.task ≠ i) ++
      ((m.waits s i).map fun timeout => ⟨i,now,timeout⟩).toList

/-- The clock goes on to a moment, with an event at that moment or without any. -/
def tick (c : Paced S I T) (e : T × Option E) : Option (Paced S I T) :=
  if c.now ≤ e.1 then
    match e.2 with
    | none => some {c with now := e.1}
    | some event =>
      if m.reads event e.1 then
        (m.step c.state event).map fun next =>
          ⟨next,e.1,m.rearmed next e.1 c.timers (m.moves event)⟩
      else none
  else none

/-- The assumption about a run: no wait goes on, or is ended, later than its timer by more than
the overrun. -/
def Prompt (overrun : T) : Paced S I T → List (T × Option E) → Prop :=
  Along (fun _ c e => Within overrun e.1 c.timers) m.tick []

instance (overrun : T) (c : Paced S I T) (events : List (T × Option E)) :
    Decidable (m.Prompt overrun c events) :=
  inferInstanceAs (Decidable (Along (fun _ c e => Within overrun e.1 c.timers) m.tick [] c events))

/-- What a tick can do. -/
inductive Ticks (c : Paced S I T) : T × Option E → Paced S I T → Prop
  | passes (now : T) (later : c.now ≤ now) : Ticks c (now,none) {c with now := now}
  | happens (now : T) (event : E) (next : S) (later : c.now ≤ now)
      (reads : m.reads event now = true) (stepped : m.step c.state event = some next) :
      Ticks c (now,some event) ⟨next,now,m.rearmed next now c.timers (m.moves event)⟩

theorem tick_cases {c next : Paced S I T} {e : T × Option E} (ticked : m.tick c e = some next) :
    m.Ticks c e next := by
  obtain ⟨now,event⟩ := e
  unfold tick at ticked
  split_ifs at ticked with later
  cases event with
  | none =>
    cases ticked
    exact .passes now later
  | some event =>
    dsimp only at ticked
    split_ifs at ticked with reads
    obtain ⟨after,stepped,rfl⟩ := Option.map_eq_some_iff.mp ticked
    exact .happens now event after later reads stepped

theorem tick_now {c next : Paced S I T} {e : T × Option E} (ticked : m.tick c e = some next) :
    next.now = e.1 := by
  cases m.tick_cases ticked <;> rfl

theorem mem_rearmed {s : S} {now : T} {timers : List (Timer I T)} {moved : Option I}
    {timer : Timer I T} : timer ∈ m.rearmed s now timers moved ↔
      timer ∈ timers ∧ moved ≠ some timer.task ∨
      ∃ i timeout, moved = some i ∧ m.waits s i = some timeout ∧ timer = ⟨i,now,timeout⟩ := by
  cases moved with
  | none => simp [rearmed]
  | some i =>
    simp only [rearmed,List.mem_append,List.mem_filter,decide_eq_true_eq,Option.mem_toList,
      Option.map_eq_some_iff,ne_eq,Option.some.injEq,exists_eq_left',exists_and_left]
    simp only [eq_comm]

/-- A timer is kept from before, by an event that does not move its task, or it is set now. -/
theorem tick_timers {c next : Paced S I T} {e : T × Option E}
    {holds : Timer I T → Prop} (ticked : m.tick c e = some next)
    (kept : ∀ timer ∈ c.timers, (∀ event, e.2 = some event → m.moves event ≠ some timer.task) →
      holds timer)
    (set : ∀ event i timeout, e.2 = some event → m.moves event = some i →
      m.waits next.state i = some timeout → holds ⟨i,e.1,timeout⟩) :
    ∀ timer ∈ next.timers, holds timer := by
  intro timer member
  cases m.tick_cases ticked with
  | passes now later => exact kept timer member (by simp)
  | happens now event after later reads stepped =>
    obtain ⟨before,apart⟩ | ⟨i,timeout,moves,waits,rfl⟩ := m.mem_rearmed.mp member
    · refine kept timer before fun other same => ?_
      cases same
      exact apart
    · exact set event i timeout rfl moves waits

/-- Exactly the tasks that wait have a timer. -/
structure Armed (c : Paced S I T) : Prop where
  waiting : ∀ timer ∈ c.timers, m.waits c.state timer.task = some timer.timeout
  armed : ∀ i timeout, m.waits c.state i = some timeout → ∃ timer ∈ c.timers, timer.task = i
  begun : ∀ timer ∈ c.timers, timer.since ≤ c.now

omit [DecidableEq I] in
theorem start_armed {s : S} (idle : ∀ i, m.waits s i = none) (now : T) :
    m.Armed (Paced.start s now) :=
  ⟨by simp [Paced.start],fun i timeout waits => absurd ((idle i).symm.trans waits) (by simp),
    by simp [Paced.start]⟩

theorem tick_armed {c next : Paced S I T} {e : T × Option E} (armed : m.Armed c)
    (ticked : m.tick c e = some next) : m.Armed next := by
  cases m.tick_cases ticked with
  | passes now later =>
    exact ⟨armed.waiting,armed.armed,fun timer member => (armed.begun timer member).trans later⟩
  | happens now event after later reads stepped =>
    have each (holds : Timer I T → Prop)
        (kept : ∀ timer ∈ c.timers, m.moves event ≠ some timer.task → holds timer)
        (set : ∀ i timeout, m.moves event = some i → m.waits after i = some timeout →
          holds ⟨i,now,timeout⟩) :
        ∀ timer ∈ m.rearmed after now c.timers (m.moves event), holds timer :=
      m.tick_timers ticked (fun timer member apart => kept timer member (apart event rfl))
        (fun event' i timeout same => by cases same; exact set i timeout)
    refine ⟨each _ ?_ ?_,?_,each _ ?_ ?_⟩
    · intro timer member apart
      exact (m.frame _ _ _ _ stepped apart).trans (armed.waiting timer member)
    · exact fun i timeout _ waits => waits
    · intro i timeout waits
      by_cases moved : m.moves event = some i
      · exact ⟨⟨i,now,timeout⟩,m.mem_rearmed.mpr (Or.inr ⟨i,timeout,moved,waits,rfl⟩),rfl⟩
      · rw [m.frame _ _ _ _ stepped moved] at waits
        obtain ⟨timer,member,rfl⟩ := armed.armed i timeout waits
        exact ⟨timer,m.mem_rearmed.mpr (Or.inl ⟨member,moved⟩),rfl⟩
    · exact fun timer member _ => (armed.begun timer member).trans later
    · exact fun i timeout _ _ => le_rfl

theorem tick_within [IsOrderedAddMonoid T] {overrun : T} (positive : 0 ≤ overrun)
    {c next : Paced S I T} {e : T × Option E} (prompt : Within overrun e.1 c.timers)
    (ticked : m.tick c e = some next) : Within overrun next.now next.timers := by
  rw [m.tick_now ticked]
  refine m.tick_timers ticked (fun timer member _ => prompt timer member) ?_
  intro event i timeout _ _ waits
  rw [add_assoc]
  exact le_add_of_nonneg_right (add_nonneg (m.patient _ _ _ waits) positive)

/-- Without its clock the run is a run of the machine. -/
theorem run_unclocked {c last : Paced S I T} {events : List (T × Option E)}
    (ran : run m.tick c events = some last) :
    run m.step c.state (events.filterMap Prod.snd) = some last.state := by
  induction events generalizing c with
  | nil =>
    cases ran
    rfl
  | cons e rest ih =>
    obtain ⟨next,ticked,after⟩ := run_cons ran
    have reaches := ih after
    cases m.tick_cases ticked with
    | passes now later => exact reaches
    | happens now event middle later reads stepped =>
      simp only [List.filterMap_cons]
      rw [run,stepped]
      exact reaches

/-- Where the wait of a task can always be ended, and only finitely often, a run that was prompt
so far can be kept so for ever. -/
theorem runs_on [IsOrderedAddMonoid T] {overrun : T} (positive : 0 ≤ overrun) (left : S → Nat)
    (expires : ∀ s i timeout now, m.waits s i = some timeout → ∃ event next,
      m.step s event = some next ∧ m.reads event now = true ∧ left next < left s)
    {c : Paced S I T} (armed : m.Armed c) (within : Within overrun c.now c.timers) {later : T}
    (ahead : c.now ≤ later) (past : List (Paced S I T × T × Option E)) :
    ∃ events last, run m.tick c events = some last ∧ last.now = later ∧
      Along (fun _ c e => Within overrun e.1 c.timers) m.tick past c events := by
  induction bound : left c.state using Nat.strong_induction_on generalizing c past with
  | h n ih =>
    by_cases free : Within overrun later c.timers
    · refine ⟨[(later,none)],{c with now := later},?_,rfl,free,fun _ _ => trivial⟩
      simp only [run,tick,ahead,if_true]
      rfl
    · simp only [Within,not_forall] at free
      obtain ⟨timer,member,_⟩ := free
      obtain ⟨event,next,stepped,reads,fewer⟩ :=
        expires c.state timer.task timer.timeout c.now (armed.waiting timer member)
      have ticked : m.tick c (c.now,some event) =
          some ⟨next,c.now,m.rearmed next c.now c.timers (m.moves event)⟩ := by
        simp only [tick,le_refl,if_true,reads,stepped,Option.map_some]
      obtain ⟨events,last,ran,there,along⟩ := ih (left next) (bound ▸ fewer)
        (m.tick_armed armed ticked) (m.tick_within positive within ticked) ahead
        (past ++ [(c,c.now,some event)]) rfl
      refine ⟨(c.now,some event)::events,last,by rw [run,ticked]; exact ran,there,within,?_⟩
      intro other same
      cases ticked.symm.trans same
      exact along

end Machine
end GatewaySuite.Lib.Clock
