import Mathlib.Data.List.Basic
import Mathlib.Tactic.Common

/-! Runs of a machine that takes one event at a time; an event that the machine does not
offer in a state stops the run. An invariant of the steps is an invariant of the runs. -/
namespace GatewaySuite.Lib
variable {S E : Type}

def run (step : S → E → Option S) : S → List E → Option S
  | s,[] => some s
  | s,e::rest => (step s e).bind fun next => run step next rest

theorem run_cons {step : S → E → Option S} {s last : S} {e : E} {rest : List E}
    (ran : run step s (e::rest) = some last) :
    ∃ next, step s e = some next ∧ run step next rest = some last :=
  Option.bind_eq_some_iff.mp ran

theorem run_invariant {step : S → E → Option S} {holds : S → Prop}
    (kept : ∀ s e next, holds s → step s e = some next → holds next) {events : List E} {s last : S}
    (start : holds s) (ran : run step s events = some last) : holds last := by
  induction events generalizing s with
  | nil =>
    cases ran
    exact start
  | cons e rest ih =>
    obtain ⟨next,here,after⟩ := run_cons ran
    exact ih (kept s e next start here) after

theorem run_invariant_of {step : S → E → Option S} {holds : S → Prop} {admits : E → Prop}
    (kept : ∀ s e next, admits e → holds s → step s e = some next → holds next)
    {events : List E} {s last : S} (all : ∀ e ∈ events, admits e) (start : holds s)
    (ran : run step s events = some last) : holds last := by
  induction events generalizing s with
  | nil =>
    cases ran
    exact start
  | cons e rest ih =>
    obtain ⟨next,here,after⟩ := run_cons ran
    exact ih (fun x member => all x (List.mem_cons_of_mem e member))
      (kept s e next (all e List.mem_cons_self) start here) after

/-- Some step of the run is taken at a state and an event of that kind. -/
def Takes (step : S → E → Option S) (kind : S → E → Prop) : S → List E → Prop
  | _,[] => False
  | s,e::rest => kind s e ∨ ∃ next, step s e = some next ∧ Takes step kind next rest

/-- A flag that exactly these steps raise, and that stays up, tells whether one was taken. -/
theorem takes_iff {step : S → E → Option S} {kind : S → E → Prop} {holds flag : S → Prop}
    (kept : ∀ s e next, holds s → step s e = some next → holds next)
    (raised : ∀ s e next, holds s → step s e = some next → (flag next ↔ flag s ∨ kind s e))
    {events : List E} {s last : S} (start : holds s) (ran : run step s events = some last) :
    flag last ↔ flag s ∨ Takes step kind s events := by
  induction events generalizing s with
  | nil =>
    cases ran
    simp [Takes]
  | cons e rest ih =>
    obtain ⟨next,here,after⟩ := run_cons ran
    have tail : (∃ other, step s e = some other ∧ Takes step kind other rest) ↔
        Takes step kind next rest := by simp [here]
    rw [ih (kept s e next start here) after,raised s e next start here,Takes,tail,or_assoc]

/-- The steps of a run, each with the state it was taken in. -/
def history (step : S → E → Option S) : S → List E → List (S × E)
  | _,[] => []
  | s,e::rest =>
    match step s e with
    | some next => (s,e) :: history step next rest
    | none => []

theorem history_cons {step : S → E → Option S} {s next : S} {e : E} (rest : List E)
    (stepped : step s e = some next) :
    history step s (e::rest) = (s,e) :: history step next rest := by
  simp only [history,stepped]

/-- Every step of the run meets a condition on what came before it. -/
def Along (meets : List (S × E) → S → E → Prop) (step : S → E → Option S) :
    List (S × E) → S → List E → Prop
  | _,_,[] => True
  | past,s,e::rest =>
    meets past s e ∧ ∀ next, step s e = some next → Along meets step (past ++ [(s,e)]) next rest

instance decidableAlong {meets : List (S × E) → S → E → Prop} {step : S → E → Option S}
    [∀ past s e, Decidable (meets past s e)] :
    ∀ past s events, Decidable (Along meets step past s events)
  | _,_,[] => isTrue trivial
  | past,s,e::rest =>
    match here : step s e with
    | some next =>
      have : Decidable (Along meets step (past ++ [(s,e)]) next rest) :=
        decidableAlong (past ++ [(s,e)]) next rest
      decidable_of_iff (meets past s e ∧ Along meets step (past ++ [(s,e)]) next rest)
        (by simp [Along,here])
    | none => decidable_of_iff (meets past s e) (by simp [Along,here])

theorem along_concat {meets : List (S × E) → S → E → Prop} {step : S → E → Option S}
    {past : List (S × E)} {events : List E} {s last : S} {e : E}
    (along : Along meets step past s (events ++ [e])) (ran : run step s events = some last) :
    Along meets step past s events ∧ meets (past ++ history step s events) last e := by
  induction events generalizing past s with
  | nil =>
    cases ran
    rw [history,List.append_nil]
    exact ⟨trivial,along.1⟩
  | cons first rest ih =>
    obtain ⟨next,here,after⟩ := run_cons ran
    obtain ⟨met,later⟩ := along
    obtain ⟨front,final⟩ := ih (later next here) after
    refine ⟨⟨met,fun other same => ?_⟩,?_⟩
    · cases here.symm.trans same
      exact front
    · rwa [history_cons rest here,← List.singleton_append,← List.append_assoc]

theorem along_events {meets : List (S × E) → S → E → Prop} {step : S → E → Option S}
    {events : List E} (each : ∀ e ∈ events, ∀ past s, meets past s e) (past : List (S × E)) (s : S) :
    Along meets step past s events := by
  induction events generalizing past s with
  | nil => trivial
  | cons e rest ih =>
    exact ⟨each e List.mem_cons_self past s,
      fun next _ => ih (fun x member => each x (List.mem_cons_of_mem e member)) _ next⟩

/-- A relation between the events of a run relates each to those before it. -/
theorem along_pairwise {related : E → E → Prop} {step : S → E → Option S} {events : List E}
    (pairwise : events.Pairwise related) (past : List (S × E)) (s : S)
    (front : ∀ x ∈ past, ∀ e ∈ events, related x.2 e) :
    Along (fun past _ e => ∀ x ∈ past, related x.2 e) step past s events := by
  induction events generalizing past s with
  | nil => trivial
  | cons e rest ih =>
    obtain ⟨head,tail⟩ := List.pairwise_cons.mp pairwise
    refine ⟨fun x member => front x member e List.mem_cons_self,fun next _ => ih tail _ next ?_⟩
    intro x member later inside
    rcases List.mem_append.mp member with earlier | latest
    · exact front x earlier later (List.mem_cons_of_mem e inside)
    · rw [List.mem_singleton] at latest
      subst x
      exact head later inside

theorem along_and {first second : List (S × E) → S → E → Prop} {step : S → E → Option S}
    {past : List (S × E)} {s : S} {events : List E} (left : Along first step past s events)
    (right : Along second step past s events) :
    Along (fun past s e => first past s e ∧ second past s e) step past s events := by
  induction events generalizing past s with
  | nil => trivial
  | cons e rest ih =>
    exact ⟨⟨left.1,right.1⟩,fun next stepped => ih (left.2 next stepped) (right.2 next stepped)⟩

/-- An invariant of a state together with the steps that led to it. -/
theorem along_invariant {meets : List (S × E) → S → E → Prop} {step : S → E → Option S}
    (holds : List (S × E) → S → Prop)
    (kept : ∀ past s e next, meets past s e → holds past s → step s e = some next →
      holds (past ++ [(s,e)]) next)
    {events : List E} {past : List (S × E)} {s last : S}
    (along : Along meets step past s events) (start : holds past s)
    (ran : run step s events = some last) : holds (past ++ history step s events) last := by
  induction events generalizing past s with
  | nil =>
    cases ran
    rwa [history,List.append_nil]
  | cons e rest ih =>
    obtain ⟨next,here,after⟩ := run_cons ran
    obtain ⟨met,later⟩ := along
    have reached := ih (later next here) (kept past s e next met start here) after
    rwa [List.append_assoc,List.singleton_append,← history_cons rest here] at reached

theorem run_append {step : S → E → Option S} {events more : List E} {s next last : S}
    (front : run step s events = some next) (back : run step next more = some last) :
    run step s (events ++ more) = some last := by
  induction events generalizing s with
  | nil =>
    cases front
    exact back
  | cons e rest ih =>
    obtain ⟨middle,here,after⟩ := run_cons front
    rw [List.cons_append,run,here]
    exact ih after

/-- A machine that answers each step of another by a run of its own answers each of its runs. -/
theorem run_answered {A L : Type} {step : S → E → Option S} {move : A → L → Option A}
    {related : S → A → Prop}
    (each : ∀ s a e next, related s a → step s e = some next →
      ∃ moves b, run move a moves = some b ∧ related next b)
    {events : List E} {s last : S} {a : A} (start : related s a)
    (ran : run step s events = some last) : ∃ moves b, run move a moves = some b ∧ related last b := by
  induction events generalizing s a with
  | nil =>
    cases ran
    exact ⟨[],a,rfl,start⟩
  | cons e rest ih =>
    obtain ⟨next,here,after⟩ := run_cons ran
    obtain ⟨moves,b,moved,reached⟩ := each s a e next start here
    obtain ⟨more,c,moved',reached'⟩ := ih reached after
    exact ⟨moves ++ more,c,run_append moved moved',reached'⟩

/-- A machine that follows what the steps of a run show of themselves. -/
theorem run_simulated {A L : Type} {step : S → E → Option S} {shown : S × E → Option L}
    {move : A → L → A} {related : S → A → Prop}
    (each : ∀ s a e next, related s a → step s e = some next →
      related next ((shown (s,e)).elim a (move a)))
    {events : List E} {s last : S} {a : A} (start : related s a)
    (ran : run step s events = some last) :
    related last (((history step s events).filterMap shown).foldl move a) := by
  induction events generalizing s a with
  | nil =>
    cases ran
    exact start
  | cons e rest ih =>
    obtain ⟨next,here,after⟩ := run_cons ran
    have reached := ih (each s a e next start here) after
    rw [history_cons rest here,List.filterMap_cons]
    cases same : shown (s,e) with
    | none =>
      rw [same] at reached
      exact reached
    | some label =>
      rw [same] at reached
      exact reached

end GatewaySuite.Lib
