import GatewaySuite.Lib.Serial
import Mathlib.Data.List.Count

/-! Who waits and who fails. The one that holds the lock never waits, so somebody can always go
on. A transaction that takes the lock when it begins fails only if its wait times out; one that
reads first fails at its first write when another has committed since. -/
namespace GatewaySuite.Lib.Serial

variable {I D R : Type}

def Program.eager : Program D R → Bool
  | .begins .deferred _ => false
  | _ => true

def Connection.eager : Connection D R → Bool
  | .ready program => program.eager
  | .writing _ _ _ => true
  | .returned _ => true
  | _ => false

def Connection.open : Connection D R → Bool
  | .returned _ => false
  | .locked => false
  | _ => true

theorem statement_eager {shared next : Shared I D} {i : I} {c c' : Connection D R}
    (eager : c.eager = true) (ran : statement shared i c = some (next,c')) : c'.eager = true := by
  cases c with
  | ready program =>
    cases program with
    | answers result => cases ran; rfl
    | selects query => cases ran; rfl
    | begins opening body =>
      cases opening with
      | deferred => cases eager
      | immediate =>
        simp only [statement] at ran
        split_ifs at ran
        cases ran
        rfl
  | writing view dirty body => cases body <;> cases ran <;> rfl
  | returned result => cases ran
  | begun body => cases eager
  | reading version snapshot body => cases eager
  | locked => cases eager

/-- A connection that cannot go on is closed, or another holds the lock. -/
theorem statement_waits {shared : Shared I D} {i : I} {c : Connection D R} (left : c.open = true)
    (stuck : statement shared i c = none) : c.holds = false ∧ ∃ j, shared.writer = some j := by
  cases c with
  | ready program =>
    cases program with
    | answers result => cases stuck
    | selects query => cases stuck
    | begins opening body =>
      cases opening with
      | deferred => cases stuck
      | immediate =>
        simp only [statement] at stuck
        split_ifs at stuck with held
        exact ⟨rfl,Option.isSome_iff_exists.mp held⟩
  | begun body =>
    cases body with
    | writes change rest =>
      simp only [statement] at stuck
      split_ifs at stuck with held
      exact ⟨rfl,Option.isSome_iff_exists.mp held⟩
    | _ => cases stuck
  | reading version snapshot body =>
    cases body with
    | writes change rest =>
      simp only [statement] at stuck
      split_ifs at stuck
    | _ => cases stuck
  | writing view dirty body => cases body <;> cases stuck
  | returned result => cases left
  | locked => cases left

/-- A call that takes the lock when it begins: it has not begun, or the rest of it does on what is
committed what the whole of it does alone. -/
def Connection.Exclusive (program : Program D R) (shared : Shared I D) (i : I) :
    Connection D R → Prop
  | .ready other => other = program
  | .writing view dirty body =>
    shared.writer = some i ∧
      program.alone shared.committed = body.finish shared.committed view ∧
      (dirty = false → view = shared.committed)
  | _ => False

/-- The statement that returns is the whole call in one step; the ones before it change nothing
that is committed. -/
theorem statement_exclusive {program : Program D R} {shared next : Shared I D} {i : I}
    {c c' : Connection D R} (eager : program.eager = true) (exclusive : c.Exclusive program shared i)
    (ran : statement shared i c = some (next,c')) :
    (c'.Exclusive program next i ∧ next.committed = shared.committed) ∨
    ∃ result, c' = .returned result ∧ program.alone shared.committed = (result,next.committed) := by
  cases c with
  | ready other =>
    obtain rfl : other = program := exclusive
    cases other with
    | answers result => cases ran; exact Or.inr ⟨result,rfl,rfl⟩
    | selects query => cases ran; exact Or.inr ⟨_,rfl,rfl⟩
    | begins opening body =>
      cases opening with
      | deferred => cases eager
      | immediate =>
        simp only [statement] at ran
        split_ifs at ran
        cases ran
        exact Or.inl ⟨⟨rfl,rfl,fun _ => rfl⟩,rfl⟩
  | writing view dirty body =>
    obtain ⟨mine,ends,clean⟩ := exclusive
    cases body with
    | reads rest => cases ran; exact Or.inl ⟨⟨mine,ends,clean⟩,rfl⟩
    | writes change rest =>
      cases ran
      refine Or.inl ⟨⟨mine,ends,fun untouched => ?_⟩,rfl⟩
      simp only [Bool.or_eq_false_iff,Option.isSome_eq_false_iff,Option.isNone_iff_eq_none]
        at untouched
      rw [untouched.2,Option.getD_none]
      exact clean untouched.1
    | rollbacks result => cases ran; exact Or.inr ⟨result,rfl,ends⟩
    | commits result =>
      cases ran
      refine Or.inr ⟨result,rfl,?_⟩
      cases dirty with
      | true => exact ends
      | false =>
        rw [clean rfl] at ends
        exact ends
  | _ => cases exclusive

/-- It leaves the others as they are: the lock was free, or its own, or is not touched. -/
theorem statement_apart {program : Program D R} {shared next : Shared I D} {i : I}
    {c c' : Connection D R} (eager : program.eager = true) (exclusive : c.Exclusive program shared i)
    (ran : statement shared i c = some (next,c')) :
    next = shared ∨ ∀ j, shared.writer = some j → j = i := by
  cases c with
  | ready other =>
    obtain rfl : other = program := exclusive
    cases other with
    | answers result => cases ran; exact Or.inl rfl
    | selects query => cases ran; exact Or.inl rfl
    | begins opening body =>
      cases opening with
      | deferred => cases eager
      | immediate =>
        simp only [statement] at ran
        split_ifs at ran with held
        exact Or.inr fun j theirs => absurd (Option.isSome_iff_exists.mpr ⟨j,theirs⟩) held
  | writing view dirty body =>
    exact Or.inr fun j theirs => Option.some.inj (theirs.symm.trans exclusive.1)
  | _ => cases exclusive

theorem exclusive_apart {program : Program D R} {shared next : Shared I D} {i j : I}
    {c : Connection D R} (exclusive : c.Exclusive program shared j) (other : j ≠ i)
    (apart : next = shared ∨ ∀ j, shared.writer = some j → j = i) : c.Exclusive program next j := by
  obtain rfl | only := apart
  · exact exclusive
  · cases c with
    | ready _ => exact exclusive
    | writing view dirty body => exact absurd (only j exclusive.1) other
    | _ => cases exclusive

theorem exclusive_open {program : Program D R} {shared : Shared I D} {i : I} {c : Connection D R}
    (exclusive : c.Exclusive program shared i) : c.open = true := by
  cases c with
  | ready _ => rfl
  | writing _ _ _ => rfl
  | _ => cases exclusive

theorem exclusive_silent {program : Program D R} {shared : Shared I D} {i : I} {c : Connection D R}
    (exclusive : c.Exclusive program shared i) : c.answer = none := by
  cases c with
  | ready _ => rfl
  | writing _ _ _ => rfl
  | _ => cases exclusive

theorem statement_runs {shared : Shared I D} {i : I} {c : Connection D R}
    {answer : Shared I D × Connection D R} (ran : statement shared i c = some answer) :
    c.open = true := by
  cases c with
  | returned result => cases ran
  | locked => cases ran
  | _ => rfl

/-- A connection that is closed gives back the lock. -/
def Shared.close (shared : Shared I D) (c : Connection D R) : Shared I D :=
  if c.holds then {shared with writer := none} else shared

theorem close_apart {program : Program D R} {shared : Shared I D} {i : I} {c : Connection D R}
    (exclusive : c.Exclusive program shared i) :
    shared.close c = shared ∨ ∀ j, shared.writer = some j → j = i := by
  cases c with
  | ready _ => exact Or.inl rfl
  | writing view dirty body =>
    exact Or.inr fun j theirs => Option.some.inj (theirs.symm.trans exclusive.1)
  | _ => cases exclusive

theorem close_committed (shared : Shared I D) (c : Connection D R) :
    (shared.close c).committed = shared.committed := by
  unfold Shared.close
  split_ifs <;> rfl

/-- At most so many statements, whatever they read. -/
def Body.Within : Body D R → Nat → Prop
  | .reads next,n => 0 < n ∧ ∀ d, (next d).Within (n-1)
  | .writes _ next,n => 0 < n ∧ next.Within (n-1)
  | .commits _,n => 0 < n
  | .rollbacks _,n => 0 < n

def Program.Within : Program D R → Nat → Prop
  | .answers _,n => 0 < n
  | .selects _,n => 0 < n
  | .begins _ body,n => 0 < n ∧ body.Within (n-1)

def Connection.Within : Connection D R → Nat → Prop
  | .ready program,n => program.Within n
  | .begun body,n => body.Within n
  | .reading _ _ body,n => body.Within n
  | .writing _ _ body,n => body.Within n
  | .returned _,_ => True
  | .locked,_ => True

theorem body_shortens {shared next : Shared I D} {i : I} {c c' : Connection D R} {body : Body D R}
    {n : Nat} (bound : body.Within n)
    (at_ : c = .begun body ∨ (∃ version snapshot, c = .reading version snapshot body) ∨
      ∃ view dirty, c = .writing view dirty body)
    (ran : statement shared i c = some (next,c')) : 0 < n ∧ c'.Within (n-1) := by
  cases body with
  | reads rest =>
    obtain ⟨positive,shorter⟩ := bound
    obtain rfl | ⟨version,snapshot,rfl⟩ | ⟨view,dirty,rfl⟩ := at_ <;> cases ran <;>
      exact ⟨positive,shorter _⟩
  | writes change rest =>
    obtain ⟨positive,shorter⟩ := bound
    obtain rfl | ⟨version,snapshot,rfl⟩ | ⟨view,dirty,rfl⟩ := at_
    · simp only [statement] at ran
      split_ifs at ran
      cases ran
      exact ⟨positive,shorter⟩
    · simp only [statement] at ran
      split_ifs at ran
      · cases ran
        exact ⟨positive,trivial⟩
      · cases ran
        exact ⟨positive,shorter⟩
    · cases ran
      exact ⟨positive,shorter⟩
  | commits result =>
    obtain rfl | ⟨version,snapshot,rfl⟩ | ⟨view,dirty,rfl⟩ := at_ <;> cases ran <;>
      exact ⟨bound,trivial⟩
  | rollbacks result =>
    obtain rfl | ⟨version,snapshot,rfl⟩ | ⟨view,dirty,rfl⟩ := at_ <;> cases ran <;>
      exact ⟨bound,trivial⟩

theorem statement_shortens {shared next : Shared I D} {i : I} {c c' : Connection D R} {n : Nat}
    (bound : c.Within n) (ran : statement shared i c = some (next,c')) :
    0 < n ∧ c'.Within (n-1) := by
  cases c with
  | ready program =>
    cases program with
    | answers result => cases ran; exact ⟨bound,trivial⟩
    | selects query => cases ran; exact ⟨bound,trivial⟩
    | begins opening body =>
      obtain ⟨positive,shorter⟩ := bound
      cases opening with
      | deferred => cases ran; exact ⟨positive,shorter⟩
      | immediate =>
        simp only [statement] at ran
        split_ifs at ran
        cases ran
        exact ⟨positive,shorter⟩
  | begun body => exact body_shortens bound (Or.inl rfl) ran
  | reading version snapshot body => exact body_shortens bound (Or.inr (Or.inl ⟨_,_,rfl⟩)) ran
  | writing view dirty body => exact body_shortens bound (Or.inr (Or.inr ⟨_,_,rfl⟩)) ran
  | returned result => cases ran
  | locked => cases ran

theorem within_open {c : Connection D R} {n : Nat} (bound : c.Within n) (left : c.open = true) :
    0 < n := by
  have some_left {body : Body D R} (bound : body.Within n) : 0 < n := by
    cases body with
    | reads rest => exact bound.1
    | writes change rest => exact bound.1
    | commits result => exact bound
    | rollbacks result => exact bound
  cases c with
  | ready program =>
    cases program with
    | answers result => exact bound
    | selects query => exact bound
    | begins opening body => exact bound.1
  | begun body => exact some_left bound
  | reading version snapshot body => exact some_left bound
  | writing view dirty body => exact some_left bound
  | returned result => cases left
  | locked => cases left

/-- Who holds the lock after a statement: the caller itself, or the one that held it. -/
theorem statement_holder {shared next : Shared I D} {i j : I} {c c' : Connection D R}
    (held : shared.writer = some i → c.holds = true) (ran : statement shared i c = some (next,c'))
    (theirs : next.writer = some j) : j = i ∧ c'.holds = true ∨ j ≠ i ∧ shared.writer = some j := by
  have taken (mine : some i = some j) : j = i := (Option.some.inj mine).symm
  have kept (idle : c.holds = false) (theirs : shared.writer = some j) : j ≠ i := by
    rintro rfl
    rw [held theirs] at idle
    cases idle
  cases c with
  | ready program =>
    cases program with
    | answers result => cases ran; exact Or.inr ⟨kept rfl theirs,theirs⟩
    | selects query => cases ran; exact Or.inr ⟨kept rfl theirs,theirs⟩
    | begins opening body =>
      cases opening with
      | deferred => cases ran; exact Or.inr ⟨kept rfl theirs,theirs⟩
      | immediate =>
        simp only [statement] at ran
        split_ifs at ran
        cases ran
        exact Or.inl ⟨taken theirs,rfl⟩
  | begun body =>
    cases body with
    | writes change rest =>
      simp only [statement] at ran
      split_ifs at ran
      cases ran
      exact Or.inl ⟨taken theirs,rfl⟩
    | _ => cases ran; exact Or.inr ⟨kept rfl theirs,theirs⟩
  | reading version snapshot body =>
    cases body with
    | writes change rest =>
      simp only [statement] at ran
      split_ifs at ran
      · cases ran
        exact Or.inr ⟨kept rfl theirs,theirs⟩
      · cases ran
        exact Or.inl ⟨taken theirs,rfl⟩
    | _ => cases ran; exact Or.inr ⟨kept rfl theirs,theirs⟩
  | writing view dirty body =>
    cases body with
    | reads rest =>
      cases ran
      by_cases own : j = i
      · exact Or.inl ⟨own,rfl⟩
      · exact Or.inr ⟨own,theirs⟩
    | writes change rest =>
      cases ran
      by_cases own : j = i
      · exact Or.inl ⟨own,rfl⟩
      · exact Or.inr ⟨own,theirs⟩
    | rollbacks result => cases ran; cases theirs
    | commits result => cases ran; cases dirty <;> cases theirs
  | returned result => cases ran
  | locked => cases ran

theorem statement_stale {shared next : Shared I D} {i : I} {c' : Connection D R} {version : Nat}
    {snapshot : D} {body : Body D R} (overtaken : version < shared.commits.length)
    (touches : body.touches snapshot = true)
    (ran : statement shared i (.reading version snapshot body) = some (next,c')) :
    (∃ rest, c' = .reading version snapshot rest ∧ rest.touches snapshot = true) ∨ c' = .locked := by
  cases body with
  | reads rest =>
    cases ran
    exact Or.inl ⟨_,rfl,touches⟩
  | writes change rest =>
    simp only [statement] at ran
    split_ifs at ran with late
    · cases ran
      exact Or.inr rfl
    · simp only [Bool.or_eq_true,not_or,decide_eq_true_eq,not_not] at late
      omega
  | commits result => cases touches
  | rollbacks result => cases touches

section Runs
variable [DecidableEq I]

theorem run_eager {s last : System I D R} {events : List (Event I)} {i : I}
    (eager : (s.connections i).eager = true) (patient : Event.timeout i ∉ events)
    (ran : run step s events = some last) : (last.connections i).eager = true := by
  suffices kept : ∀ (s : System I D R) e next, e ≠ Event.timeout i →
      (s.connections i).eager = true → step s e = some next → (next.connections i).eager = true from
    run_invariant_of kept (fun e member same => patient (same ▸ member)) eager ran
  intro s e next patient eager stepped
  obtain ⟨j,shared,c,rfl,ran,rfl⟩ | ⟨j,rfl,_,_,rfl⟩ := step_cases stepped
  · dsimp only
    obtain rfl | other := eq_or_ne i j
    · rw [Function.update_self]
      exact statement_eager eager ran
    · rw [Function.update_of_ne other]
      exact eager
  · dsimp only
    rw [Function.update_of_ne]
    · exact eager
    · rintro rfl
      exact patient rfl

/-- A call takes at most as many steps as its program has statements. -/
theorem run_bounded {s last : System I D R} {events : List (Event I)} {i : I} {n : Nat}
    (bound : (s.connections i).Within n) (ran : run step s events = some last) :
    events.count (.executes i) ≤ n := by
  induction events generalizing s n with
  | nil => exact Nat.zero_le n
  | cons e rest ih =>
    obtain ⟨next,here,later⟩ := run_cons ran
    obtain ⟨j,shared,c,rfl,ran,rfl⟩ | ⟨j,rfl,_,_,rfl⟩ := step_cases here
    · obtain rfl | other := eq_or_ne i j
      · obtain ⟨positive,shorter⟩ := statement_shortens bound ran
        have fewer := ih (n := n-1) (by dsimp only; rwa [Function.update_self]) later
        rw [List.count_cons_self]
        omega
      · have fewer := ih (n := n) (by dsimp only; rwa [Function.update_of_ne other]) later
        rwa [List.count_cons_of_ne (by simpa using other.symm)]
    · rw [List.count_cons_of_ne (by simp)]
      apply ih _ later
      dsimp only
      obtain rfl | other := eq_or_ne i j
      · rw [Function.update_self]
        trivial
      · rwa [Function.update_of_ne other]

/-- A caller that takes no step stays where it was. -/
theorem run_idle {s last : System I D R} {events : List (Event I)} {i : I}
    (idle : ∀ e ∈ events, e ≠ .executes i ∧ e ≠ .timeout i) (ran : run step s events = some last) :
    last.connections i = s.connections i := by
  suffices kept : ∀ (t : System I D R) e next, (e ≠ .executes i ∧ e ≠ .timeout i) →
      t.connections i = s.connections i → step t e = some next →
      next.connections i = s.connections i from run_invariant_of kept idle rfl ran
  intro t e next absent same stepped
  obtain ⟨j,shared,c,rfl,_,rfl⟩ | ⟨j,rfl,_,_,rfl⟩ := step_cases stepped
  · dsimp only
    rw [Function.update_of_ne,same]
    rintro rfl
    exact absent.1 rfl
  · dsimp only
    rw [Function.update_of_ne,same]
    rintro rfl
    exact absent.2 rfl

variable (programs : I → Program D R) (start : D)

/-- No deadlock: a call that is not over can go on, or the one that holds the lock can. -/
theorem sound_progress {floor : I → Nat} {s : System I D R} (sound : Sound programs start floor s)
    {i : I} (left : (s.connections i).open = true) :
    ∃ j next, step s (.executes j) = some next ∧ (j = i ∨ (s.connections j).holds = true) := by
  cases here : statement s.shared i (s.connections i) with
  | some answer =>
    exact ⟨i,⟨answer.1,Function.update s.connections i answer.2⟩,by simp [step,here],Or.inl rfl⟩
  | none =>
    obtain ⟨_,j,theirs⟩ := statement_waits left here
    have holds := sound.held j theirs
    have still : (s.connections j).open = true := by
      cases other : s.connections j <;> rw [other] at holds <;> cases holds
      rfl
    cases there : statement s.shared j (s.connections j) with
    | some answer =>
      exact ⟨j,⟨answer.1,Function.update s.connections j answer.2⟩,by simp [step,there],
        Or.inr holds⟩
    | none =>
      have idle := (statement_waits still there).1
      rw [holds] at idle
      cases idle

/-- Callers that take the lock when they begin and wait for it: when no one of them can go on,
every one has its answer. -/
theorem run_served {last : System I D R} {events : List (Event I)} {ids : List I}
    (eager : ∀ i ∈ ids, (programs i).eager = true)
    (callers : ∀ e ∈ events, ∃ i ∈ ids, e = .executes i)
    (ran : run step (opening programs start) events = some last)
    (stuck : ∀ i ∈ ids, step last (.executes i) = none) :
    ∀ i ∈ ids, ∃ result, last.connections i = .returned result := by
  intro i member
  have sound := run_sound programs start (opening_sound programs start) ran
  have awake : ∀ j, (last.connections j).holds = true → j ∈ ids := by
    intro j holds
    by_contra outside
    have idle := run_idle (i := j) (fun e inside => by
      obtain ⟨k,caller,rfl⟩ := callers e inside
      exact ⟨fun same => outside (by cases same; exact caller),fun same => by cases same⟩) ran
    rw [idle] at holds
    cases holds
  have calm := run_eager (s := opening programs start) (i := i) (eager i member) (fun inside => by
    obtain ⟨_,_,same⟩ := callers _ inside
    cases same) ran
  cases here : last.connections i with
  | returned result => exact ⟨result,rfl⟩
  | locked =>
    rw [here] at calm
    cases calm
  | _ =>
    have left : (last.connections i).open = true := by rw [here]; rfl
    obtain ⟨j,next,stepped,mine | holds⟩ := sound_progress programs start sound left
    · subst mine
      rw [stuck j member] at stepped
      cases stepped
    · rw [stuck j (awake j holds)] at stepped
      cases stepped

/-- Another has committed since the connection read, and it is going to write. -/
def Stale (s : System I D R) (i : I) : Prop :=
  (∃ version snapshot body, s.connections i = .reading version snapshot body ∧
    version < s.shared.commits.length ∧ body.touches snapshot = true) ∨
  s.connections i = .locked

/-- It never gets an answer: what is left to it is the database error. -/
theorem run_stale {floor : I → Nat} {s last : System I D R} {events : List (Event I)} {i : I}
    (sound : Sound programs start floor s) (stale : Stale s i)
    (ran : run step s events = some last) : Stale last i := by
  suffices kept : ∀ (s : System I D R) e next, Sound programs start floor s ∧ Stale s i →
      step s e = some next → Sound programs start floor next ∧ Stale next i from
    (run_invariant kept ⟨sound,stale⟩ ran).2
  rintro s e next ⟨sound,stale⟩ stepped
  refine ⟨step_sound programs start sound stepped,?_⟩
  obtain ⟨j,shared,c,rfl,ran,rfl⟩ | ⟨j,rfl,_,_,rfl⟩ := step_cases stepped
  · have grew := statement_grows programs start (sound.each j) ran
    unfold Stale
    dsimp only
    obtain rfl | other := eq_or_ne i j
    · rw [Function.update_self]
      obtain ⟨version,snapshot,body,here,overtaken,touches⟩ | closed := stale
      · rw [here] at ran
        obtain ⟨rest,rfl,still⟩ | rfl := statement_stale overtaken touches ran
        · exact Or.inl ⟨version,snapshot,rest,rfl,Nat.lt_of_lt_of_le overtaken grew.length_le,still⟩
        · exact Or.inr rfl
      · rw [closed] at ran
        cases ran
    · rw [Function.update_of_ne other]
      obtain ⟨version,snapshot,body,here,overtaken,touches⟩ | closed := stale
      · exact Or.inl ⟨version,snapshot,body,here,Nat.lt_of_lt_of_le overtaken grew.length_le,touches⟩
      · exact Or.inr closed
  · unfold Stale
    dsimp only
    obtain rfl | other := eq_or_ne i j
    · rw [Function.update_self]
      exact Or.inr rfl
    · rw [Function.update_of_ne other]
      exact stale

end Runs
end GatewaySuite.Lib.Serial
