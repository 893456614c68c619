import GatewaySuite.Lib.Run
import Mathlib.Logic.Function.Basic
import Mathlib.Data.Nat.Basic

/-! Connections to one store with snapshots and a single write lock. A transaction reads the
version that was committed when it first read. It may write while it holds the lock, and takes
the lock only if nobody has committed since it read; a commit that touched nothing is no new
version. -/
namespace GatewaySuite.Lib.Serial

variable {I D R : Type}

/-- The statements of a transaction. A change is `none` where it touches no row. -/
inductive Body (D R : Type) where
  | reads (next : D → Body D R)
  | writes (change : D → Option D) (next : Body D R)
  | commits (result : R)
  | rollbacks (result : R)

inductive Opening where
  | immediate
  | deferred
deriving DecidableEq

/-- What one caller runs: nothing on the store, one `SELECT`, or one transaction. -/
inductive Program (D R : Type) where
  | answers (result : R)
  | selects (query : D → R)
  | begins (opening : Opening) (body : Body D R)

inductive Connection (D R : Type) where
  | ready (program : Program D R)
  | begun (body : Body D R)
  | reading (version : Nat) (snapshot : D) (body : Body D R)
  | writing (view : D) (dirty : Bool) (body : Body D R)
  | returned (result : R)
  | locked

/-- `commits` are the callers whose changes are in, the oldest first. -/
structure Shared (I D : Type) where
  committed : D
  commits : List I
  writer : Option I

def Shared.publish (shared : Shared I D) (i : I) (view : D) (dirty : Bool) : Shared I D :=
  if dirty then ⟨view,shared.commits ++ [i],none⟩ else {shared with writer := none}

def upgraded (snapshot : D) (change : D → Option D) (next : Body D R) : Connection D R :=
  .writing ((change snapshot).getD snapshot) (change snapshot).isSome next

/-- The next statement of a connection. `none`: it waits for the lock, or is closed. -/
def statement (shared : Shared I D) (i : I) : Connection D R → Option (Shared I D × Connection D R)
  | .ready (.answers result) => some (shared,.returned result)
  | .ready (.selects query) => some (shared,.returned (query shared.committed))
  | .ready (.begins .deferred body) => some (shared,.begun body)
  | .ready (.begins .immediate body) =>
    if shared.writer.isSome then none
    else some ({shared with writer := some i},.writing shared.committed false body)
  | .begun (.reads next) =>
    some (shared,.reading shared.commits.length shared.committed (next shared.committed))
  | .begun (.writes change next) =>
    if shared.writer.isSome then none
    else some ({shared with writer := some i},upgraded shared.committed change next)
  | .begun (.commits result) => some (shared,.returned result)
  | .begun (.rollbacks result) => some (shared,.returned result)
  | .reading version snapshot (.reads next) =>
    some (shared,.reading version snapshot (next snapshot))
  | .reading version snapshot (.writes change next) =>
    -- A reader does not wait for the lock: its snapshot would be stale by then.
    if shared.writer.isSome || decide (version ≠ shared.commits.length) then some (shared,.locked)
    else some ({shared with writer := some i},upgraded snapshot change next)
  | .reading _ _ (.commits result) => some (shared,.returned result)
  | .reading _ _ (.rollbacks result) => some (shared,.returned result)
  | .writing view dirty (.reads next) => some (shared,.writing view dirty (next view))
  | .writing view dirty (.writes change next) =>
    some (shared,.writing ((change view).getD view) (dirty || (change view).isSome) next)
  | .writing view dirty (.commits result) => some (shared.publish i view dirty,.returned result)
  | .writing _ _ (.rollbacks result) => some ({shared with writer := none},.returned result)
  | .returned _ => none
  | .locked => none

/-- The connection waits for the lock, in the busy handler. -/
def Connection.waits : Connection D R → Bool
  | .ready (.begins .immediate _) => true
  | .begun (.writes _ _) => true
  | _ => false

def Connection.holds : Connection D R → Bool
  | .writing _ _ _ => true
  | _ => false

def Connection.answer : Connection D R → Option R
  | .returned result => some result
  | _ => none

theorem answer_returned {c : Connection D R} {result : R} (answered : c.answer = some result) :
    c = .returned result := by
  cases c with
  | returned other =>
    cases answered
    rfl
  | _ => cases answered

/-- The version that a transaction without the lock reads, with its number. -/
def Connection.snapshot : Connection D R → Option (Nat × D)
  | .reading version snapshot _ => some (version,snapshot)
  | _ => none

theorem snapshot_reading {c : Connection D R} {version : Nat} {snapshot : D}
    (reads : c.snapshot = some (version,snapshot)) : ∃ body, c = .reading version snapshot body := by
  cases c with
  | reading other view body =>
    cases reads
    exact ⟨body,rfl⟩
  | _ => cases reads

structure System (I D R : Type) where
  shared : Shared I D
  connections : I → Connection D R

inductive Event (I : Type) where
  | executes (i : I)
  | timeout (i : I)
deriving DecidableEq

section Machine
variable [DecidableEq I]

def step (s : System I D R) : Event I → Option (System I D R)
  | .executes i =>
    (statement s.shared i (s.connections i)).map fun (shared,connection) =>
      ⟨shared,Function.update s.connections i connection⟩
  | .timeout i =>
    if (s.connections i).waits && s.shared.writer.isSome then
      some {s with connections := Function.update s.connections i .locked}
    else none

end Machine

def opening (programs : I → Program D R) (start : D) : System I D R :=
  ⟨⟨start,[],none⟩,fun i => .ready (programs i)⟩

/-- How a transaction ends that has the store to itself: its result and the store after it. -/
def Body.finish : Body D R → D → D → R × D
  | .reads next,first,view => (next view).finish first view
  | .writes change next,first,view => next.finish first ((change view).getD view)
  | .commits result,_,view => (result,view)
  | .rollbacks result,first,_ => (result,first)

/-- Whether the transaction writes when it reads that version. -/
def Body.touches : Body D R → D → Bool
  | .reads next,view => (next view).touches view
  | .writes _ _,_ => true
  | .commits _,_ => false
  | .rollbacks _,_ => false

def Program.touches : Program D R → D → Bool
  | .answers _,_ => false
  | .selects _,_ => false
  | .begins _ body,d => body.touches d

def Program.alone : Program D R → D → R × D
  | .answers result,d => (result,d)
  | .selects query,d => (query d,d)
  | .begins _ body,d => body.finish d d

def after (programs : I → Program D R) (start : D) (commits : List I) : D :=
  commits.foldl (fun d i => ((programs i).alone d).2) start

section Meaning
variable (programs : I → Program D R) (start : D)

theorem after_concat (commits : List I) (i : I) :
    after programs start (commits ++ [i]) = ((programs i).alone (after programs start commits)).2 := by
  simp [after]

/-- The call did at one version what it does alone: it changed nothing, or made the next one. -/
def Explained (shared : Shared I D) (floor : Nat) (i : I) (result : R) : Prop :=
  ∃ n, floor ≤ n ∧ n ≤ shared.commits.length ∧
    ((programs i).alone (after programs start (shared.commits.take n))).1 = result ∧
    (((programs i).alone (after programs start (shared.commits.take n))).2 =
        after programs start (shared.commits.take n) ∨
      shared.commits[n]? = some i)

/-- The rest of a connection does what its whole program does alone at the version it is on. -/
def Follows (shared : Shared I D) (floor : Nat) (i : I) : Connection D R → Prop
  | .ready program => program = programs i ∧ floor ≤ shared.commits.length
  | .begun body =>
    programs i = .begins .deferred body ∧ floor ≤ shared.commits.length
  | .reading version snapshot body =>
    floor ≤ version ∧ version ≤ shared.commits.length ∧
      snapshot = after programs start (shared.commits.take version) ∧
      (programs i).alone snapshot = body.finish snapshot snapshot ∧
      (programs i).touches snapshot = body.touches snapshot
  | .writing view dirty body =>
    shared.writer = some i ∧ floor ≤ shared.commits.length ∧
      (programs i).alone shared.committed = body.finish shared.committed view ∧
      (dirty = false → view = shared.committed)
  | .returned result => Explained programs start shared floor i result
  | .locked => True

/-- What one statement does: it leaves the shared part, takes the lock, gives it back, or
publishes what it wrote and returns. -/
theorem statement_shared {shared next : Shared I D} {floor : Nat} {i : I} {c c' : Connection D R}
    (follows : Follows programs start shared floor i c)
    (ran : statement shared i c = some (next,c')) :
    (next = shared ∧ c'.holds = c.holds) ∨
    (shared.writer = none ∧ next = {shared with writer := some i} ∧ c'.holds = true) ∨
    (shared.writer = some i ∧ next = {shared with writer := none} ∧ c'.holds = false) ∨
    (shared.writer = some i ∧
      next = ⟨((programs i).alone shared.committed).2,shared.commits ++ [i],none⟩ ∧
      ∃ result, c' = .returned result) := by
  cases c with
  | ready program =>
    cases program with
    | answers result => cases ran; exact Or.inl ⟨rfl,rfl⟩
    | selects query => cases ran; exact Or.inl ⟨rfl,rfl⟩
    | begins opening body =>
      cases opening with
      | deferred => cases ran; exact Or.inl ⟨rfl,rfl⟩
      | immediate =>
        simp only [statement] at ran
        split_ifs at ran with held
        cases ran
        exact Or.inr (Or.inl ⟨by simpa using held,rfl,rfl⟩)
  | begun body =>
    cases body with
    | reads rest => cases ran; exact Or.inl ⟨rfl,rfl⟩
    | commits result => cases ran; exact Or.inl ⟨rfl,rfl⟩
    | rollbacks result => cases ran; exact Or.inl ⟨rfl,rfl⟩
    | writes change rest =>
      simp only [statement] at ran
      split_ifs at ran with held
      cases ran
      exact Or.inr (Or.inl ⟨by simpa using held,rfl,rfl⟩)
  | reading version snapshot body =>
    cases body with
    | reads rest => cases ran; exact Or.inl ⟨rfl,rfl⟩
    | commits result => cases ran; exact Or.inl ⟨rfl,rfl⟩
    | rollbacks result => cases ran; exact Or.inl ⟨rfl,rfl⟩
    | writes change rest =>
      simp only [statement] at ran
      split_ifs at ran with late
      · cases ran
        exact Or.inl ⟨rfl,rfl⟩
      · cases ran
        simp only [Bool.or_eq_true,not_or,Bool.not_eq_true,Option.isSome_eq_false_iff,
          Option.isNone_iff_eq_none] at late
        exact Or.inr (Or.inl ⟨late.1,rfl,rfl⟩)
  | writing view dirty body =>
    cases body with
    | reads rest => cases ran; exact Or.inl ⟨rfl,rfl⟩
    | writes change rest => cases ran; exact Or.inl ⟨rfl,rfl⟩
    | rollbacks result => cases ran; exact Or.inr (Or.inr (Or.inl ⟨follows.1,rfl,rfl⟩))
    | commits result =>
      cases ran
      cases dirty with
      | false => exact Or.inr (Or.inr (Or.inl ⟨follows.1,rfl,rfl⟩))
      | true =>
        obtain ⟨mine,_,ends,_⟩ := follows
        refine Or.inr (Or.inr (Or.inr ⟨mine,?_,result,rfl⟩))
        rw [ends]
        rfl
  | returned result => cases ran
  | locked => cases ran

theorem take_grown {first last : List I} (grew : first <+: last) {n : Nat} (inside : n ≤ first.length) :
    last.take n = first.take n := by
  obtain ⟨rest,rfl⟩ := grew
  rw [List.take_append_of_le_length inside]

theorem explained_grown {shared next : Shared I D} {floor : Nat} {i : I} {result : R}
    (explained : Explained programs start shared floor i result)
    (grew : shared.commits <+: next.commits) : Explained programs start next floor i result := by
  obtain ⟨n,low,high,same,changed⟩ := explained
  refine ⟨n,low,Nat.le_trans high grew.length_le,?_,?_⟩
  · rw [take_grown grew high]
    exact same
  · rw [take_grown grew high]
    obtain unchanged | committed := changed
    · exact Or.inl unchanged
    · obtain ⟨rest,grown⟩ := grew
      apply Or.inr
      rw [← grown,List.getElem?_append_left (List.getElem?_eq_some_iff.mp committed).1]
      exact committed

/-- The others go on as they were: only the one that holds the lock can publish. -/
theorem follows_other {shared next : Shared I D} {floor : Nat} {j : I} {c : Connection D R}
    (follows : Follows programs start shared floor j c) (grew : shared.commits <+: next.commits)
    (kept : shared.writer = some j → next = shared) : Follows programs start next floor j c := by
  cases c with
  | ready program => exact ⟨follows.1,Nat.le_trans follows.2 grew.length_le⟩
  | begun body => exact ⟨follows.1,Nat.le_trans follows.2 grew.length_le⟩
  | reading version snapshot body =>
    obtain ⟨low,high,same,rest⟩ := follows
    refine ⟨low,Nat.le_trans high grew.length_le,?_,rest⟩
    rw [take_grown grew high]
    exact same
  | writing view dirty body =>
    rw [kept follows.1]
    exact follows
  | returned result => exact explained_grown programs start follows grew
  | locked => trivial

/-- A result that was read at a version, without a change. -/
theorem explained_read {shared : Shared I D} {floor n : Nat} {i : I} {result : R}
    (low : floor ≤ n) (high : n ≤ shared.commits.length) {snapshot : D}
    (same : snapshot = after programs start (shared.commits.take n))
    (ends : (programs i).alone snapshot = (result,snapshot)) :
    Explained programs start shared floor i result := by
  refine ⟨n,low,high,?_,Or.inl ?_⟩
  · rw [← same,ends]
  · rw [← same,ends]

theorem upgraded_follows {shared : Shared I D} {floor : Nat} {i : I} {change : D → Option D}
    {next : Body D R} (low : floor ≤ shared.commits.length)
    (ends : (programs i).alone shared.committed =
      (Body.writes change next).finish shared.committed shared.committed) :
    Follows programs start {shared with writer := some i} floor i
      (upgraded shared.committed change next) := by
  refine ⟨rfl,low,ends,fun clean => ?_⟩
  rw [Option.isSome_eq_false_iff,Option.isNone_iff_eq_none] at clean
  rw [clean,Option.getD_none]

/-- A statement leaves its connection at a rest of the same program. -/
theorem statement_follows {shared next : Shared I D} {floor : Nat} {i : I} {c c' : Connection D R}
    (current : shared.committed = after programs start shared.commits)
    (follows : Follows programs start shared floor i c)
    (ran : statement shared i c = some (next,c')) : Follows programs start next floor i c' := by
  have whole : shared.committed = after programs start (shared.commits.take shared.commits.length) := by
    rw [List.take_length]
    exact current
  cases c with
  | ready program =>
    obtain ⟨rfl,low⟩ := follows
    cases here : programs i with
    | answers result =>
      rw [here] at ran
      cases ran
      exact explained_read programs start low le_rfl whole (by rw [here]; rfl)
    | selects query =>
      rw [here] at ran
      cases ran
      exact explained_read programs start low le_rfl whole (by rw [here]; rfl)
    | begins opening body =>
      rw [here] at ran
      cases opening with
      | deferred =>
        cases ran
        exact ⟨here,low⟩
      | immediate =>
        simp only [statement] at ran
        split_ifs at ran
        cases ran
        exact ⟨rfl,low,by rw [here]; rfl,fun _ => rfl⟩
  | begun body =>
    obtain ⟨same,low⟩ := follows
    have ends : (programs i).alone shared.committed =
        body.finish shared.committed shared.committed := by
      rw [same]
      rfl
    cases body with
    | reads rest =>
      cases ran
      exact ⟨low,le_rfl,whole,ends,by rw [same]; rfl⟩
    | commits result =>
      cases ran
      exact explained_read programs start low le_rfl whole ends
    | rollbacks result =>
      cases ran
      exact explained_read programs start low le_rfl whole ends
    | writes change rest =>
      simp only [statement] at ran
      split_ifs at ran
      cases ran
      exact upgraded_follows programs start low ends
  | reading version snapshot body =>
    obtain ⟨low,high,same,ends,touches⟩ := follows
    cases body with
    | reads rest =>
      cases ran
      exact ⟨low,high,same,ends,touches⟩
    | commits result =>
      cases ran
      exact explained_read programs start low high same ends
    | rollbacks result =>
      cases ran
      exact explained_read programs start low high same ends
    | writes change rest =>
      simp only [statement] at ran
      split_ifs at ran with late
      · cases ran
        trivial
      · cases ran
        -- Nobody has committed since the read, so the snapshot is what is committed.
        simp only [Bool.or_eq_true,not_or,decide_eq_true_eq,not_not] at late
        obtain ⟨_,rfl⟩ := late
        obtain rfl : snapshot = shared.committed := same.trans whole.symm
        exact upgraded_follows programs start low ends
  | writing view dirty body =>
    obtain ⟨mine,low,ends,clean⟩ := follows
    cases body with
    | reads rest =>
      cases ran
      exact ⟨mine,low,ends,clean⟩
    | writes change rest =>
      cases ran
      refine ⟨mine,low,ends,fun untouched => ?_⟩
      simp only [Bool.or_eq_false_iff,Option.isSome_eq_false_iff,Option.isNone_iff_eq_none]
        at untouched
      rw [untouched.2,Option.getD_none]
      exact clean untouched.1
    | rollbacks result =>
      cases ran
      exact explained_read programs start low le_rfl whole ends
    | commits result =>
      cases ran
      cases dirty with
      | false =>
        rw [clean rfl] at ends
        exact explained_read programs start low le_rfl whole ends
      | true =>
        refine ⟨shared.commits.length,low,by simp [Shared.publish],?_,Or.inr ?_⟩
        · simp only [Shared.publish,if_true,List.take_left']
          rw [← current,ends]
          rfl
        · simp [Shared.publish]
  | returned result => cases ran
  | locked => cases ran

/-- `floor` is for each call a version that was committed when the call had not begun. -/
structure Sound (floor : I → Nat) (s : System I D R) : Prop where
  current : s.shared.committed = after programs start s.shared.commits
  each : ∀ i, Follows programs start s.shared (floor i) i (s.connections i)
  closed : ∀ i ∈ s.shared.commits, ∃ result, s.connections i = .returned result
  distinct : s.shared.commits.Nodup
  held : ∀ i, s.shared.writer = some i → (s.connections i).holds = true

theorem opening_sound : Sound programs start (fun _ => 0) (opening programs start) where
  current := rfl
  each := fun _ => ⟨rfl,Nat.zero_le _⟩
  closed := fun _ absent => absurd absent List.not_mem_nil
  distinct := List.nodup_nil
  held := fun _ absent => absurd absent (by simp [opening])

/-- A call that has not begun begins after all that is committed. -/
theorem sound_raised [DecidableEq I] {floor : I → Nat} {s : System I D R}
    (sound : Sound programs start floor s) {i : I} (ready : s.connections i = .ready (programs i)) :
    Sound programs start (Function.update floor i s.shared.commits.length) s where
  current := sound.current
  closed := sound.closed
  distinct := sound.distinct
  held := sound.held
  each := by
    intro j
    obtain rfl | other := eq_or_ne j i
    · rw [Function.update_self,ready]
      exact ⟨rfl,le_rfl⟩
    · rw [Function.update_of_ne other]
      exact sound.each j

theorem statement_grows {shared next : Shared I D} {floor : Nat} {i : I} {c c' : Connection D R}
    (follows : Follows programs start shared floor i c)
    (ran : statement shared i c = some (next,c')) : shared.commits <+: next.commits := by
  obtain ⟨rfl,_⟩ | ⟨_,rfl,_⟩ | ⟨_,rfl,_⟩ | ⟨_,rfl,_⟩ :=
    statement_shared programs start follows ran
  · exact List.prefix_rfl
  · exact List.prefix_rfl
  · exact List.prefix_rfl
  · exact List.prefix_append _ _

theorem statement_open {shared : Shared I D} {i : I} {c : Connection D R}
    {answer : Shared I D × Connection D R} (ran : statement shared i c = some answer) (result : R) :
    c ≠ .returned result := by
  rintro rfl
  cases ran

/-- A publication is the caller's own program, run alone on what was committed. -/
theorem statement_current {shared next : Shared I D} {floor : Nat} {i : I} {c c' : Connection D R}
    (current : shared.committed = after programs start shared.commits)
    (follows : Follows programs start shared floor i c)
    (ran : statement shared i c = some (next,c')) :
    next.committed = after programs start next.commits := by
  obtain ⟨rfl,_⟩ | ⟨_,rfl,_⟩ | ⟨_,rfl,_⟩ | ⟨_,rfl,_⟩ :=
    statement_shared programs start follows ran
  · exact current
  · exact current
  · exact current
  · rw [after_concat,← current]

/-- While another holds the lock, a statement leaves the shared part as it is. -/
theorem statement_kept {shared next : Shared I D} {floor : Nat} {i j : I} {c c' : Connection D R}
    (follows : Follows programs start shared floor i c)
    (ran : statement shared i c = some (next,c')) (theirs : shared.writer = some j)
    (other : j ≠ i) : next = shared := by
  obtain ⟨same,_⟩ | ⟨free,_⟩ | ⟨mine,_⟩ | ⟨mine,_⟩ := statement_shared programs start follows ran
  · exact same
  · rw [free] at theirs
    cases theirs
  · exact absurd (Option.some.inj (theirs.symm.trans mine)) other
  · exact absurd (Option.some.inj (theirs.symm.trans mine)) other

theorem statement_commits {shared next : Shared I D} {floor : Nat} {i : I} {c c' : Connection D R}
    (follows : Follows programs start shared floor i c)
    (ran : statement shared i c = some (next,c')) :
    next.commits = shared.commits ∨
      next.commits = shared.commits ++ [i] ∧ ∃ result, c' = .returned result := by
  obtain ⟨rfl,_⟩ | ⟨_,rfl,_⟩ | ⟨_,rfl,_⟩ | ⟨_,rfl,returns⟩ :=
    statement_shared programs start follows ran
  · exact Or.inl rfl
  · exact Or.inl rfl
  · exact Or.inl rfl
  · exact Or.inr ⟨rfl,returns⟩

variable [DecidableEq I]

/-- A step is one statement, or the end of a wait. -/
theorem step_cases {s next : System I D R} {e : Event I} (stepped : step s e = some next) :
    (∃ i shared c, e = .executes i ∧ statement s.shared i (s.connections i) = some (shared,c) ∧
      next = ⟨shared,Function.update s.connections i c⟩) ∨
    ∃ i, e = .timeout i ∧ (s.connections i).waits = true ∧ s.shared.writer.isSome = true ∧
      next = {s with connections := Function.update s.connections i .locked} := by
  cases e with
  | executes i =>
    obtain ⟨⟨shared,c⟩,ran,rfl⟩ := Option.map_eq_some_iff.mp stepped
    exact Or.inl ⟨i,shared,c,rfl,ran,rfl⟩
  | timeout i =>
    simp only [step] at stepped
    split_ifs at stepped with waiting
    rw [Bool.and_eq_true] at waiting
    cases stepped
    exact Or.inr ⟨i,rfl,waiting.1,waiting.2,rfl⟩

theorem executes_sound {floor : I → Nat} {s : System I D R} {i : I} {shared : Shared I D}
    {c : Connection D R} (sound : Sound programs start floor s)
    (ran : statement s.shared i (s.connections i) = some (shared,c)) :
    Sound programs start floor ⟨shared,Function.update s.connections i c⟩ := by
  have follows := sound.each i
  have running := statement_open ran
  have kept := fun j => statement_kept programs start (j := j) follows ran
  constructor
  · exact statement_current programs start sound.current follows ran
  · intro j
    dsimp only
    obtain rfl | other := eq_or_ne j i
    · rw [Function.update_self]
      exact statement_follows programs start sound.current follows ran
    · rw [Function.update_of_ne other]
      exact follows_other programs start (sound.each j) (statement_grows programs start follows ran)
        fun theirs => kept j theirs other
  · intro j member
    dsimp only at member ⊢
    obtain same | ⟨grown,result,returns⟩ := statement_commits programs start follows ran
    · rw [same] at member
      obtain ⟨result,here⟩ := sound.closed j member
      refine ⟨result,?_⟩
      rw [Function.update_of_ne,here]
      rintro rfl
      exact running result here
    · rw [grown,List.mem_append,List.mem_singleton] at member
      obtain rfl | other := eq_or_ne j i
      · exact ⟨result,by rw [Function.update_self,returns]⟩
      · rw [Function.update_of_ne other]
        exact sound.closed j (member.resolve_right other)
  · obtain same | ⟨grown,_⟩ := statement_commits programs start follows ran
    · rw [same]
      exact sound.distinct
    · rw [grown,List.nodup_append]
      refine ⟨sound.distinct,by simp,?_⟩
      rintro j member _ only rfl
      rw [List.mem_singleton] at only
      subst j
      obtain ⟨result,here⟩ := sound.closed i member
      exact running result here
  · intro j mine
    dsimp only at mine ⊢
    obtain ⟨rfl,same⟩ | ⟨_,rfl,holding⟩ | ⟨_,rfl,_⟩ | ⟨_,rfl,_⟩ :=
      statement_shared programs start follows ran
    · have holding := sound.held j mine
      obtain rfl | other := eq_or_ne j i
      · rw [Function.update_self,same,holding]
      · rw [Function.update_of_ne other,holding]
    · cases mine
      rw [Function.update_self,holding]
    · cases mine
    · cases mine

theorem timeout_sound {floor : I → Nat} {s : System I D R} {i : I}
    (sound : Sound programs start floor s) (waiting : (s.connections i).waits = true) :
    Sound programs start floor {s with connections := Function.update s.connections i .locked} := by
  constructor
  · exact sound.current
  · intro j
    dsimp only
    obtain rfl | other := eq_or_ne j i
    · rw [Function.update_self]
      trivial
    · rw [Function.update_of_ne other]
      exact sound.each j
  · intro j member
    obtain ⟨result,here⟩ := sound.closed j member
    refine ⟨result,?_⟩
    dsimp only
    rw [Function.update_of_ne,here]
    rintro rfl
    rw [here] at waiting
    cases waiting
  · exact sound.distinct
  · intro j mine
    have holding := sound.held j mine
    dsimp only
    rw [Function.update_of_ne,holding]
    rintro rfl
    generalize s.connections j = c at holding waiting
    cases c with
    | writing view dirty body => cases waiting
    | _ => cases holding

theorem step_sound {floor : I → Nat} {s next : System I D R} {e : Event I}
    (sound : Sound programs start floor s) (stepped : step s e = some next) :
    Sound programs start floor next := by
  obtain ⟨i,shared,c,rfl,ran,rfl⟩ | ⟨i,rfl,waiting,_,rfl⟩ := step_cases stepped
  · exact executes_sound programs start sound ran
  · exact timeout_sound programs start sound waiting

theorem run_sound {floor : I → Nat} {s last : System I D R} {events : List (Event I)}
    (sound : Sound programs start floor s) (ran : run step s events = some last) :
    Sound programs start floor last :=
  run_invariant (fun _ _ _ held stepped => step_sound programs start held stepped) sound ran

theorem run_grows {floor : I → Nat} {s last : System I D R} {events : List (Event I)}
    (sound : Sound programs start floor s) (ran : run step s events = some last) :
    s.shared.commits <+: last.shared.commits := by
  induction events generalizing s with
  | nil =>
    cases ran
    exact List.prefix_rfl
  | cons e rest ih =>
    obtain ⟨next,here,later⟩ := run_cons ran
    have grew := ih (step_sound programs start sound here) later
    obtain ⟨i,shared,c,rfl,ran,rfl⟩ | ⟨i,rfl,_,_,rfl⟩ := step_cases here
    · exact (statement_grows programs start (sound.each i) ran).trans grew
    · exact grew

/-- Strict serializability: a call that returns did, at one version that was current while it
ran, what its program does alone; if that changed the store, it is the next version. -/
theorem run_serial {floor : I → Nat} {s last : System I D R} {events : List (Event I)} {i : I}
    {result : R} (sound : Sound programs start floor s)
    (ready : s.connections i = .ready (programs i)) (ran : run step s events = some last)
    (answered : (last.connections i).answer = some result) :
    ∃ before, s.shared.commits <+: before ∧ before <+: last.shared.commits ∧
      ((programs i).alone (after programs start before)).1 = result ∧
      (((programs i).alone (after programs start before)).2 = after programs start before ∨
        before ++ [i] <+: last.shared.commits) := by
  have raised := run_sound programs start (sound_raised programs start sound ready) ran
  have grew := run_grows programs start sound ran
  have explained := raised.each i
  rw [answer_returned answered,Function.update_self] at explained
  obtain ⟨n,low,high,same,changed⟩ := explained
  refine ⟨last.shared.commits.take n,?_,List.take_prefix n _,same,?_⟩
  · apply List.prefix_of_prefix_length_le grew (List.take_prefix n _)
    rw [List.length_take,Nat.min_eq_left high]
    exact low
  · obtain unchanged | next := changed
    · exact Or.inl unchanged
    · apply Or.inr
      obtain ⟨inside,here⟩ := List.getElem?_eq_some_iff.mp next
      rw [← here,← List.take_succ_eq_append_getElem inside]
      exact List.take_prefix _ _

end Meaning
end GatewaySuite.Lib.Serial
