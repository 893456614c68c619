import GatewaySuite.Limiter.Transactions
import GatewaySuite.Lib.Contention

/-! The statements that the limiter's calls run, each on a connection of its own. Whatever
their order on the disk, the calls that return did one after the other what they do on a table
of their own, and the table is theirs. -/
namespace GatewaySuite.Limiter
open Python Lib Lib.Serial

/-- `DELETE FROM token_usage WHERE created_at < ?` -/
def deleteExpired (cutoff : ℚ) (table : List Row) : Option (List Row) :=
  if table.any fun row => decide (row.createdAt < cutoff) then
    some (table.filter fun row => !decide (row.createdAt < cutoff))
  else none

/-- `INSERT INTO token_usage …` -/
def insertRow (row : Row) (table : List Row) : Option (List Row) := some (table ++ [row])

/-- `UPDATE token_usage SET tokens = ?, state = 'committed' WHERE id = ?` -/
def updateRow (reservationId : Nat) (actualTokens : Int) (table : List Row) : Option (List Row) :=
  if table.any fun row => decide (row.id = reservationId) then
    some (table.map fun row =>
      if row.id = reservationId then {row with tokens := actualTokens, state := .committed} else row)
  else none

/-- `DELETE FROM token_usage WHERE id = ?` -/
def deleteRow (reservationId : Nat) (table : List Row) : Option (List Row) :=
  if table.any fun row => decide (row.id = reservationId) then
    some (table.filter fun row => !decide (row.id = reservationId))
  else none

variable (self : SlidingWindowRateLimiter) (beginStatement : Opening)

def reserveStatements (newId : Nat) (apiKey : Str) (estimatedTokens : Int) (now : ℚ) :
    Program (List Row) Result :=
  if estimatedTokens < 0 then .answers (.reserved (.error .ValueError))
  else
    let cutoff := now - self.window
    .begins beginStatement (.reads fun table =>
      let used := sumTokens table apiKey cutoff
      if used + estimatedTokens > self.limit then
        .reads fun table =>
          let retry := retryAfter self (oldestCreated table apiKey cutoff) now
          .rollbacks (.reserved (.error (.exceeded ⟨used,self.limit,round3 retry⟩)))
      else
        .writes (deleteExpired cutoff) (.writes
          (insertRow ⟨newId,apiKey,estimatedTokens,now,.reserved⟩)
          (.commits (.reserved (.ok ⟨newId,apiKey,estimatedTokens⟩)))))

def commitStatements (reservationId : Nat) (actualTokens : Int) : Program (List Row) Result :=
  .begins .immediate (.writes (updateRow reservationId actualTokens) (.commits .done))

def releaseStatements (reservationId : Nat) : Program (List Row) Result :=
  .begins .immediate (.writes (deleteRow reservationId) (.commits .done))

def usageStatements (apiKey : Str) (now : ℚ) : Program (List Row) Result :=
  .selects fun table =>
    .snapshot ⟨apiKey,sumTokens table apiKey (now - self.window),self.limit⟩

def statements : Operation → Program (List Row) Result
  | .reserve newId apiKey estimatedTokens now =>
    reserveStatements self beginStatement newId apiKey estimatedTokens now
  | .commit reservation actualTokens => commitStatements reservation.id actualTokens
  | .release reservation => releaseStatements reservation.id
  | .usage apiKey now => usageStatements self apiKey now

theorem deleteExpired_getD (cutoff : ℚ) (table : List Row) :
    (deleteExpired cutoff table).getD table =
      table.filter fun row => !decide (row.createdAt < cutoff) := by
  unfold deleteExpired
  split_ifs with expired
  · rfl
  · apply Eq.symm
    rw [Option.getD_none,List.filter_eq_self]
    simpa using expired

theorem updateRow_getD (reservationId : Nat) (actualTokens : Int) (table : List Row) :
    (updateRow reservationId actualTokens table).getD table =
      commitSync table reservationId actualTokens := by
  unfold updateRow
  split_ifs with present
  · rfl
  · apply Eq.symm
    rw [Option.getD_none,commitSync,List.map_congr_left,List.map_id]
    intro row member
    rw [if_neg,id]
    intro mine
    exact present (List.any_eq_true.mpr ⟨row,member,by simpa using mine⟩)

theorem deleteRow_getD (reservationId : Nat) (table : List Row) :
    (deleteRow reservationId table).getD table = releaseSync table reservationId := by
  unfold deleteRow
  split_ifs with present
  · rfl
  · apply Eq.symm
    rw [Option.getD_none,releaseSync,List.filter_eq_self]
    simpa using present

/-- Alone on a table, the statements of a call are the call in one step. -/
theorem statements_alone (op : Operation) (table : List Row) :
    (statements self beginStatement op).alone table = execute self table op := by
  cases op with
  | reserve newId apiKey estimate now =>
    simp only [statements,reserveStatements,execute,reserveSync]
    split_ifs with negative full
    · rfl
    · simp [Program.alone,Body.finish,full]
    · simp [Program.alone,Body.finish,full,deleteExpired_getD,insertRow]
  | commit reservation actual =>
    simp [statements,commitStatements,execute,Program.alone,Body.finish,updateRow_getD]
  | release reservation =>
    simp [statements,releaseStatements,execute,Program.alone,Body.finish,deleteRow_getD]
  | usage apiKey now => rfl

section Calls
variable (calls : Nat → Operation) (begins : Nat → Opening) (table : List Row)

/-- The callers of the limiter, each with its own `begin_statement`. -/
def programs (i : Nat) : Program (List Row) Result := statements self (begins i) (calls i)

theorem after_tableAfter (commits : List Nat) :
    after (programs self calls begins) table commits =
      tableAfter self table (commits.map calls) := by
  induction commits generalizing table with
  | nil => rfl
  | cons i rest ih =>
    rw [List.map_cons,tableAfter,← ih,after,List.foldl_cons,programs,statements_alone]
    rfl

variable {self calls begins table}

/-- In every order of the statements and whatever the isolation level: the table is what the
committed calls make of it one after the other, and a call that returned did what it does in one
step, on a table that was there while it ran. -/
theorem statements_serializable {earlier later : List (Event Nat)}
    {s last : System Nat (List Row) Result}
    (reached : run step (opening (programs self calls begins) table) earlier = some s)
    (ran : run step s later = some last) :
    last.shared.committed = tableAfter self table (last.shared.commits.map calls) ∧
    last.shared.commits.Nodup ∧
    (∀ i ∈ last.shared.commits, (last.connections i).answer.isSome) ∧
    ∀ i result, s.connections i = .ready (programs self calls begins i) →
      (last.connections i).answer = some result →
      ∃ before, s.shared.commits <+: before ∧ before <+: last.shared.commits ∧
        (execute self (tableAfter self table (before.map calls)) (calls i)).1 = result ∧
        ((execute self (tableAfter self table (before.map calls)) (calls i)).2 =
            tableAfter self table (before.map calls) ∨
          before ++ [i] <+: last.shared.commits) := by
  have sound := run_sound _ _ (opening_sound (programs self calls begins) table) reached
  have final := run_sound _ _ sound ran
  refine ⟨?_,final.distinct,?_,?_⟩
  · rw [final.current,after_tableAfter]
  · intro i member
    obtain ⟨result,here⟩ := final.closed i member
    rw [here]
    rfl
  · intro i result ready answered
    obtain ⟨before,front,back,same,changed⟩ := run_serial _ _ sound ready ran answered
    rw [after_tableAfter,programs,statements_alone] at same changed
    exact ⟨before,front,back,same,changed⟩

/-- Two tenants' calls for the same budget. -/
def rivals : Nat → Operation
  | 0 => .reserve 0 (lit "tenant-a") 30 1
  | 1 => .reserve 1 (lit "tenant-a") 30 1
  | _ => .usage (lit "tenant-a") 1

def turns (callers : List Nat) : List (Event Nat) := callers.map .executes

/-- The second caller begins and reads while the first one is between its check and its insert. -/
theorem rivals_serializable :
    ∃ last result, run step (opening (programs ⟨50,60⟩ rivals fun _ => .deferred) [])
        (turns [0,0,0,2,0,0,1,1,1,1]) = some last ∧
      (last.connections 1).answer = some result ∧
      last.shared.committed = tableAfter ⟨50,60⟩ [] (last.shared.commits.map rivals) ∧
      ∃ before, before <+: last.shared.commits ∧
        (execute ⟨50,60⟩ (tableAfter ⟨50,60⟩ [] (before.map rivals)) (rivals 1)).1 = result := by
  have ends : (((run step (opening (programs ⟨50,60⟩ rivals fun _ => .deferred) [])
      (turns [0,0,0,2,0,0,1,1,1,1])).bind fun s => (s.connections 1).answer)).isSome = true := by
    decide +kernel
  obtain ⟨result,here⟩ := Option.isSome_iff_exists.mp ends
  obtain ⟨last,ran,answered⟩ := Option.bind_eq_some_iff.mp here
  have opened : run step (opening (programs ⟨50,60⟩ rivals fun _ => .deferred) []) [] =
      some (opening (programs ⟨50,60⟩ rivals fun _ => .deferred) []) := rfl
  obtain ⟨current,_,_,each⟩ := statements_serializable opened ran
  obtain ⟨before,_,back,same,_⟩ := each 1 result rfl answered
  exact ⟨last,result,ran,answered,current,before,back,same⟩

theorem statements_within (op : Operation) (beginStatement : Opening) :
    (statements self beginStatement op).Within 5 := by
  cases op with
  | reserve newId apiKey estimate now =>
    simp only [statements,reserveStatements]
    split_ifs with negative
    · simp [Program.Within]
    · simp only [Program.Within,Body.Within]
      refine ⟨by omega,by omega,fun d => ?_⟩
      split_ifs <;> simp [Body.Within]
  | commit reservation actual => simp [statements,commitStatements,Program.Within,Body.Within]
  | release reservation => simp [statements,releaseStatements,Program.Within,Body.Within]
  | usage apiKey now => simp [statements,usageStatements,Program.Within]

theorem statements_eager (op : Operation) :
    (statements self .immediate op).eager = true := by
  cases op with
  | reserve newId apiKey estimate now =>
    simp only [statements,reserveStatements]
    split_ifs <;> rfl
  | commit reservation actual => rfl
  | release reservation => rfl
  | usage apiKey now => rfl

/-- `BEGIN IMMEDIATE`: every call is over after five statements at most, and a schedule that
can go no further has answered every caller; none got a database error. -/
theorem immediate_served {ids : List Nat} {events : List (Event Nat)}
    {last : System Nat (List Row) Result} (immediate : ∀ i ∈ ids, begins i = .immediate)
    (callers : ∀ e ∈ events, ∃ i ∈ ids, e = .executes i)
    (ran : run step (opening (programs self calls begins) table) events = some last) :
    (∀ i, events.count (.executes i) ≤ 5) ∧ (∀ i ∈ ids, last.connections i ≠ .locked) ∧
    ((∀ i ∈ ids, step last (.executes i) = none) →
      ∀ i ∈ ids, (last.connections i).answer.isSome) := by
  have eager : ∀ i ∈ ids, (programs self calls begins i).eager = true := by
    intro i member
    rw [programs,immediate i member]
    exact statements_eager (calls i)
  refine ⟨?_,?_,?_⟩
  · intro i
    apply run_bounded _ ran
    exact statements_within (calls i) (begins i)
  · intro i member locked
    have calm := run_eager (s := opening (programs self calls begins) table) (eager i member)
      (fun inside => by
        obtain ⟨_,_,same⟩ := callers _ inside
        cases same) ran
    rw [locked] at calm
    cases calm
  · intro stuck i member
    obtain ⟨result,here⟩ := run_served _ table eager callers ran stuck i member
    rw [here]
    rfl

theorem rivals_served :
    ∃ last, run step (opening (programs ⟨50,60⟩ rivals fun _ => .immediate) [])
        (turns [0,0,0,0,0,1,1,1,1]) = some last ∧
      ∀ i ∈ [0,1], (last.connections i).answer.isSome := by
  have ends : ((run step (opening (programs ⟨50,60⟩ rivals fun _ => .immediate) [])
      (turns [0,0,0,0,0,1,1,1,1])).any fun s =>
        (step s (.executes 0)).isNone && (step s (.executes 1)).isNone) = true := by
    decide +kernel
  obtain ⟨last,ran,stuck⟩ := (Option.any_eq_true ..).mp ends
  simp only [Bool.and_eq_true,Option.isNone_iff_eq_none] at stuck
  have immediate : ∀ i ∈ [0,1], (fun _ : Nat => Opening.immediate) i = .immediate := fun _ _ => rfl
  refine ⟨last,ran,(immediate_served immediate ?_ ran).2.2 ?_⟩
  · simp [turns]
  · simpa using stuck

theorem reserveStatements_touches {newId : Nat} {apiKey : Str} {estimate : Int} {now : ℚ}
    {reservation : Reservation} {snapshot after : List Row}
    (granted : reserveSync self snapshot apiKey estimate now newId = (.ok reservation,after))
    (beginStatement : Opening) :
    (statements self beginStatement (.reserve newId apiKey estimate now)).touches snapshot = true := by
  obtain ⟨_,nonneg,room,_⟩ := reserveSync_ok granted
  simp [statements,reserveStatements,not_lt.mpr nonneg,Program.touches,Body.touches,
    not_lt.mpr room]

/-- Plain `BEGIN`: a reserve whose check passed on a table that another call has since changed
never gets an answer, and holds nothing, however the run goes on. -/
theorem deferred_check_lost {newId : Nat} {apiKey : Str} {estimate : Int} {now : ℚ}
    {reservation : Reservation} {snapshot admitted : List Row} {i version : Nat}
    {earlier later : List (Event Nat)}
    {s last : System Nat (List Row) Result}
    (reached : run step (opening (programs self calls begins) table) earlier = some s)
    (call : calls i = .reserve newId apiKey estimate now)
    (reads : (s.connections i).snapshot = some (version,snapshot))
    (passed : reserveSync self snapshot apiKey estimate now newId = (.ok reservation,admitted))
    (overtaken : version < s.shared.commits.length)
    (ran : run step s later = some last) :
    (last.connections i).answer = none ∧ i ∉ last.shared.commits := by
  have sound := run_sound _ _ (opening_sound (programs self calls begins) table) reached
  have follows := sound.each i
  obtain ⟨body,reading⟩ := snapshot_reading reads
  rw [reading] at follows
  obtain ⟨_,_,_,_,touches⟩ := follows
  rw [programs,call,reserveStatements_touches passed] at touches
  have stale := run_stale _ _ sound
    (Or.inl ⟨version,snapshot,body,reading,overtaken,touches.symm⟩) ran
  have silent : (last.connections i).answer = none := by
    obtain ⟨_,_,_,here,_⟩ | here := stale <;> rw [here] <;> rfl
  refine ⟨silent,fun member => ?_⟩
  obtain ⟨result,here⟩ := (run_sound _ _ sound ran).closed i member
  rw [here] at silent
  cases silent

/-- The first caller commits between the check and the delete of the second. -/
theorem rivals_lost :
    ∃ s last, run step (opening (programs ⟨50,60⟩ rivals fun _ => .deferred) [])
        (turns [0,1,0,1,0,0,0]) = some s ∧ run step s (turns [1]) = some last ∧
      (last.connections 1).answer = none ∧ 1 ∉ last.shared.commits := by
  have ends : ((run step (opening (programs ⟨50,60⟩ rivals fun _ => .deferred) [])
      (turns [0,1,0,1,0,0,0])).any fun s =>
        decide ((s.connections 1).snapshot = some (0,[])) &&
          decide (0 < s.shared.commits.length) && (run step s (turns [1])).isSome) = true := by
    decide +kernel
  obtain ⟨s,reached,here⟩ := (Option.any_eq_true ..).mp ends
  simp only [Bool.and_eq_true,decide_eq_true_eq,Option.isSome_iff_exists] at here
  obtain ⟨⟨reads,overtaken⟩,last,ran⟩ := here
  have passed : reserveSync ⟨50,60⟩ [] (lit "tenant-a") 30 1 1 =
      (.ok ⟨1,lit "tenant-a",30⟩,[⟨1,lit "tenant-a",30,1,.reserved⟩]) := by decide +kernel
  exact ⟨s,last,reached,ran,deferred_check_lost reached rfl reads passed overtaken ran⟩

end Calls
end GatewaySuite.Limiter
