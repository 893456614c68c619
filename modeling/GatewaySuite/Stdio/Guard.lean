import GatewaySuite.Lib.Descriptors

/-! `reserve_stdout_for_protocol`, on the descriptor table of the server. -/
namespace GatewaySuite.Stdio
open Lib
variable {F : Type}

inductive GuardError where
  | RuntimeError
  | OSError
deriving DecidableEq, Repr

/-- What the guard reads and changes: the descriptors, the descriptor of `sys.stdout` with what
is in its buffer, whether `BILLING_MCP_DISABLE_GUARD` is set, and the globals of the module.
`written` is what has reached each file. -/
structure Server (F : Type) where
  table : Table F
  written : List (F × List UInt8)
  stdout : Nat
  buffer : List UInt8
  disabled : Bool
  alreadyReserved : Bool
  retained : List Nat

/-- `sys.stdout.flush()`, whose failure is passed over. -/
def Server.flush (self : Server F) : Server F :=
  match self.table.find self.stdout with
  | some d => {self with written := self.written ++ [(d.file,self.buffer)], buffer := []}
  | none => self

/-- The rebuilt `sys.stdout`; `sys.stderr` if there is no descriptor left. -/
def Server.divert (limit : Nat) (self : Server F) : Server F :=
  match self.table.dup limit 1 false with
  | some (diverted,table) =>
    {self with table := table, stdout := diverted, buffer := [], retained := self.retained ++ [diverted]}
  | none => {self with stdout := 2, buffer := []}

/-- The descriptor of the returned stream, and the server with it. `os.dup` returns a number that
is not inheritable, `os.dup2` makes its target inheritable. -/
def reserveStdoutForProtocol (limit : Nat) (self : Server F) : Except GuardError (Nat × Server F) :=
  if self.alreadyReserved then .error .RuntimeError
  else if self.disabled then .ok (self.stdout,{self with alreadyReserved := true})
  else
    let self := self.flush
    match self.table.dup limit 1 false with
    | none => .error .OSError
    | some (wireFd,table) =>
      match table.setInheritable wireFd false with
      | none => .error .OSError
      | some table =>
        match table.dup2 limit 2 1 true with
        | none => .error .OSError
        | some table =>
          let self := Server.divert limit {self with table := table}
          .ok (wireFd,{self with alreadyReserved := true, retained := self.retained ++ [wireFd]})

/-- Descriptor 1 is the only one open on the wire, and descriptor 2 is open on another file. -/
structure Starts (wire : F) (table : Table F) : Prop where
  stdout : ∃ d, table.find 1 = some d ∧ d.file = wire
  only : ∀ fd d, table.find fd = some d → d.file = wire → fd = 1
  stderr : ∃ d, table.find 2 = some d ∧ d.file ≠ wire

/-- The wire is open under one number, which no child inherits. -/
def Private (wire : F) (wireFd : Nat) (table : Table F) : Prop :=
  ∀ fd d, table.find fd = some d → d.file = wire → fd = wireFd ∧ d.inheritable = false

theorem dup_some {limit fd new : Nat} {inheritable : Bool} {t table : Table F}
    (copied : t.dup limit fd inheritable = some (new,table)) :
    ∃ d, t.find fd = some d ∧ t.find new = none ∧ table = t.put new ⟨d.file,inheritable⟩ := by
  unfold Table.dup at copied
  split at copied
  next d found =>
    split_ifs at copied
    cases copied
    exact ⟨d,found,t.find_lowest,rfl⟩
  next => cases copied

theorem dup2_some {limit source target : Nat} {inheritable : Bool} {t table : Table F}
    (distinct : source ≠ target) (copied : t.dup2 limit source target inheritable = some table) :
    ∃ d, t.find source = some d ∧ table = t.put target ⟨d.file,inheritable⟩ := by
  unfold Table.dup2 at copied
  split at copied
  next d found =>
    split_ifs at copied
    cases copied
    exact ⟨d,found,rfl⟩
  next => cases copied

/-- A copy of a descriptor that is open on another file does not reach the wire. -/
theorem Private.put {wire : F} {wireFd target : Nat} {table : Table F} {d : Descriptor F}
    (confined : Private wire wireFd table) (other : d.file ≠ wire) :
    Private wire wireFd (table.put target d) := by
  intro fd d' found same
  rw [Table.find_put] at found
  split_ifs at found
  · cases found
    exact absurd same other
  · exact confined fd d' found same

theorem divert_private {limit wireFd : Nat} {wire : F} {self : Server F} {d : Descriptor F}
    (confined : Private wire wireFd self.table) (diverted : self.table.find 1 = some d)
    (other : d.file ≠ wire) :
    Private wire wireFd (self.divert limit).table := by
  unfold Server.divert
  split
  next new table copied =>
    obtain ⟨d',found,_,rfl⟩ := dup_some copied
    cases diverted.symm.trans found
    exact confined.put other
  next => exact confined

/-- The three calls of the guard leave the wire under the number of the copy alone, and
descriptor 1 on the file of descriptor 2. -/
theorem calls_private {limit wireFd : Nat} {wire : F} {table copy sealed' diverted : Table F}
    (starts : Starts wire table) (copied : table.dup limit 1 false = some (wireFd,copy))
    (sealing : copy.setInheritable wireFd false = some sealed')
    (overwritten : sealed'.dup2 limit 2 1 true = some diverted) :
    Private wire wireFd diverted ∧ ∃ d, diverted.find 1 = some d ∧ d.file ≠ wire := by
  obtain ⟨stdout,out,wired⟩ := starts.stdout
  obtain ⟨stderr,err,elsewhere⟩ := starts.stderr
  obtain ⟨d,found,free,rfl⟩ := dup_some copied
  -- the number of the copy was free, so it is neither 1 nor 2
  have notErr : 2 ≠ wireFd := by
    rintro rfl
    cases err.symm.trans free
  obtain ⟨d',found',rfl⟩ := Option.map_eq_some_iff.mp sealing
  obtain ⟨d'',found'',rfl⟩ := dup2_some (by decide) overwritten
  rw [Table.find_put,if_neg notErr,Table.find_put,if_neg notErr] at found''
  cases err.symm.trans found''
  constructor
  · intro fd e here same
    rw [Table.find_put,Table.find_put,Table.find_put] at here
    split_ifs at here with first second
    · cases here
      exact absurd same elsewhere
    · cases here
      exact ⟨second,rfl⟩
    · exact absurd (starts.only fd e here same) first
  · exact ⟨⟨stderr.file,true⟩,by rw [Table.find_put,if_pos rfl],elsewhere⟩

theorem flush_table (self : Server F) : self.flush.table = self.table := by
  unfold Server.flush
  split <;> rfl

theorem guard_private {limit wireFd : Nat} {wire : F} {self after : Server F}
    (starts : Starts wire self.table) (enabled : self.disabled = false)
    (returned : reserveStdoutForProtocol limit self = .ok (wireFd,after)) :
    Private wire wireFd after.table := by
  unfold reserveStdoutForProtocol at returned
  simp only [enabled,flush_table,Bool.false_eq_true,if_false] at returned
  split_ifs at returned
  split at returned
  next => cases returned
  next new copy copied =>
    split at returned
    next => cases returned
    next sealed' sealing =>
      split at returned
      next => cases returned
      next diverted overwritten =>
        obtain ⟨rfl,rfl⟩ := Prod.mk.inj (Except.ok.inj returned)
        obtain ⟨closed,d,out,elsewhere⟩ := calls_private starts copied sealing overwritten
        exact divert_private closed out elsewhere

/-- After the guard nothing reaches the wire but through the returned stream, whatever the
server does to its other descriptors, and whatever the children do that it spawns. -/
theorem only_stream_reaches_wire {limit wireFd : Nat} {wire : F} {self after : Server F}
    (starts : Starts wire self.table) (enabled : self.disabled = false)
    (returned : reserveStdoutForProtocol limit self = .ok (wireFd,after))
    {events : List (Nat × Action)} {last : Processes F}
    (apart : ∀ event ∈ events, event.1 = 0 → wireFd ∉ event.2.names)
    (ran : run (Processes.step limit) ⟨[after.table],after.written⟩ events = some last) :
    ∃ more, last.written = after.written ++ more ∧ ∀ w ∈ more, w.1 ≠ wire := by
  have closed := guard_private starts enabled returned
  apply Processes.confined_run _ apart ran
  intro q t here fd d found same
  obtain ⟨inside,rfl⟩ := List.getElem?_eq_some_iff.mp here
  rw [List.length_singleton,Nat.lt_one_iff] at inside
  subst q
  exact ⟨rfl,closed fd d found same⟩

inductive File where
  | stdin
  | wire
  | stderr
deriving DecidableEq, Repr

def launched : Server File :=
  ⟨[some ⟨.stdin,true⟩,some ⟨.wire,true⟩,some ⟨.stderr,true⟩],[],1,[],false,false,[]⟩

/-- The four writes of `emit_chaos`: two prints, a library that writes to the descriptor, and a
child. -/
def chaos : List (Nat × Action) :=
  [(0,.write 4 [68]),(0,.write 1 [66]),(0,.spawn),(1,.write 1 [67]),(0,.write 4 [123])]

theorem only_stream_reaches_wire_chaos :
    ∃ after last, reserveStdoutForProtocol 1024 launched = .ok (3,after) ∧
      run (Processes.step 1024) ⟨[after.table],after.written⟩ chaos = some last ∧
      ∃ more, last.written = after.written ++ more ∧ ∀ w ∈ more, w.1 ≠ .wire := by
  have starts : Starts .wire launched.table := by
    refine ⟨⟨_,rfl,rfl⟩,?_,⟨_,rfl,by decide⟩⟩
    intro fd d found same
    match fd with
    | 0 => cases found; cases same
    | 1 => rfl
    | 2 => cases found; cases same
    | _+3 => cases found
  obtain ⟨after,returned⟩ : ∃ after, reserveStdoutForProtocol 1024 launched = .ok (3,after) :=
    ⟨_,rfl⟩
  obtain ⟨last,ran⟩ : ∃ last, run (Processes.step 1024) ⟨[after.table],after.written⟩ chaos = some last := by
    cases returned
    exact ⟨_,rfl⟩
  exact ⟨after,last,returned,ran,only_stream_reaches_wire starts rfl returned (by decide) ran⟩

end GatewaySuite.Stdio
