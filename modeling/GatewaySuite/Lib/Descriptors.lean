import GatewaySuite.Lib.Run

/-! Descriptor tables after POSIX: `dup` takes the lowest free number, `dup2` a given one, and a
spawned process has the inheritable descriptors of its parent. A file that only one descriptor
of one process refers to, and that no child inherits, stays out of everyone else's reach. -/
namespace GatewaySuite.Lib

structure Descriptor (F : Type) where
  file : F
  inheritable : Bool

abbrev Table (F : Type) := List (Option (Descriptor F))

variable {F : Type}

namespace Table

def find (t : Table F) (fd : Nat) : Option (Descriptor F) := t[fd]?.join

def put (t : Table F) (fd : Nat) (d : Descriptor F) : Table F :=
  (List.range (max t.length (fd+1))).map fun n => if n = fd then some d else t.find n

def lowest (t : Table F) : Nat := t.findIdx Option.isNone

/-- A process has fewer than `limit` descriptors, which are numbered from zero. -/
def dup (limit : Nat) (t : Table F) (fd : Nat) (inheritable : Bool) : Option (Nat × Table F) :=
  match t.find fd with
  | some d =>
    if t.lowest < limit then some (t.lowest,t.put t.lowest ⟨d.file,inheritable⟩) else none
  | none => none

def dup2 (limit : Nat) (t : Table F) (source target : Nat) (inheritable : Bool) : Option (Table F) :=
  match t.find source with
  | some d =>
    if limit ≤ target then none
    else if source = target then some t
    else some (t.put target ⟨d.file,inheritable⟩)
  | none => none

def setInheritable (t : Table F) (fd : Nat) (inheritable : Bool) : Option (Table F) :=
  (t.find fd).map fun d => t.put fd ⟨d.file,inheritable⟩

/-- The table of a program that is executed. -/
def inherited (t : Table F) : Table F := t.map fun d => d.filter Descriptor.inheritable

@[simp] theorem find_put (t : Table F) (fd n : Nat) (d : Descriptor F) :
    (t.put fd d).find n = if n = fd then some d else t.find n := by
  unfold put find
  by_cases inside : n < max t.length (fd+1)
  · rw [List.getElem?_map,List.getElem?_range inside]
    rfl
  · have past : t.length ≤ n := by omega
    have other : n ≠ fd := by omega
    rw [List.getElem?_eq_none (by simpa using inside),if_neg other,List.getElem?_eq_none past]

@[simp] theorem find_inherited (t : Table F) (n : Nat) :
    t.inherited.find n = (t.find n).filter Descriptor.inheritable := by
  unfold inherited find
  rw [List.getElem?_map]
  cases t[n]? <;> rfl

theorem find_lowest (t : Table F) : t.find t.lowest = none := by
  unfold find lowest
  by_cases some : t.findIdx Option.isNone < t.length
  · have free := List.findIdx_getElem (w := some)
    rw [List.getElem?_eq_getElem some]
    simpa using free
  · rw [List.getElem?_eq_none (by omega)]
    rfl

end Table

inductive Action where
  | write (fd : Nat) (bytes : List UInt8)
  | dup (fd : Nat) (inheritable : Bool)
  | dup2 (source target : Nat) (inheritable : Bool)
  | spawn

/-- The descriptors that an action writes to, copies or overwrites. -/
def Action.names : Action → List Nat
  | .write fd _ => [fd]
  | .dup fd _ => [fd]
  | .dup2 source target _ => [source,target]
  | .spawn => []

/-- The processes that there are, and what has been written to each file, in order. -/
structure Processes (F : Type) where
  tables : List (Table F)
  written : List (F × List UInt8)

namespace Processes

/-- An action of process `p`; a call that fails changes nothing. -/
def step (limit : Nat) (s : Processes F) (event : Nat × Action) : Option (Processes F) :=
  (s.tables[event.1]?).map fun t =>
    match event.2 with
    | .write fd bytes =>
      match t.find fd with
      | some d => {s with written := s.written ++ [(d.file,bytes)]}
      | none => s
    | .dup fd inheritable =>
      match t.dup limit fd inheritable with
      | some (_,table) => {s with tables := s.tables.set event.1 table}
      | none => s
    | .dup2 source target inheritable =>
      match t.dup2 limit source target inheritable with
      | some table => {s with tables := s.tables.set event.1 table}
      | none => s
    | .spawn => {s with tables := s.tables ++ [t.inherited]}

/-- Of all processes, only `p` has the file open, and only under a number it does not pass on. -/
def Confined (file : F) (p fd : Nat) (s : Processes F) : Prop :=
  ∀ q t, s.tables[q]? = some t → ∀ n d, t.find n = some d → d.file = file →
    q = p ∧ n = fd ∧ d.inheritable = false

/-- Some process has the file open under some number that the event may name. -/
theorem confined_elsewhere {file : F} {p fd q n : Nat} {s : Processes F} {t : Table F}
    {d : Descriptor F} (confined : Confined file p fd s) (here : s.tables[q]? = some t)
    (found : t.find n = some d) (apart : q = p → n ≠ fd) : d.file ≠ file := by
  intro same
  obtain ⟨process,number,_⟩ := confined q t here n d found same
  exact apart process number

theorem confined_put {file : F} {p fd q target : Nat} {s : Processes F} {t : Table F}
    {d : Descriptor F} (confined : Confined file p fd s) (here : s.tables[q]? = some t)
    (other : d.file ≠ file) :
    Confined file p fd {s with tables := s.tables.set q (t.put target d)} := by
  intro q' t' here' n d' found same
  dsimp only at here'
  rw [List.getElem?_set] at here'
  split_ifs at here' with own inside
  · subst q'
    cases here'
    rw [Table.find_put] at found
    split_ifs at found
    · cases found
      exact absurd same other
    · exact confined q t here n d' found same
  · exact confined q' t' here' n d' found same

/-- What has been written since is all to other files. -/
def Unwritten (file : F) (before after : Processes F) : Prop :=
  ∃ more, after.written = before.written ++ more ∧ ∀ w ∈ more, w.1 ≠ file

theorem Unwritten.same (file : F) {before after : Processes F} (same : after.written = before.written) :
    Unwritten file before after := ⟨[],by rw [same,List.append_nil],by simp⟩

theorem Unwritten.trans {file : F} {first second third : Processes F}
    (early : Unwritten file first second) (late : Unwritten file second third) :
    Unwritten file first third := by
  obtain ⟨more,grown,others⟩ := early
  obtain ⟨rest,grown',others'⟩ := late
  refine ⟨more++rest,by rw [grown',grown,List.append_assoc],fun w member => ?_⟩
  rcases List.mem_append.mp member with inside | inside
  · exact others w inside
  · exact others' w inside

theorem confined_step {limit : Nat} {file : F} {p fd : Nat} {s next : Processes F}
    {event : Nat × Action} (confined : Confined file p fd s)
    (apart : event.1 = p → fd ∉ event.2.names) (stepped : s.step limit event = some next) :
    Confined file p fd next ∧ Unwritten file s next := by
  obtain ⟨q,action⟩ := event
  obtain ⟨t,here,rfl⟩ := Option.map_eq_some_iff.mp stepped
  have other (n : Nat) (named : n ∈ action.names) {d : Descriptor F} (found : t.find n = some d) :
      d.file ≠ file :=
    confined_elsewhere confined here found fun own same => apart own (same ▸ named)
  cases action with
  | write n bytes =>
    dsimp only
    cases found : t.find n with
    | none => exact ⟨confined,.same file rfl⟩
    | some d =>
      exact ⟨confined,[(d.file,bytes)],rfl,by simpa using other n (by simp [Action.names]) found⟩
  | dup n inheritable =>
    dsimp only [Table.dup]
    cases found : t.find n with
    | none => exact ⟨confined,.same file rfl⟩
    | some d =>
      have away := other n (by simp [Action.names]) found
      dsimp only
      by_cases room : t.lowest < limit
      · simp only [room,if_true]
        exact ⟨confined_put confined here away,.same file rfl⟩
      · simp only [room,if_false]
        exact ⟨confined,.same file rfl⟩
  | dup2 source target inheritable =>
    dsimp only [Table.dup2]
    cases found : t.find source with
    | none => exact ⟨confined,.same file rfl⟩
    | some d =>
      have away := other source (by simp [Action.names]) found
      dsimp only
      by_cases past : limit ≤ target
      · simp only [past,if_true]
        exact ⟨confined,.same file rfl⟩
      · by_cases same : source = target
        · have kept : s.tables.set q t = s.tables := by
            obtain ⟨inside,rfl⟩ := List.getElem?_eq_some_iff.mp here
            exact List.set_getElem_self inside
          simp only [past,same,if_true,if_false,kept]
          exact ⟨confined,.same file rfl⟩
        · simp only [past,same,if_false]
          exact ⟨confined_put confined here away,.same file rfl⟩
  | spawn =>
    refine ⟨?_,.same file rfl⟩
    intro q' t' here' n d found same
    dsimp only at here'
    by_cases old : q' < s.tables.length
    · rw [List.getElem?_append_left old] at here'
      exact confined q' t' here' n d found same
    · rw [List.getElem?_append_right (by omega)] at here'
      have child : t' = t.inherited := List.mem_singleton.mp (List.mem_of_getElem? here')
      subst t'
      rw [Table.find_inherited,Option.filter_eq_some_iff] at found
      obtain ⟨_,_,kept⟩ := confined q t here n d found.1 same
      rw [kept] at found
      cases found.2

theorem confined_run {limit : Nat} {file : F} {p fd : Nat} {s last : Processes F}
    {events : List (Nat × Action)} (confined : Confined file p fd s)
    (apart : ∀ event ∈ events, event.1 = p → fd ∉ event.2.names)
    (ran : run (step limit) s events = some last) : Unwritten file s last := by
  have kept : ∀ now event next, (event.1 = p → fd ∉ event.2.names) →
      Confined file p fd now ∧ Unwritten file s now → step limit now event = some next →
        Confined file p fd next ∧ Unwritten file s next := by
    rintro now event next allowed ⟨inside,before⟩ stepped
    obtain ⟨confined',since⟩ := confined_step inside allowed stepped
    exact ⟨confined',before.trans since⟩
  exact (run_invariant_of kept apart ⟨confined,.same file rfl⟩ ran).2

end Processes
end GatewaySuite.Lib
