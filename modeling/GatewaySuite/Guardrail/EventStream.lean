import GatewaySuite.Python.Text

/-! Server-sent events, as a client reads them: lines, fields that accumulate, and a blank line
that dispatches. The fields `id` and `retry` only set the client's reconnection state. -/
namespace GatewaySuite.Guardrail
open Python

def CR : CodePoint := ⟨13,by decide⟩
def LF : CodePoint := ⟨10,by decide⟩

/-- The lines of a text, which end with a line feed, a carriage return, or both in that order.
What comes behind the last end is no line yet. -/
def splitLines : Bool → Str → Str → List Str
  | _,_,[] => []
  | afterCR,line,c::rest =>
    if c = LF then
      if afterCR then splitLines false line rest else line :: splitLines false [] rest
    else if c = CR then line :: splitLines true [] rest
    else splitLines false (line ++ [c]) rest

/-- An event, or the fields of one that is not dispatched yet. The data of the event is its data
lines, joined by line feeds. -/
structure SseEvent where
  eventType : Str
  data : List Str
deriving DecidableEq

namespace SseEvent

def empty : SseEvent := ⟨[],[]⟩

/-- A line that is not blank: a field with its value, or a comment, whose name is empty. -/
def read (pending : SseEvent) (line : Str) : SseEvent :=
  let name := line.takeWhile fun c => !oneOf ":" c
  let value := line.drop (name.length+1)
  let value := if value.head?.any (oneOf " ") then value.tail else value
  if name = lit "event" then {pending with eventType := value}
  else if name = lit "data" then {pending with data := pending.data ++ [value]}
  else pending

def dispatch (pending : SseEvent) : Option SseEvent :=
  if pending.data = [] then none
  else some ⟨if pending.eventType = [] then lit "message" else pending.eventType,pending.data⟩

end SseEvent

def events : SseEvent → List Str → List SseEvent
  | _,[] => []
  | pending,line::rest =>
    if line = [] then pending.dispatch.toList ++ events .empty rest
    else events (pending.read line) rest

def parseEvents (text : Str) : List SseEvent := events .empty (splitLines false [] text)

def OneLine (line : Str) : Prop := ∀ c ∈ line, c ≠ CR ∧ c ≠ LF

instance (line : Str) : Decidable (OneLine line) :=
  decidable_of_iff (line.all (fun c => c ≠ CR ∧ c ≠ LF) = true) (by simp [OneLine])

theorem splitLines_line {line : Str} (one : OneLine line) (rest : Str) :
    splitLines false [] (line ++ LF::rest) = line :: splitLines false [] rest := by
  have behind (start : Str) : splitLines false start (line ++ LF::rest) =
      (start ++ line) :: splitLines false [] rest := by
    induction line generalizing start with
    | nil => simp [splitLines]
    | cons c line ih =>
      obtain ⟨noCR,noLF⟩ := one c List.mem_cons_self
      rw [List.cons_append,splitLines,if_neg noLF,if_neg noCR,
        ih fun d member => one d (List.mem_cons_of_mem c member)]
      simp
  exact behind []

/-- The lines of one event, or of a block of comments. -/
structure Block where
  lines : List Str
  filled : ∀ line ∈ lines, line ≠ []
  oneLine : ∀ line ∈ lines, OneLine line

namespace Block

def fields (block : Block) : SseEvent := block.lines.foldl SseEvent.read .empty

def eventType (block : Block) : Str :=
  if block.fields.eventType = [] then lit "message" else block.fields.eventType

/-- The lines with the blank line behind them. -/
def closed (block : Block) : List Str := block.lines ++ [[]]

theorem closed_oneLine (block : Block) : ∀ line ∈ block.closed, OneLine line := by
  intro line member
  obtain own | blank := List.mem_append.mp member
  · exact block.oneLine line own
  · rw [List.mem_singleton.mp blank]
    exact fun _ none => absurd none List.not_mem_nil

end Block

def textOf (lines : List Str) : Str := lines.flatMap fun line => line ++ [LF]

theorem splitLines_textOf {lines : List Str} (oneLine : ∀ line ∈ lines, OneLine line) (rest : Str) :
    splitLines false [] (textOf lines ++ rest) = lines ++ splitLines false [] rest := by
  induction lines with
  | nil => rfl
  | cons line lines ih =>
    have here := splitLines_line (oneLine line List.mem_cons_self) (textOf lines ++ rest)
    have shape : textOf (line::lines) ++ rest = line ++ LF::(textOf lines ++ rest) := by
      simp [textOf]
    rw [shape,here,ih fun other member => oneLine other (List.mem_cons_of_mem line member)]
    rfl

/-- The data that a line brings, if it is a data line. -/
def dataOf (line : Str) : Option Str := (SseEvent.empty.read line).data.head?

theorem single_dispatch (line : Str) :
    (SseEvent.empty.read line).dispatch = (dataOf line).map fun data => ⟨lit "message",[data]⟩ := by
  unfold dataOf SseEvent.read SseEvent.empty
  dsimp only
  split_ifs <;> rfl

theorem events_single (line : Str) (rest : List Str) :
    events .empty (line::[]::rest) = (SseEvent.empty.read line).dispatch.toList ++ events .empty rest := by
  by_cases blank : line = []
  · subst line
    rfl
  · simp only [events,blank,if_false,if_true]

theorem parseEvents_apart {lines : List Str} (oneLine : ∀ line ∈ lines, OneLine line) :
    parseEvents (lines.flatMap fun line => line ++ [LF,LF]) =
      (lines.filterMap dataOf).map fun data => ⟨lit "message",[data]⟩ := by
  have apart : (lines.flatMap fun line => line ++ [LF,LF]) =
      textOf (lines.flatMap fun line => [line,[]]) := by
    simp [textOf,List.flatMap_assoc]
  have whole : ∀ line ∈ lines.flatMap fun line => [line,[]], OneLine line := by
    intro line member
    obtain ⟨own,inside,here⟩ := List.mem_flatMap.mp member
    obtain rfl | rfl : line = own ∨ line = [] := by simpa using here
    · exact oneLine line inside
    · exact fun _ none => absurd none List.not_mem_nil
  have split := splitLines_textOf whole []
  rw [List.append_nil] at split
  rw [parseEvents,apart,split]
  simp only [splitLines,List.append_nil]
  clear apart whole split oneLine
  induction lines with
  | nil => rfl
  | cons line rest ih =>
    rw [List.flatMap_cons,List.cons_append,List.singleton_append,events_single,ih,single_dispatch,
      List.filterMap_cons]
    cases dataOf line <;> rfl

end GatewaySuite.Guardrail
