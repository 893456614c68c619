import GatewaySuite.Guardrail.Patterns
import GatewaySuite.Lib.Splice

/-! The redactor: `iter_matches` and what is built on it, the hold-back, and the
incremental `StreamRedactor`. Positions and slices are those of the source. -/
namespace GatewaySuite.Guardrail
open Lib Python

def MAX_HOLDBACK : Nat := 400
def LOOKBEHIND_CONTEXT : Nat := 400
def MAX_MATCH : Nat := 400
def MAX_BUFFER : Nat := MAX_HOLDBACK + MAX_MATCH

abbrev Match := Hit Label

/-- `int(char)`. It raises on a character that is no decimal digit; a card span has none
that `isdigit` accepts. -/
def intOf (u : Unicode) (char : CodePoint) : Nat := ((u.decimal char).map Fin.val).getD 0

def luhnOk (u : Unicode) (digits : Str) : Bool :=
  let total := digits.reverse.zipIdx.foldl (fun total (char,index) =>
    let value := intOf u char
    let value := if index % 2 = 1 then
        let doubled := value * 2
        if doubled > 9 then doubled - 9 else doubled
      else value
    total + value) 0
  total % 10 == 0

def isCard (u : Unicode) (value : Str) : Bool :=
  let digits := value.filter u.isdigit
  13 ≤ digits.length && digits.length ≤ 19 && luhnOk u digits

/-- `COMBINED` at one position: the first alternative that matches, with its first match. -/
def combinedAt (u : Unicode) (text : Str) (p : Nat) : Option (Label × Nat) :=
  (PATTERNS u).findSome? fun (label,pattern) =>
    (pattern.ends text p).head?.map fun stop => (label,stop)

/-- `COMBINED.search(text, pos)` -/
def combinedSearch (u : Unicode) (text : Str) (pos : Nat) : Option Match :=
  if pos ≤ text.length then
    (Regex.leftmost (combinedAt u text) (text.length-pos) pos).map
      fun (start,label,stop) => ⟨start,stop,label⟩
  else none

def isRejected (u : Unicode) (text : Str) (found : Match) : Bool :=
  found.label == .CREDIT_CARD && !isCard u (slice text found.start found.stop)

/-- The `while True` loop; every round moves `pos` forward, so `fuel` never runs out. -/
def iterLoop (u : Unicode) (text : Str) : Nat → Nat → List Match
  | 0,_ => []
  | fuel+1,pos =>
    match combinedSearch u text pos with
    | none => []
    | some found =>
      if isRejected u text found then iterLoop u text fuel (found.start+1)
      else found :: iterLoop u text fuel found.stop

def iterMatches (u : Unicode) (text : Str) (start : Nat) : List Match :=
  iterLoop u text (text.length+1) start

/-- `redactions` is the count under a label, zero where the dictionary has no entry. -/
structure RedactionStats where
  chunksIn : Nat
  charactersIn : Nat
  charactersOut : Nat
  redactions : Label → Nat
  maxBuffer : Nat

namespace RedactionStats

def zero : RedactionStats := ⟨0,0,0,fun _ => 0,0⟩

def record (stats : RedactionStats) (label : Label) : RedactionStats :=
  {stats with redactions := Function.update stats.redactions label (stats.redactions label + 1)}

def totalRedactions (stats : RedactionStats) : Nat :=
  ([.EMAIL,.API_KEY,.CREDIT_CARD,.SSN,.PHONE].map stats.redactions).sum

end RedactionStats

def DEFAULT_PLACEHOLDER : Str := lit "[REDACTED]"

/-- The loop of `redact_range`, from a cursor on. -/
def emitMatches (text : Str) (stop : Nat) (placeholder : Str) :
    Nat → List Match → RedactionStats → Str × RedactionStats
  | cursor,[],stats => (slice text cursor stop,stats)
  | cursor,found::rest,stats =>
    if found.stop > stop then (slice text cursor stop,stats)
    else
      let (tail,after) := emitMatches text stop placeholder found.stop rest (stats.record found.label)
      (slice text cursor found.start ++ placeholder ++ tail,after)

def redactRange (u : Unicode) (text : Str) (start stop : Nat) (stats : RedactionStats)
    (placeholder : Str) (found : Option (List Match)) : Str × RedactionStats :=
  emitMatches text stop placeholder start (found.getD (iterMatches u text start)) stats

def redactCompleteFrom (u : Unicode) (text : Str) (start : Nat) (stats : RedactionStats)
    (placeholder : Str) : Str × RedactionStats :=
  redactRange u text start text.length stats placeholder none

def redactCompleteStats (u : Unicode) (text : Str) (stats : RedactionStats) (placeholder : Str) :
    Str × RedactionStats :=
  redactRange u text 0 text.length stats placeholder none

def redactComplete (u : Unicode) (text placeholder : Str) : Str :=
  (redactCompleteStats u text .zero placeholder).1

def pullBackBehindStraddlingMatch (u : Unicode) (buffer : Str) (split offset : Nat)
    (found : Option (List Match)) : Nat :=
  max (Scanner.pull split (found.getD (iterMatches u buffer offset))) offset

def groupLength (found : Option (Nat × Nat)) : Nat :=
  match found with
  | some (start,stop) => stop-start
  | none => 0

def holdback (u : Unicode) (buffer : Str) (maxHoldback : Nat) : Nat :=
  if buffer = [] then 0
  else
    let window := lastChars maxHoldback buffer
    let token := TAIL_TOKEN.search window 0
    let digits := (TAIL_DIGITS u).search window 0
    let longest := max (groupLength token) (groupLength digits)
    min longest maxHoldback

inductive RuntimeError where
  | feedAfterFlush
deriving DecidableEq, Repr

structure StreamRedactor where
  maxHoldback : Nat
  placeholder : Str
  buffer : Str
  leftContext : Str
  closed : Bool
  stats : RedactionStats

namespace StreamRedactor

def init (maxHoldback : Nat) (placeholder : Str) : StreamRedactor :=
  ⟨maxHoldback,placeholder,[],[],false,.zero⟩

def buffered (self : StreamRedactor) : Nat := self.buffer.length

def feed (u : Unicode) (self : StreamRedactor) (chunk : Str) :
    Except RuntimeError (Str × StreamRedactor) :=
  if self.closed then .error .feedAfterFlush
  else if chunk = [] then .ok ([],self)
  else
    let stats := {self.stats with
      chunksIn := self.stats.chunksIn + 1
      charactersIn := self.stats.charactersIn + chunk.length}
    let buffer := self.buffer ++ chunk
    let preTrim := buffer.length
    let whole := self.leftContext ++ buffer
    let offset := self.leftContext.length
    let found := iterMatches u whole offset
    let hold := holdback u buffer self.maxHoldback
    let split := offset + buffer.length - hold
    let split := pullBackBehindStraddlingMatch u whole split offset (some found)
    let safeLen := split - offset
    let safeRaw := buffer.take safeLen
    let (emit,stats) := redactRange u whole offset split stats self.placeholder (some found)
    let rest := buffer.drop safeLen
    .ok (emit,{self with
      buffer := rest
      leftContext := lastChars LOOKBEHIND_CONTEXT (self.leftContext ++ safeRaw)
      stats := {stats with
        maxBuffer := max stats.maxBuffer (max preTrim rest.length)
        charactersOut := stats.charactersOut + emit.length}})

def flush (u : Unicode) (self : StreamRedactor) : Str × StreamRedactor :=
  if self.closed then ([],self)
  else
    let combined := self.leftContext ++ self.buffer
    let (remainder,stats) :=
      redactCompleteFrom u combined self.leftContext.length self.stats self.placeholder
    (remainder,{self with
      closed := true
      buffer := []
      leftContext := []
      stats := {stats with charactersOut := stats.charactersOut + remainder.length}})

def feedAll (u : Unicode) (self : StreamRedactor) :
    List Str → Except RuntimeError (Str × StreamRedactor)
  | [] => .ok ([],self)
  | chunk::rest => do
    let (emit,next) ← self.feed u chunk
    let (more,last) ← feedAll u next rest
    return (emit ++ more,last)

end StreamRedactor
end GatewaySuite.Guardrail
