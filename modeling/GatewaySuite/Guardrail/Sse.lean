import GatewaySuite.Guardrail.Redactor
import GatewaySuite.Python.Json

/-! The streaming proxy: `redact_sse_stream` line by line, and the redaction of a body
that does not stream. `json.loads` is a parameter: nothing below depends on which texts
it accepts. What the generator yields is kept unserialised. -/
namespace GatewaySuite.Guardrail
open Python

abbrev Loads := Str → Except LoadsError Json

/-- What the generator yields: `{line}`, `data: {payload}`, `data: [DONE]`, `sse(frame)`. -/
inductive Emission where
  | line (line : Str)
  | payload (payload : Str)
  | done
  | frame (frame : Dict)

/-- `_choices_of` -/
def choicesOf (frame : Dict) : List Dict :=
  match frame.get "choices" with
  | some (.arr items) => items.filterMap Json.dict?
  | _ => []

/-- The delta of a choice, empty where it is no dictionary. -/
def deltaOf (choice : Dict) : Dict := ((choice.get "delta").bind Json.dict?).getD []

/-- The first component of `_content_of`. -/
def contentOf (choice : Dict) : Option Str := ((deltaOf choice).get "content").bind Json.str?

/-- The second component of `_content_of`, where it is not `None`. -/
def finishOf (choice : Dict) : Option Json := (choice.get "finish_reason").filter Json.notNone

/-- `_finish_reason_of` -/
def finishReasonOf (frame : Dict) : Option Json := (choicesOf frame).findSome? finishOf

/-- `_with_content` -/
def withContent (frame : Dict) (text : Str) : Dict :=
  let clone := frame.without ["choices"]
  let template := (choicesOf frame).head?.getD []
  let choice := template.without ["delta","finish_reason"]
  let choice := choice.setdefault "index" (.int 0)
  let choice := choice.set "delta" (.obj (Dict.set [] "content" (.str text)))
  let choice := choice.set "finish_reason" .null
  clone.set "choices" (.arr [.obj choice])

/-- The index a choice answers to, where it is an integer. -/
def choiceIndex (choice : Dict) : Option Int :=
  match choice.get "index" with
  | some (.int index) => some index
  | _ => none

inductive Call where
  | feed (chunk : Str)
  | flush
deriving DecidableEq, Repr

/-- The local variables of the generator; `calls` records what it asked the redactor. -/
structure SseState where
  lastFrame : Option Dict
  flushed : Bool
  redactor : StreamRedactor
  calls : List Call

inductive SseError where
  | runtime (error : RuntimeError)
  | loads (error : LoadsError)
deriving DecidableEq, Repr

namespace SseState

def init (redactor : StreamRedactor) : SseState := ⟨none,false,redactor,[]⟩

def feed (u : Unicode) (self : SseState) (chunk : Str) : Except RuntimeError (Str × SseState) := do
  let (safe,redactor) ← self.redactor.feed u chunk
  return (safe,{self with redactor := redactor, calls := self.calls ++ [.feed chunk]})

def flush (u : Unicode) (self : SseState) : Str × SseState :=
  let (tail,redactor) := self.redactor.flush u
  (tail,{self with redactor := redactor, flushed := true, calls := self.calls ++ [.flush]})

end SseState

structure ChoiceLoop where
  state : SseState
  emittedAny : Bool
  rebuilt : List Dict

def dropContent (choice : Dict) : Dict :=
  match (choice.get "delta").bind Json.dict? with
  | some delta =>
    if ((delta.get "content").filter Json.notNone).isSome then
      choice.set "delta" (.obj (delta.without ["content"]))
    else choice
  | none => choice

def safeText (u : Unicode) (finishReason : Option Json) (content : Str) (state : SseState) :
    Except RuntimeError (Str × SseState) :=
  if state.flushed then .ok (redactComplete u content DEFAULT_PLACEHOLDER,state)
  else do
    let (safe,state) ← state.feed u content
    if finishReason.isSome then
      let (tail,state) := state.flush u
      return (safe ++ tail,state)
    else return (safe,state)

def redactChoice (u : Unicode) (finishReason : Option Json) (loop : ChoiceLoop) (choice : Dict) :
    Except RuntimeError ChoiceLoop :=
  match contentOf choice with
  | none => .ok {loop with rebuilt := loop.rebuilt ++ [dropContent choice]}
  | some content => do
    let (safe,state) ← safeText u finishReason content loop.state
    if safe ≠ [] then
      let delta := (deltaOf choice).set "content" (.str safe)
      return ⟨state,true,loop.rebuilt ++ [choice.set "delta" (.obj delta)]⟩
    else if finishReason.isSome then
      let delta := (deltaOf choice).without ["content"]
      return {loop with state := state, rebuilt := loop.rebuilt ++ [choice.set "delta" (.obj delta)]}
    else return {loop with state := state}

def tailFrame (frame : Dict) (tail : Str) : List Emission :=
  if tail = [] then [] else [.frame (withContent frame tail)]

def redactFrame (u : Unicode) (frame : Dict) (state : SseState) :
    Except RuntimeError (List Emission × SseState) := do
  let finishReason := finishReasonOf frame
  let choices := choicesOf frame
  let loop ← choices.foldlM (redactChoice u finishReason) ⟨{state with lastFrame := some frame},false,[]⟩
  if choices.isEmpty then
    if finishReason.isSome && !loop.state.flushed then
      let (tail,state) := loop.state.flush u
      return (tailFrame frame tail ++ [.frame frame],state)
    else return ([.frame frame],loop.state)
  else if loop.emittedAny || finishReason.isSome ||
      !choices.any (fun choice => (contentOf choice).any (· ≠ [])) then
    return ([.frame (frame.set "choices" (.arr (loop.rebuilt.map .obj)))],loop.state)
  else return ([],loop.state)

inductive Line where
  | blank
  | field (line : Str)
  | done
  | unread (payload : Str)
  | frame (frame : Dict)
  | raises (error : LoadsError)

/-- `unread` is a payload that is no JSON or no dictionary. -/
def readLine (u : Unicode) (loads : Loads) (line : Str) : Line :=
  if u.strip line = [] then .blank
  else if !(lit "data:").isPrefixOf line then .field line
  else
    let payload := u.strip (line.drop (lit "data:").length)
    if payload = lit "[DONE]" then .done
    else
      match loads payload with
      | .error .JSONDecodeError => .unread payload
      | .error error => .raises error
      | .ok (.obj frame) => .frame frame
      | .ok _ => .unread payload

def sseLine (u : Unicode) (line : Line) (state : SseState) :
    Except SseError (List Emission × SseState) :=
  match line with
  | .blank => .ok ([],state)
  | .field line => .ok ([.line line],state)
  | .done =>
    if state.flushed then .ok ([.done],state)
    else
      let (tail,next) := state.flush u
      .ok (tailFrame (state.lastFrame.getD []) tail ++ [.done],next)
  | .unread payload => .ok ([.payload payload],state)
  | .frame frame => (redactFrame u frame state).mapError .runtime
  | .raises error => .error (.loads error)

/-- The loop; an exception ends it after what was yielded before. -/
def sseLines (u : Unicode) : List Line → SseState → List Emission × SseState × Option SseError
  | [],state => ([],state,none)
  | line::rest,state =>
    match sseLine u line state with
    | .error error => ([],state,some error)
    | .ok (out,next) =>
      let (more,last) := sseLines u rest next
      (out ++ more,last)

/-- The flush after the loop, for an upstream that ended without `[DONE]`. -/
def sseEnd (u : Unicode) (state : SseState) : List Emission × SseState :=
  if state.flushed then ([],state)
  else
    let (tail,next) := state.flush u
    (tailFrame (state.lastFrame.getD []) tail,next)

def redactSseStream (u : Unicode) (loads : Loads) (lines : List Str) (redactor : StreamRedactor) :
    List Emission × SseState × Option SseError :=
  match sseLines u (lines.map (readLine u loads)) (.init redactor) with
  | (out,state,some error) => (out,state,some error)
  | (out,state,none) =>
    let (more,last) := sseEnd u state
    (out ++ more,last,none)

def redactMessage (u : Unicode) (choice : Dict) : Dict :=
  match choice.get "message" with
  | some (.obj message) =>
    match Dict.get message "content" with
    | some (.str content) =>
      let content := redactComplete u content DEFAULT_PLACEHOLDER
      choice.set "message" (.obj (Dict.set message "content" (.str content)))
    | _ => choice
  | _ => choice

def redactItem (u : Unicode) : Json → Json
  | .obj choice => .obj (redactMessage u choice)
  | item => item

/-- The non-streaming branch of `completions`, from the parsed body on. -/
def redactBody (u : Unicode) (data : Dict) : Dict :=
  match data.get "choices" with
  | some (.arr items) => data.set "choices" (.arr (items.map (redactItem u)))
  | _ => data

end GatewaySuite.Guardrail
