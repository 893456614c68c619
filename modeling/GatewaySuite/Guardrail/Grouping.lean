import GatewaySuite.Guardrail.EventStream
import GatewaySuite.Guardrail.Metadata
import Mathlib.Data.List.Forall2

/-! The events of the upstream against those that the client reads. Whatever the gateway writes
is followed by a blank line, so every line it passes on is an event of its own, and an `event`
line is one without data: it names nothing. -/
namespace GatewaySuite.Guardrail
open Python
variable (u : Unicode)

/-- `json.dumps` of a dictionary, which escapes control characters and indents nothing. -/
structure Dumps where
  text : Dict → Str
  oneLine : ∀ frame, OneLine (text frame)

section
variable (dumps : Dumps)

def written : Emission → Str
  | .line line => line
  | .payload payload => lit "data: " ++ payload
  | .done => lit "data: [DONE]"
  | .frame frame => lit "data: " ++ dumps.text frame

def render (out : List Emission) : Str := out.flatMap fun emission => written dumps emission ++ [LF,LF]

/-- What a line that the loop meets is answered with. -/
def answer (x : Line × SseState) : List Emission :=
  match sseLine u x.1 x.2 with
  | .ok (out,_) => out
  | .error _ => []

/-- The data payload that a line passes on. What is written before it is the tail at `[DONE]`. -/
def passedOn (x : Line × SseState) : Option Str :=
  (answer u x).getLast?.bind fun emission => dataOf (written dumps emission)

end

/-- The lines of a block, each with the state in which the loop meets it, and the state behind
them, unless an exception ends the loop. -/
def lineVisits : List Line → SseState → List (Line × SseState) × Option SseState
  | [],state => ([],some state)
  | line::rest,state =>
    match sseLine u line state with
    | .error _ => ([],none)
    | .ok (_,next) =>
      let (visits,last) := lineVisits rest next
      ((line,state)::visits,last)

/-- The visits of each block that the loop reaches. -/
def blockVisits : List (List Line) → SseState → List (List (Line × SseState))
  | [],_ => []
  | block::rest,state =>
    match lineVisits u block state with
    | (visits,some next) => visits :: blockVisits rest next
    | (visits,none) => [visits]

/-- The line passes a data payload on: it is `[DONE]`, or a payload that is no dictionary, or a
frame that is written, or a `data` field without a colon. -/
def passes (x : Line × SseState) : Bool :=
  match x.1 with
  | .done | .unread _ => true
  | .frame frame => (choicesOf frame).isEmpty || emits frame (textsAt u (frame,x.2))
  | .field line => (dataOf line).isSome
  | .blank | .raises _ => false

theorem lineVisits_cons {line : Line} {rest : List Line} {state next : SseState} {out : List Emission}
    (step : sseLine u line state = .ok (out,next)) :
    lineVisits u (line::rest) state =
      ((line,state)::(lineVisits u rest next).1,(lineVisits u rest next).2) := by
  simp only [lineVisits,step]

theorem lineVisits_out (lines rest : List Line) (state : SseState) :
    (sseLines u (lines ++ rest) state).1 = (lineVisits u lines state).1.flatMap (answer u) ++
      match (lineVisits u lines state).2 with
      | some next => (sseLines u rest next).1
      | none => [] := by
  induction lines generalizing state with
  | nil => rfl
  | cons line lines ih =>
    simp only [List.cons_append,sseLines]
    cases step : sseLine u line state with
    | error raised => simp [lineVisits,step]
    | ok pair =>
      obtain ⟨out,next⟩ := pair
      have here : answer u (line,state) = out := by simp only [answer,step]
      rw [lineVisits_cons u step,List.flatMap_cons,here,List.append_assoc,← ih next]

theorem blockVisits_out (blocks : List (List Line)) (state : SseState) :
    (sseLines u blocks.flatten state).1 = (blockVisits u blocks state).flatten.flatMap (answer u) := by
  induction blocks generalizing state with
  | nil => rfl
  | cons block rest ih =>
    rw [List.flatten_cons,lineVisits_out,blockVisits]
    generalize lineVisits u block state = pair
    obtain ⟨visits,last⟩ := pair
    cases last with
    | none => simp
    | some next => simp [ih next]

theorem blockVisits_length (blocks : List (List Line)) (state : SseState) :
    (blockVisits u blocks state).length ≤ blocks.length := by
  induction blocks generalizing state with
  | nil => exact le_rfl
  | cons block rest ih =>
    rw [blockVisits]
    generalize lineVisits u block state = pair
    obtain ⟨visits,last⟩ := pair
    cases last with
    | none => simp
    | some next => simpa using ih next

theorem strip_mem {s : Str} {c : CodePoint} (member : c ∈ u.strip s) : c ∈ s :=
  (List.dropWhile_suffix _).subset ((List.rdropWhile_prefix _ _).subset member)

theorem oneLine_append {first second : Str} (left : OneLine first) (right : OneLine second) :
    OneLine (first ++ second) :=
  fun c member => (List.mem_append.mp member).elim (left c) (right c)

def Line.OneLine : Line → Prop
  | .field line => Guardrail.OneLine line
  | .unread payload => Guardrail.OneLine payload
  | _ => True

theorem readLine_oneLine (loads : Loads) {line : Str} (one : OneLine line) :
    (readLine u loads line).OneLine := by
  have payload : OneLine (u.strip (line.drop (lit "data:").length)) :=
    fun c member => one c (List.mem_of_mem_drop (strip_mem u member))
  unfold readLine
  dsimp only
  split_ifs
  · trivial
  · exact one
  · trivial
  · split
    · exact payload
    · trivial
    · trivial
    · exact payload

theorem marked_oneLine : OneLine (lit "data: ") := by decide

theorem done_oneLine : OneLine (lit "data: [DONE]") := by decide

theorem written_frame (dumps : Dumps) (frame : Dict) : OneLine (written dumps (.frame frame)) :=
  oneLine_append marked_oneLine (dumps.oneLine frame)

theorem written_tail (dumps : Dumps) (frame : Dict) (tail : Str) :
    ∀ emission ∈ tailFrame frame tail, OneLine (written dumps emission) := by
  intro emission member
  unfold tailFrame at member
  split_ifs at member
  · cases member
  · rw [List.mem_singleton.mp member]
    exact written_frame dumps _

theorem answer_oneLine (dumps : Dumps) {line : Line} (one : line.OneLine) (state : SseState) :
    ∀ emission ∈ answer u (line,state), OneLine (written dumps emission) := by
  intro emission member
  unfold answer at member
  cases line with
  | blank => cases member
  | field line =>
    rw [List.mem_singleton.mp member]
    exact one
  | unread payload =>
    rw [List.mem_singleton.mp member]
    exact oneLine_append marked_oneLine one
  | raises error => cases member
  | done =>
    simp only [sseLine] at member
    split_ifs at member
    · rw [List.mem_singleton.mp member]
      exact done_oneLine
    · obtain tail | last := List.mem_append.mp member
      · exact written_tail dumps _ _ emission tail
      · rw [List.mem_singleton.mp last]
        exact done_oneLine
  | frame frame =>
    dsimp only at member
    split at member
    · next out next step =>
      obtain ⟨texts,_,rfl⟩ := redactFrame_out u (sseLine_frame u step)
      unfold frameOut at member
      split_ifs at member
      · rw [List.mem_singleton.mp member]
        exact written_frame dumps _
      · rw [List.mem_singleton.mp member]
        exact written_frame dumps _
      · cases member
    · cases member

theorem dataOf_marked (payload : Str) : dataOf (lit "data: " ++ payload) = some payload := by rfl

theorem passedOn_isSome (dumps : Dumps) {line : Line} {state next : SseState} {out : List Emission}
    (step : sseLine u line state = .ok (out,next)) :
    (passedOn u dumps (line,state)).isSome = passes u (line,state) := by
  have here : answer u (line,state) = out := by simp only [answer,step]
  unfold passedOn
  rw [here]
  cases line with
  | blank =>
    cases step
    rfl
  | field line =>
    cases step
    rfl
  | unread payload =>
    cases step
    simp [passes,written,dataOf_marked]
  | raises error => cases step
  | done =>
    have last : out.getLast? = some .done := by
      simp only [sseLine] at step
      split_ifs at step
      · cases step
        rfl
      · cases step
        exact List.getLast?_concat ..
    rw [last]
    rfl
  | frame frame =>
    obtain ⟨rfl,_⟩ := redactFrame_texts u (sseLine_frame u step)
    unfold frameOut passes
    dsimp only
    cases (choicesOf frame).isEmpty <;> cases emits frame (textsAt u (frame,state)) <;>
      simp [written,dataOf_marked]

theorem lineVisits_step {lines : List Line} {state : SseState} {x : Line × SseState}
    (visited : x ∈ (lineVisits u lines state).1) :
    x.1 ∈ lines ∧ ∃ out next, sseLine u x.1 x.2 = .ok (out,next) := by
  induction lines generalizing state with
  | nil => cases visited
  | cons line rest ih =>
    cases step : sseLine u line state with
    | error raised => simp [lineVisits,step] at visited
    | ok pair =>
      rw [lineVisits_cons u step] at visited
      obtain rfl | later := List.mem_cons.mp visited
      · exact ⟨List.mem_cons_self,pair.1,pair.2,step⟩
      · obtain ⟨member,stepped⟩ := ih later
        exact ⟨List.mem_cons_of_mem line member,stepped⟩

theorem blockVisits_step {blocks : List (List Line)} {state : SseState}
    {visits : List (Line × SseState)} (reached : visits ∈ blockVisits u blocks state)
    {x : Line × SseState} (visited : x ∈ visits) :
    (∃ block ∈ blocks, x.1 ∈ block) ∧ ∃ out next, sseLine u x.1 x.2 = .ok (out,next) := by
  induction blocks generalizing state with
  | nil => cases reached
  | cons block rest ih =>
    have own (same : visits = (lineVisits u block state).1) :
        (∃ block' ∈ block::rest, x.1 ∈ block') ∧ ∃ out next, sseLine u x.1 x.2 = .ok (out,next) := by
      rw [same] at visited
      obtain ⟨member,stepped⟩ := lineVisits_step u visited
      exact ⟨⟨block,List.mem_cons_self,member⟩,stepped⟩
    rw [blockVisits] at reached
    generalize lineVisits u block state = pair at reached own
    obtain ⟨first,last⟩ := pair
    cases last with
    | none => exact own (List.mem_singleton.mp reached)
    | some next =>
      obtain same | later := List.mem_cons.mp reached
      · exact own same
      · obtain ⟨⟨block',inside,member⟩,stepped⟩ := ih later
        exact ⟨⟨block',List.mem_cons_of_mem block inside,member⟩,stepped⟩

/-- An event of the client has the type of an upstream event and, among its data lines, the
payloads passed on of that event. -/
def Carries (sent : Str × List Str) (event : SseEvent) : Prop :=
  event.eventType = sent.1 ∧ sent.2.Sublist event.data

private theorem carried_each {sent : List (Str × List Str)} {received : List SseEvent}
    (each : List.Forall₂ Carries sent received) {x : Str × List Str} (member : x ∈ sent) :
    ∃ event ∈ received, Carries x event := by
  induction each with
  | nil => cases member
  | cons here rest ih =>
    obtain rfl | later := List.mem_cons.mp member
    · exact ⟨_,List.mem_cons_self,here⟩
    · obtain ⟨event,inside,carries⟩ := ih later
      exact ⟨event,List.mem_cons_of_mem _ inside,carries⟩

/-- Where every event that is received has one data line and no type of its own, upstream events
survive exactly if they are of that kind too. -/
theorem carried_iff {sent : List (Str × List Str)} {received : List SseEvent}
    (inside : ((sent.flatMap Prod.snd).map fun data => ⟨lit "message",[data]⟩).Sublist received)
    (only : ∀ event ∈ received, ∃ data, event = ⟨lit "message",[data]⟩) :
    List.SublistForall₂ Carries (sent.filter fun x => !x.2.isEmpty) received ↔
      ∀ x ∈ sent, x.2.length ≤ 1 ∧ (x.2 ≠ [] → x.1 = lit "message") := by
  rw [List.sublistForall₂_iff]
  constructor
  · rintro ⟨chosen,each,sub⟩ x member
    by_cases none : x.2 = []
    · simp [none]
    · obtain ⟨event,found,type,data⟩ := carried_each each (List.mem_filter.mpr ⟨member,by simpa using none⟩)
      obtain ⟨payload,rfl⟩ := only event (sub.subset found)
      exact ⟨data.length_le,fun _ => type.symm⟩
  · intro fits
    refine ⟨_,?_,inside⟩
    clear inside
    induction sent with
    | nil => exact List.Forall₂.nil
    | cons x rest ih =>
      have later := ih fun y member => fits y (List.mem_cons_of_mem x member)
      obtain ⟨short,plain⟩ := fits x List.mem_cons_self
      obtain ⟨type,payloads⟩ := x
      rw [List.flatMap_cons,List.map_append]
      match payloads with
      | [] => simpa using later
      | [payload] =>
        exact List.Forall₂.cons ⟨(plain (by simp)).symm,List.Sublist.refl _⟩ later
      | _::_::_ => simp at short

section
variable (dumps : Dumps)

/-- The types of the blocks that the loop reaches, with the payloads passed on of each. -/
def sentEvents (blocks : List Block) (visits : List (List (Line × SseState))) : List (Str × List Str) :=
  (blocks.zip visits).map fun x => (x.1.eventType,x.2.filterMap (passedOn u dumps))

/-- Every block whose lines pass something on has an event of its own among those of the client,
in the order of the blocks. -/
def EventsKept (blocks : List Block) (visits : List (List (Line × SseState))) (received : List SseEvent) :
    Prop :=
  List.SublistForall₂ Carries ((sentEvents u dumps blocks visits).filter fun x => !x.2.isEmpty) received

end

def readBlocks (loads : Loads) (blocks : List Block) : List (List Line) :=
  blocks.map fun block => block.closed.map (readLine u loads)

private theorem last_sublist {α β : Type} (xs : List α) (f : α → Option β) :
    (xs.getLast?.bind f).toList.Sublist (xs.filterMap f) := by
  obtain rfl | ⟨front,last,rfl⟩ := List.eq_nil_or_concat' xs
  · exact List.Sublist.refl _
  · rw [List.getLast?_concat,List.filterMap_append]
    cases found : f last with
    | none => simp [found]
    | some value => simp [found]

theorem sentEvents_sublist (dumps : Dumps) {blocks : List Block} {visits : List (List (Line × SseState))}
    (fewer : visits.length ≤ blocks.length) :
    ((sentEvents u dumps blocks visits).flatMap Prod.snd).Sublist
      ((visits.flatten.flatMap (answer u)).filterMap fun emission => dataOf (written dumps emission)) := by
  have each : (sentEvents u dumps blocks visits).flatMap Prod.snd =
      visits.flatten.filterMap (passedOn u dumps) := by
    have seconds := List.map_snd_zip fewer
    rw [sentEvents,List.flatMap_map,List.filterMap_flatten]
    conv_rhs => rw [← seconds,List.map_map]
    rfl
  rw [each]
  generalize visits.flatten = all
  induction all with
  | nil => exact List.Sublist.refl _
  | cons x rest ih =>
    have here := last_sublist (answer u x) fun emission => dataOf (written dumps emission)
    rw [List.flatMap_cons,List.filterMap_append,List.filterMap_cons]
    change (passedOn u dumps x).toList.Sublist _ at here
    cases passed : passedOn u dumps x with
    | none => exact ih.trans (List.sublist_append_right _ _)
    | some payload =>
      rw [passed] at here
      exact here.append ih

def clientEvents (loads : Loads) (dumps : Dumps) (blocks : List Block) : List SseEvent :=
  parseEvents (render dumps (redactSseStream u loads (blocks.flatMap Block.closed) opening).1)

theorem redactSseStream_out (loads : Loads) (blocks : List Block) :
    ∃ tail, (redactSseStream u loads (blocks.flatMap Block.closed) opening).1 =
        (blockVisits u (readBlocks u loads blocks) (.init opening)).flatten.flatMap (answer u) ++ tail ∧
      ∀ dumps, ∀ emission ∈ tail, OneLine (written dumps emission) := by
  have shape : (blocks.flatMap Block.closed).map (readLine u loads) =
      (readBlocks u loads blocks).flatten := by
    simp [readBlocks,List.flatMap,List.map_flatten,Function.comp_def]
  rw [← blockVisits_out,← shape,redactSseStream]
  generalize sseLines u ((blocks.flatMap Block.closed).map (readLine u loads)) (.init opening) = run
  obtain ⟨out,state,escaped⟩ := run
  cases escaped with
  | some error => exact ⟨[],by simp,by simp⟩
  | none =>
    refine ⟨(sseEnd u state).1,rfl,fun dumps emission member => ?_⟩
    unfold sseEnd at member
    split_ifs at member
    · cases member
    · exact written_tail dumps _ _ emission member

/-- A block whose fields fit what the gateway makes of it: it passes on one payload at most, and
if it does, its event has the default type. -/
def Fits (x : Block × List (Line × SseState)) : Prop :=
  (x.2.filter (passes u)).length ≤ 1 ∧ (x.2.any (passes u) = true → x.1.eventType = lit "message")

/-- The client's events keep the types and the grouping of the upstream's exactly if every block
that the loop reaches fits. -/
theorem events_kept (loads : Loads) (dumps : Dumps) (blocks : List Block) :
    let visits := blockVisits u (readBlocks u loads blocks) (.init opening)
    EventsKept u dumps blocks visits (clientEvents u loads dumps blocks) ↔
      ∀ x ∈ blocks.zip visits, Fits u x := by
  intro visits
  obtain ⟨tail,out,tailLine⟩ := redactSseStream_out u loads blocks
  have oneLine : ∀ line ∈ ((visits.flatten.flatMap (answer u)) ++ tail).map (written dumps),
      OneLine line := by
    intro line member
    obtain ⟨emission,inside,rfl⟩ := List.mem_map.mp member
    obtain answered | last := List.mem_append.mp inside
    · obtain ⟨x,visited,here⟩ := List.mem_flatMap.mp answered
      obtain ⟨block,reached,own⟩ := List.mem_flatten.mp visited
      obtain ⟨⟨lines,listed,read⟩,_⟩ := blockVisits_step u reached own
      obtain ⟨source,_,rfl⟩ := List.mem_map.mp listed
      obtain ⟨line,given,same⟩ := List.mem_map.mp read
      have one : x.1.OneLine := by
        rw [← same]
        exact readLine_oneLine u loads (source.closed_oneLine line given)
      exact answer_oneLine u dumps one x.2 emission here
    · exact tailLine dumps emission last
  have received : clientEvents u loads dumps blocks =
      (((visits.flatten.flatMap (answer u)) ++ tail).filterMap fun emission =>
        dataOf (written dumps emission)).map fun data => ⟨lit "message",[data]⟩ := by
    have parsed := parseEvents_apart oneLine
    rw [List.flatMap_map,List.filterMap_map] at parsed
    rw [clientEvents,out]
    exact parsed
  have fewer : visits.length ≤ blocks.length := by
    have fewer := blockVisits_length u (readBlocks u loads blocks) (.init opening)
    rwa [readBlocks,List.length_map] at fewer
  rw [EventsKept,carried_iff,sentEvents]
  · rw [List.forall_mem_map]
    refine forall₂_congr fun x member => ?_
    have stepped : ∀ y ∈ x.2, (passedOn u dumps y).isSome = passes u y := by
      intro y visited
      obtain ⟨_,out,next,step⟩ := blockVisits_step u (List.of_mem_zip member).2 visited
      exact passedOn_isSome u dumps step
    have count : (x.2.filterMap (passedOn u dumps)).length = (x.2.filter (passes u)).length := by
      rw [List.length_filterMap_eq_countP,← List.countP_eq_length_filter]
      exact List.countP_congr fun y visited => by rw [stepped y visited]
    have some : x.2.filterMap (passedOn u dumps) ≠ [] ↔ x.2.any (passes u) = true := by
      rw [← List.length_pos_iff,count,List.length_filter_pos_iff,List.any_eq_true]
    exact and_congr (by rw [count]) (by rw [some])
  · rw [received,List.filterMap_append]
    exact ((sentEvents_sublist u dumps fewer).trans (List.sublist_append_left _ _)).map _
  · rw [received]
    intro event member
    obtain ⟨data,_,rfl⟩ := List.mem_map.mp member
    exact ⟨data,rfl⟩

def overloadBlock : Block :=
  ⟨[lit "event: error",lit "data: overloaded"],by decide,by decide⟩

/-- An upstream event of type `error`, whose data is no JSON, reaches the client as a message. -/
theorem event_type_lost : ¬∀ (u : Unicode) (loads : Loads) (dumps : Dumps) (blocks : List Block),
    EventsKept u dumps blocks (blockVisits u (readBlocks u loads blocks) (.init opening))
      (clientEvents u loads dumps blocks) := by
  intro every
  have kept := every asciiUnicode (tableLoads [])
    ⟨fun _ => lit "\x7b\x7d",fun _ => by decide⟩ [overloadBlock]
  have sent : ((sentEvents asciiUnicode ⟨fun _ => lit "\x7b\x7d",fun _ => by decide⟩ [overloadBlock]
      (blockVisits asciiUnicode (readBlocks asciiUnicode (tableLoads []) [overloadBlock])
        (.init opening))).filter fun x => !x.2.isEmpty) = [(lit "error",[lit "overloaded"])] := by
    decide +kernel
  have received : clientEvents asciiUnicode (tableLoads [])
      ⟨fun _ => lit "\x7b\x7d",fun _ => by decide⟩ [overloadBlock] =
        [⟨lit "message",[lit "overloaded"]⟩] := by decide +kernel
  rw [EventsKept,sent,received] at kept
  cases kept with
  | cons carries _ => exact absurd carries.1 (by decide)
  | cons_right rest => cases rest

end GatewaySuite.Guardrail
