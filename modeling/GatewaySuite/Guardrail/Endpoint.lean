import GatewaySuite.Guardrail.Interruption

/-! The endpoint around the redactor: both branches of `completions`, with what each makes of an
upstream that fails. Each branch hands its request to httpx, which serialises it before it sends
anything; the branch that does not stream renders the body that it has redacted. Redaction
itself is never the reason why something cannot be written. -/
namespace GatewaySuite.Guardrail
open Lib Python
variable (u : Unicode)

/-- What `client.post` gives: it raises, or has read the whole response; `json` is what
`response.json()` then returns or raises. -/
inductive Fetched where
  | unreachable (error : TransportError)
  | response (statusCode : Int) (json : Except LoadsError Json)

inductive Crash where
  | loads (error : LoadsError)
  | sse (error : SseError)
  | AttributeError
  | ValueError
  | RecursionError
  | UnicodeEncodeError
deriving DecidableEq, Repr

/-- A rendered body, or what was streamed with the exception that ended it. -/
inductive Reply where
  | json (statusCode : Int) (content : Json)
  | events (out : List Emission) (raised : Option Crash)

/-- `.encode()` on what is passed through; `sse` writes ASCII alone. -/
def Emission.encodable : Emission → Bool
  | .line text | .payload text => encodes text
  | .done | .frame _ => true

/-- `JSONResponse(…)`, which renders its content when it is built. -/
def jsonResponse (statusCode : Int) (content : Dict) : Except Crash Reply :=
  if !(Json.obj content).finite then .error .ValueError
  else if !(Json.obj content).encodable then .error .UnicodeEncodeError
  else .ok (.json statusCode (.obj content))

/-- The branch that does not stream, from its post on. -/
def complete : Fetched → Except Crash Reply
  | .unreachable .timeout =>
    jsonResponse 504 (errorFrame "The model provider did not respond in time." "upstream_timeout" none)
  | .unreachable .other =>
    jsonResponse 502 (errorFrame "The model provider is unavailable." "upstream_error" none)
  | .response statusCode json =>
    if 400 ≤ statusCode then
      jsonResponse 502 (errorFrame "Upstream provider error" "upstream_error" (some statusCode))
    else
      match json with
      | .error .RecursionError => .error (.loads .RecursionError)
      | .ok (.obj data) => jsonResponse statusCode (redactBody u data)
      | _ =>
        jsonResponse 502
          (errorFrame "The model provider returned a malformed response." "upstream_error" none)

/-- The branch that streams: what is yielded is written until something cannot be. -/
def streamed (loads : Loads) (upstream : Upstream) : Reply :=
  let (out,raised) := stream u loads upstream
  if out.all Emission.encodable then .events out (raised.map .sse)
  else .events (out.takeWhile Emission.encodable) (some .UnicodeEncodeError)

/-- `body.get("stream", True)` -/
def streams (request : Dict) : Bool := ((request.get "stream").getD (.bool true)).truthy

/-- `body` is what `request.json()` returns or raises; `refuses` is what httpx raises where it
cannot serialise a request, no `HTTPError`, and before the upstream hears of it; the upstream
answers the post of a branch. -/
def completions (loads : Loads) (refuses : Dict → Option Crash) (body : Except LoadsError Json)
    (fetched : Dict → Fetched) (upstream : Dict → Upstream) : Except Crash Reply :=
  match body with
  | .error error => .error (.loads error)
  | .ok (.obj request) =>
    match refuses request with
    | some crash =>
      if streams request then .ok (.events [] (some crash)) else .error crash
    | none =>
      if streams request then .ok (streamed u loads (upstream request))
      else complete u (fetched request)
  | .ok _ => .error .AttributeError

def Answers : Except Crash Reply → Prop
  | .ok (.json _ _) => True
  | .ok (.events _ raised) => raised = none
  | .error _ => False

/-- The dictionaries that the redaction writes to have each key once, as all that `json.loads`
builds do. -/
structure Keyed (data : Dict) : Prop where
  body : (data.map Prod.fst).Nodup
  choice : ∀ choice ∈ choicesOf data, (choice.map Prod.fst).Nodup
  message : ∀ choice ∈ choicesOf data, ∀ message, choice.get "message" = some (.obj message) →
    (message.map Prod.fst).Nodup

theorem ascii_encodes {c : CodePoint} (plain : isAscii c = true) : encodes [c] = true := by
  have small : c.val < 128 := by simpa [isAscii] using plain
  have low : c.val < 0xD800 := by omega
  simp [encodes,low]

theorem oneOf_encodes {s : String} {c : CodePoint} (member : oneOf s c = true) : encodes [c] = true := by
  simp only [oneOf,List.contains_iff_mem] at member
  have all := lit_encodes s
  rw [encodes,List.all_eq_true] at all
  simpa [encodes] using all c member

theorem tokenChar_encodes {c : CodePoint} (read : tokenChar c = true) : encodes [c] = true := by
  have upper : 'Z'.toNat < 128 := by decide
  have lower : 'z'.toNat < 128 := by decide
  have digit : '9'.toNat < 128 := by decide
  simp only [tokenChar,asciiAlnum,asciiLetter,asciiDigit,between,Bool.or_eq_true,Bool.and_eq_true,
    decide_eq_true_eq] at read
  obtain ((⟨_,bound⟩ | ⟨_,bound⟩) | ⟨_,bound⟩) | mark := read
  · exact ascii_encodes (decide_eq_true (lt_of_le_of_lt bound upper))
  · exact ascii_encodes (decide_eq_true (lt_of_le_of_lt bound lower))
  · exact ascii_encodes (decide_eq_true (lt_of_le_of_lt bound digit))
  · exact oneOf_encodes mark

/-- All that a pattern reads can be encoded if the decimal digits can. -/
theorem span_encodes (decimals : ∀ c, u.isDecimal c = true → encodes [c] = true)
    {x : Label × Regex CodePoint} (member : x ∈ PATTERNS u) {text : Str} {p q : Nat}
    (matched : x.2.Matches text p q) : encodes (slice text p q) = true := by
  have reads : ∀ c, (x.2.first c = true → encodes [c] = true) ∧
      (x.2.follow c = true → encodes [c] = true) := by
    intro c
    obtain token | numeric := patterns_covered u x member
    · exact ⟨fun read => tokenChar_encodes ((token c).1 read),
        fun read => tokenChar_encodes ((token c).2 read)⟩
    · constructor
      · intro read
        have start := (numeric c).1 read
        simp only [numberStart,Bool.or_eq_true] at start
        exact start.elim oneOf_encodes (decimals c)
      · intro read
        have later := (numeric c).2 read
        simp only [numberChar,Bool.or_eq_true] at later
        exact later.elim (decimals c) oneOf_encodes
  obtain ⟨_,spelled⟩ := matched.spelled.mono (fun c => (reads c).1) (fun c => (reads c).2)
  rw [encodes,List.all_eq_true]
  intro c inside
  obtain ⟨i,here⟩ := List.mem_iff_getElem?.mp inside
  rw [slice_eq,List.getElem?_take,List.getElem?_drop] at here
  split_ifs at here with short
  have held := spelled (p+i) (by omega) (by omega)
  simp only [ite_self,Regex.holds,here,Option.any_some] at held
  simpa [encodes] using held

/-- Redaction neither brings in nor takes out what cannot be encoded. -/
theorem redactComplete_encodes (decimals : ∀ c, u.isDecimal c = true → encodes [c] = true) (text : Str) :
    encodes (redactComplete u text DEFAULT_PLACEHOLDER) = encodes text := by
  have bounds := (scanner u text).hit_bounds 0
  have whole := splice_all text DEFAULT_PLACEHOLDER (fun c => c.val < 0xD800 || 0xDFFF < c.val)
    text.length 0 ((scanner u text).hits 0) (Nat.zero_le _) ((scanner u text).hits_ordered 0)
    (fun h member => ⟨(bounds h member).1,(bounds h member).2.1⟩) (lit_encodes _) (fun h member => by
      obtain ⟨_,chosen⟩ := ((scanner u text).mem_hits_iff 0 h).mp member
      obtain ⟨pattern,listed,matched⟩ := combinedAt_some u ((acceptedAt_some u).mp chosen).1
      exact span_encodes u decimals listed matched)
  rw [redactComplete_eq,encodes,whole,slice_zero,List.take_length]
  rfl

section
variable {number : UInt64 → Bool} {text : Str → Bool}

theorem every_redactMessage
    (same : ∀ content, text (redactComplete u content DEFAULT_PLACEHOLDER) = text content)
    {choice : Dict} (distinct : (choice.map Prod.fst).Nodup)
    (inner : ∀ message, choice.get "message" = some (.obj message) → (message.map Prod.fst).Nodup) :
    Json.every number text (.obj (redactMessage u choice)) = Json.every number text (.obj choice) := by
  unfold redactMessage
  split
  next message held =>
    split
    next content given =>
      apply Json.every_set number text distinct held
      apply Json.every_set number text (inner message held) given
      simp only [Json.every,same]
    next => rfl
  next => rfl

/-- A test of all strings and floats that redaction cannot change does not see it. -/
theorem every_redactBody
    (same : ∀ content, text (redactComplete u content DEFAULT_PLACEHOLDER) = text content)
    {data : Dict} (keyed : Keyed data) :
    Json.every number text (.obj (redactBody u data)) = Json.every number text (.obj data) := by
  unfold redactBody
  split
  next items held =>
    apply Json.every_set number text keyed.body held
    have listed (choice : Dict) (member : .obj choice ∈ items) : choice ∈ choicesOf data := by
      simp only [choicesOf,held]
      exact List.mem_filterMap.mpr ⟨_,member,rfl⟩
    have each : ∀ item ∈ items,
        Json.every number text (redactItem u item) = Json.every number text item := by
      intro item member
      cases item with
      | obj choice =>
        exact every_redactMessage u same (keyed.choice choice (listed choice member))
          (keyed.message choice (listed choice member))
      | _ => rfl
    rw [Json.every_arr,Json.every_arr,List.all_map]
    apply Bool.eq_iff_iff.mpr
    simp only [List.all_eq_true,Function.comp_apply]
    exact forall₂_congr fun item member => by rw [each item member]
  next => rfl

end

theorem jsonResponse_answers (statusCode : Int) (content : Dict) :
    Answers (jsonResponse statusCode content) ↔
      (Json.obj content).finite = true ∧ (Json.obj content).encodable = true := by
  unfold jsonResponse
  cases (Json.obj content).finite <;> cases (Json.obj content).encodable <;> simp [Answers]

theorem errorFrame_answers (statusCode : Int) (message type : String) (status : Option Int) :
    Answers (jsonResponse statusCode (errorFrame message type status)) := by
  rw [jsonResponse_answers]
  cases status <;>
    simp [errorFrame,Json.finite,Json.encodable,Json.every,Json.everyEntry,lit_encodes]

/-- What the branch that does not stream can answer: a failure, or a body that can be rendered. -/
def Renderable : Fetched → Prop
  | .unreachable _ => True
  | .response statusCode json => 400 ≤ statusCode ∨
    match json with
    | .error error => error ≠ .RecursionError
    | .ok (.obj data) => (Json.obj data).finite = true ∧ (Json.obj data).encodable = true
    | .ok _ => True

theorem complete_answers (decimals : ∀ c, u.isDecimal c = true → encodes [c] = true) {fetched : Fetched}
    (keyed : ∀ statusCode data, fetched = .response statusCode (.ok (.obj data)) → Keyed data) :
    Answers (complete u fetched) ↔ Renderable fetched := by
  cases fetched with
  | unreachable error =>
    refine iff_of_true ?_ trivial
    cases error <;> exact errorFrame_answers _ _ _ _
  | response statusCode json =>
    by_cases refused : 400 ≤ statusCode
    · simp only [complete,refused,if_true]
      exact iff_of_true (errorFrame_answers _ _ _ _) (Or.inl refused)
    · simp only [complete,refused,if_false,Renderable,false_or]
      cases json with
      | error error =>
        cases error with
        | RecursionError => simp [Answers]
        | JSONDecodeError => exact iff_of_true (errorFrame_answers _ _ _ _) (by simp)
        | ValueError => exact iff_of_true (errorFrame_answers _ _ _ _) (by simp)
      | ok value =>
        cases value with
        | obj data =>
          have known := keyed statusCode data rfl
          dsimp only
          rw [jsonResponse_answers,Json.finite,Json.encodable,
            every_redactBody u (fun _ => rfl) known,
            every_redactBody u (redactComplete_encodes u decimals) known]
        | _ => exact iff_of_true (errorFrame_answers _ _ _ _) trivial

/-- What is passed through for a line can be encoded. -/
def Line.encodable : Line → Bool
  | .field text | .unread text => encodes text
  | _ => true

theorem tailFrame_encodable (frame : Dict) (tail : Str) :
    (tailFrame frame tail).all Emission.encodable = true := by
  unfold tailFrame
  split_ifs <;> rfl

theorem redactFrame_encodable {frame : Dict} {state next : SseState} {out : List Emission}
    (step : redactFrame u frame state = .ok (out,next)) : out.all Emission.encodable = true := by
  simp only [redactFrame,bind,Except.bind,pure,Except.pure] at step
  split at step
  · cases step
  · split_ifs at step
    · cases step
      rw [List.all_append,tailFrame_encodable]
      rfl
    all_goals cases step; rfl

theorem sseLine_encodable {line : Line} {state next : SseState} {out : List Emission}
    (step : sseLine u line state = .ok (out,next)) :
    out.all Emission.encodable = line.encodable := by
  cases line with
  | blank => cases step; rfl
  | field text => cases step; simp [Emission.encodable,Line.encodable]
  | unread payload => cases step; simp [Emission.encodable,Line.encodable]
  | raises error => cases step
  | frame frame => exact redactFrame_encodable u (sseLine_frame u step)
  | done =>
    simp only [sseLine] at step
    split_ifs at step
    · cases step
      rfl
    · cases step
      rw [List.all_append,tailFrame_encodable]
      rfl

theorem sseLines_encodable {lines : List Line} {state next : SseState} {out : List Emission}
    (run : sseLines u lines state = (out,next,none)) :
    out.all Emission.encodable = lines.all Line.encodable := by
  induction lines generalizing state out with
  | nil =>
    cases run
    rfl
  | cons line rest ih =>
    simp only [sseLines] at run
    cases step : sseLine u line state with
    | error error => simp [step] at run
    | ok pair =>
      obtain ⟨here,middle⟩ := pair
      simp only [step,Prod.mk.injEq] at run
      obtain ⟨rfl,later⟩ := run
      rw [List.all_append,List.all_cons,sseLine_encodable u step,ih (Prod.ext rfl later)]

theorem sseEnd_encodable (state : SseState) :
    (sseEnd u state).1.all Emission.encodable = true := by
  unfold sseEnd
  split_ifs
  · rfl
  · exact tailFrame_encodable _ _

theorem report_encodable (error : TransportError) :
    error.report.all Emission.encodable = true := by
  cases error <;> rfl

/-- What a stream that no exception ends writes can be encoded if what it passes through can. -/
theorem stream_encodable {loads : Loads} {upstream : Upstream}
    (whole : (stream u loads upstream).2 = none) :
    (stream u loads upstream).1.all Emission.encodable =
      (upstream.received.map (readLine u loads)).all Line.encodable := by
  cases upstream with
  | unreachable error => simpa [stream,Upstream.received] using report_encodable error
  | response statusCode lines raised =>
    by_cases refused : 400 ≤ statusCode
    · cases raised with
      | none => simp [stream,Upstream.received,refused,Emission.encodable]
      | some error => simpa [stream,Upstream.received,refused] using report_encodable error
    · simp only [stream,Upstream.received,refused,if_false,redactSseStream] at whole ⊢
      cases run : sseLines u (lines.map (readLine u loads)) (.init opening) with
      | mk out rest =>
        obtain ⟨next,escaped⟩ := rest
        rw [run] at whole
        cases escaped with
        | some error => cases raised <;> cases whole
        | none =>
          have passed := sseLines_encodable u run
          cases raised with
          | none => simp [List.all_append,passed,sseEnd_encodable]
          | some error => simp [List.all_append,passed,report_encodable]

/-- Nothing escapes the stream but what `json.loads` raises beside `JSONDecodeError`. -/
theorem stream_answers (loads : Loads) (upstream : Upstream) :
    (stream u loads upstream).2 = none ↔
      ∀ error, .raises error ∉ upstream.received.map (readLine u loads) := by
  cases upstream with
  | unreachable error => simp [stream,Upstream.received]
  | response statusCode lines raised =>
    by_cases refused : 400 ≤ statusCode
    · cases raised <;> simp [stream,Upstream.received,refused]
    · simp only [stream,Upstream.received,refused,if_false,redactSseStream]
      generalize lines.map (readLine u loads) = lines
      by_cases parses : ∀ error, .raises error ∉ lines
      · have reached : Reached u [] (.init opening) := fun _ => ⟨[],rfl⟩
        obtain ⟨out,next,run,_⟩ := sseLines_state u lines rfl reached parses
        simp only [run]
        cases raised <;> exact iff_of_true rfl parses
      · refine iff_of_false ?_ parses
        obtain ⟨error,member⟩ := not_forall_not.mp parses
        have escapes := sseLines_escapes u member (.init opening)
        generalize sseLines u lines (.init opening) = run at escapes
        obtain ⟨out,state,escaped⟩ := run
        cases escaped with
        | none => exact absurd rfl escapes
        | some error => cases raised <;> simp

/-- What the upstream streams can be passed on: `json.loads` raises nothing but
`JSONDecodeError`, and what does not go through it can be encoded. -/
structure Passable (lines : List Line) : Prop where
  parses : ∀ error, .raises error ∉ lines
  encodable : lines.all Line.encodable = true

theorem streamed_answers (loads : Loads) (upstream : Upstream) :
    Answers (.ok (streamed u loads upstream)) ↔
      Passable (upstream.received.map (readLine u loads)) := by
  have parses := stream_answers u loads upstream
  cases escaped : (stream u loads upstream).2 with
  | none =>
    have written := stream_encodable u escaped
    have parsed := parses.mp escaped
    simp only [streamed,escaped]
    split_ifs with encodable
    · exact iff_of_true rfl ⟨parsed,written.symm.trans encodable⟩
    · exact iff_of_false (by simp [Answers]) fun passable =>
        encodable (written.trans passable.encodable)
  | some error =>
    rw [escaped] at parses
    refine iff_of_false ?_ fun passable => nomatch parses.mpr passable.parses
    simp only [streamed,escaped]
    split_ifs <;> simp [Answers]

/-- On either branch the client gets a response that no exception ends exactly if its request is
a JSON object that httpx can serialise and what the upstream sends can be read, and passed on or
rendered as it came: redaction is never what prevents it. -/
theorem completions_answers (decimals : ∀ c, u.isDecimal c = true → encodes [c] = true) (loads : Loads)
    (refuses : Dict → Option Crash) (body : Except LoadsError Json) (fetched : Dict → Fetched)
    (upstream : Dict → Upstream)
    (keyed : ∀ request statusCode data,
      fetched request = .response statusCode (.ok (.obj data)) → Keyed data) :
    Answers (completions u loads refuses body fetched upstream) ↔
      ∃ request, body = .ok (.obj request) ∧ refuses request = none ∧
        if streams request then Passable ((upstream request).received.map (readLine u loads))
        else Renderable (fetched request) := by
  unfold completions
  cases body with
  | error error => simp [Answers]
  | ok value =>
    cases value with
    | obj request =>
      simp only [Except.ok.injEq,Json.obj.injEq,exists_eq_left']
      cases refused : refuses request with
      | some crash =>
        refine iff_of_false ?_ (by simp)
        dsimp only
        split_ifs <;> simp [Answers]
      | none =>
        rw [and_iff_right rfl]
        dsimp only
        split_ifs
        · exact streamed_answers u loads (upstream request)
        · exact complete_answers u decimals (keyed request)
    | _ => simp [Answers]

/-- A body whose content holds a card number and half of a surrogate pair. -/
def brokenBody : Dict :=
  [(lit "choices",.arr [.obj [(lit "index",.int 0),(lit "message",.obj [(lit "content",
    .str (lit "4111 1111 1111 1111 " ++ [⟨0xD83D,by decide⟩]))])]])]

/-- What httpx raises from 0.28 on, which writes UTF-8 and neither a NaN nor an infinity. -/
def encodeJson (request : Dict) : Option Crash :=
  if !(Json.obj request).finite then some .ValueError
  else if !(Json.obj request).encodable then some .UnicodeEncodeError
  else none

theorem completions_answers_broken :
    ¬ Answers (completions asciiUnicode (fun _ => .error .JSONDecodeError) encodeJson
      (.ok (.obj [(lit "stream",.bool false)])) (fun _ => .response 200 (.ok (.obj brokenBody)))
      fun _ => .unreachable .other) := by
  have keyed : Keyed brokenBody := by
    constructor
    · decide
    · intro choice member
      have listed : choicesOf brokenBody = [_] := rfl
      rw [listed,List.mem_singleton] at member
      subst choice
      decide
    · intro choice member message held
      have listed : choicesOf brokenBody = [_] := rfl
      rw [listed,List.mem_singleton] at member
      subst choice
      cases held
      decide
  rw [completions_answers asciiUnicode ?_ _ _ _ _ _ ?_]
  · rintro ⟨request,same,_,renderable⟩
    cases same
    have whole : streams [(lit "stream",.bool false)] = false := by decide
    rw [if_neg (by simp [whole])] at renderable
    obtain refused | ⟨_,encodes⟩ := renderable
    · exact absurd refused (by decide)
    · exact absurd encodes (by decide)
  · intro c decimal
    have digit : asciiDigit c = true := by
      by_contra other
      simp [Unicode.isDecimal,asciiUnicode,asciiDecimal,other] at decimal
    exact tokenChar_encodes (by simp [tokenChar,asciiAlnum,digit])
  · intro request statusCode data same
    cases same
    exact keyed

end GatewaySuite.Guardrail
