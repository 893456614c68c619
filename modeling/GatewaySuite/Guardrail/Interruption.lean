import GatewaySuite.Guardrail.EndMarker

/-! How a stream ends. `stream` reports a failed upstream in a frame of its own, but the
redactor belongs to the generator that the failure has left: what it held back is lost. -/
namespace GatewaySuite.Guardrail
open Lib Python
variable (u : Unicode)

/-- A suffix that a hold-back rule withholds. -/
def Withheld (text : Str) (p : Nat) : Prop :=
  p < text.length ∧ text.length-p ≤ MAX_HOLDBACK ∧
    (Regex.Spelled text tokenChar tokenChar p text.length ∨
      Regex.Spelled text (numberStart u) (numberChar u) p text.length)

theorem withheld_behind {front w : Str} {p : Nat} :
    Withheld u (front ++ w) (front.length+p) ↔ Withheld u w p := by
  unfold Withheld
  rw [List.length_append,Regex.Spelled.behind,Regex.Spelled.behind]
  have room : front.length+w.length-(front.length+p) = w.length-p := by omega
  rw [room,Nat.add_lt_add_iff_left]

private theorem found_tail {t : Str} {body : Regex CodePoint} {head tail : CodePoint → Bool}
    (heads : ∀ c, (Regex.seq body .eos).first c = true → head c = true)
    (tails : ∀ c, (Regex.seq body .eos).follow c = true → tail c = true)
    (long : 0 < groupLength ((Regex.seq body .eos).search t 0)) :
    ∃ p, p < t.length ∧ Regex.Spelled t head tail p t.length := by
  cases found : (Regex.seq body .eos).search t 0 with
  | none => simp [found,groupLength] at long
  | some pair =>
    obtain ⟨start,stop⟩ := pair
    obtain ⟨_,_,matched⟩ := Regex.search_some found
    have spelled := matched.spelled.mono heads tails
    obtain ⟨_,_,rfl,rfl⟩ := matched
    simp only [found,groupLength] at long
    exact ⟨start,by omega,spelled⟩

private theorem token_reads (c : CodePoint) :
    (TAIL_TOKEN.first c = true → tokenChar c = true) ∧
      (TAIL_TOKEN.follow c = true → tokenChar c = true) := by
  simp [TAIL_TOKEN,Regex.first,Regex.follow,Regex.still,Regex.nullable]

private theorem digits_read (c : CodePoint) :
    ((TAIL_DIGITS u).first c = true → numberStart u c = true) ∧
      ((TAIL_DIGITS u).follow c = true → numberChar u c = true) := by
  simp [TAIL_DIGITS,digit,numberStart,Regex.first,Regex.follow,Regex.still,Regex.nullable]

theorem holdback_pos_iff (text : Str) :
    0 < holdback u text MAX_HOLDBACK ↔ ∃ p, Withheld u text p := by
  constructor
  · intro held
    have positive : MAX_HOLDBACK ≠ 0 := by decide
    have suffix := lastChars_suffix MAX_HOLDBACK text
    have size := lastChars_length MAX_HOLDBACK text positive
    obtain ⟨front,split⟩ := suffix
    have seen : ∃ p, p < (lastChars MAX_HOLDBACK text).length ∧
        (Regex.Spelled (lastChars MAX_HOLDBACK text) tokenChar tokenChar p
            (lastChars MAX_HOLDBACK text).length ∨
          Regex.Spelled (lastChars MAX_HOLDBACK text) (numberStart u) (numberChar u) p
            (lastChars MAX_HOLDBACK text).length) := by
      unfold holdback at held
      split_ifs at held with empty
      · exact absurd held (Nat.lt_irrefl 0)
      dsimp only at held
      by_cases token : 0 < groupLength (TAIL_TOKEN.search (lastChars MAX_HOLDBACK text) 0)
      · obtain ⟨p,below,spelled⟩ := found_tail (fun c => (token_reads c).1)
          (fun c => (token_reads c).2) token
        exact ⟨p,below,Or.inl spelled⟩
      · have digits : 0 < groupLength ((TAIL_DIGITS u).search (lastChars MAX_HOLDBACK text) 0) := by
          omega
        obtain ⟨p,below,spelled⟩ := found_tail (fun c => (digits_read u c).1)
          (fun c => (digits_read u c).2) digits
        exact ⟨p,below,Or.inr spelled⟩
    obtain ⟨p,below,spelled⟩ := seen
    refine ⟨front.length+p,?_⟩
    have moved : Withheld u (front ++ lastChars MAX_HOLDBACK text) (front.length+p) := by
      rw [withheld_behind]
      exact ⟨below,by omega,spelled⟩
    rwa [split] at moved
  · rintro ⟨p,below,fits,spelled⟩
    have covered := holdback_covers u below fits spelled
    omega

theorem windowCut_whole {w : Str} (context : Str) (idle : holdback u w MAX_HOLDBACK = 0) :
    windowCut u context w = w.length := by
  unfold windowCut
  rw [idle,Nat.sub_zero]
  obtain whole | ⟨h,member,straddles,_⟩ :=
    (windowScanner u context w).pull_moved (Nat.zero_le w.length)
  · exact whole
  · have inside : h.stop ≤ w.length := ((windowScanner u context w).hit_bounds 0 h member).2.2.1
    exact absurd straddles.2 (not_lt.mpr inside)

/-- The buffer is the part of the text that is still withheld, and some of what was before it. -/
structure Holding (text : Str) (r : StreamRedactor) : Prop where
  opened : r.closed = false
  capped : r.maxHoldback = MAX_HOLDBACK
  suffix : ∃ raw, text = raw ++ r.buffer ∧ ∀ p, Withheld u text p → raw.length ≤ p
  live : r.buffer ≠ [] → ∃ p, Withheld u text p

theorem Holding.init : Holding u [] opening :=
  ⟨rfl,rfl,⟨[],rfl,fun _ _ => Nat.zero_le _⟩,fun some => absurd rfl some⟩

theorem withheld_before {text chunk : Str} {p : Nat} (held : Withheld u (text ++ chunk) p)
    (early : p < text.length) : Withheld u text p := by
  obtain ⟨_,fits,spelled⟩ := held
  rw [List.length_append] at fits
  exact ⟨early,by omega,spelled.imp (Regex.Spelled.left early.le) (Regex.Spelled.left early.le)⟩

theorem Holding.feed {text chunk safe : Str} {r next : StreamRedactor} (holding : Holding u text r)
    (fed : r.feed u chunk = .ok (safe,next)) : Holding u (text ++ chunk) next := by
  by_cases some : chunk = []
  · subst chunk
    have same : r.feed u [] = .ok ([],r) := by simp [StreamRedactor.feed,holding.opened]
    obtain ⟨_,rfl⟩ := Prod.mk.inj (Except.ok.inj (same.symm.trans fed))
    rwa [List.append_nil]
  · obtain ⟨raw,split,early⟩ := holding.suffix
    obtain ⟨next',fed',opened,capped,_,kept,_⟩ := feed_window u r chunk holding.opened some holding.capped
    obtain ⟨_,rfl⟩ := Prod.mk.inj (Except.ok.inj (fed'.symm.trans fed))
    generalize cutting : windowCut u r.leftContext (r.buffer ++ chunk) = cut at kept
    have whole : text ++ chunk = raw ++ (r.buffer ++ chunk) := by rw [split,List.append_assoc]
    have high : cut ≤ (r.buffer ++ chunk).length-holdback u (r.buffer ++ chunk) MAX_HOLDBACK := by
      rw [← cutting]
      exact windowCut_le u r.leftContext (r.buffer ++ chunk)
    refine ⟨opened,capped,⟨raw ++ (r.buffer ++ chunk).take cut,?_,?_⟩,?_⟩
    · rw [kept,whole,List.append_assoc,List.take_append_drop]
    · intro p held
      have behind : raw.length ≤ p := by
        by_contra before
        have inside : p < text.length := by
          rw [split,List.length_append]
          omega
        exact before (early p (withheld_before u held inside))
      obtain ⟨q,rfl⟩ := Nat.exists_eq_add_of_le behind
      rw [whole,withheld_behind] at held
      obtain ⟨below,fits,spelled⟩ := held
      have covered := holdback_covers u below fits spelled
      rw [List.length_append,List.length_take]
      omega
    · intro left
      have held : 0 < holdback u (r.buffer ++ chunk) MAX_HOLDBACK := by
        by_contra none
        rw [kept,← cutting,windowCut_whole u _ (by omega),List.drop_length] at left
        exact left rfl
      obtain ⟨p,withheld⟩ := (holdback_pos_iff u _).mp held
      rw [whole]
      exact ⟨raw.length+p,(withheld_behind u).mpr withheld⟩

theorem Holding.feedAll {text out : Str} {r last : StreamRedactor} {chunks : List Str}
    (holding : Holding u text r) (fed : r.feedAll u chunks = .ok (out,last)) :
    Holding u (text ++ chunks.flatten) last := by
  induction chunks generalizing text out r with
  | nil =>
    obtain ⟨_,rfl⟩ := Prod.mk.inj (Except.ok.inj fed)
    simpa using holding
  | cons chunk rest ih =>
    simp only [StreamRedactor.feedAll,bind,Except.bind] at fed
    cases head : r.feed u chunk with
    | error e => simp [head] at fed
    | ok pair =>
      simp only [head] at fed
      cases tail : pair.2.feedAll u rest with
      | error e => simp [tail] at fed
      | ok done =>
        simp only [tail,pure,Except.pure] at fed
        obtain ⟨_,rfl⟩ := Prod.mk.inj (Except.ok.inj fed)
        rw [List.flatten_cons,← List.append_assoc]
        exact ih (holding.feed u head) tail

/-- What the redactor holds depends on the text alone, not on how it was cut. -/
theorem buffer_nil_iff {chunks : List Str} {out : Str} {r : StreamRedactor}
    (fed : opening.feedAll u chunks = .ok (out,r)) :
    r.buffer = [] ↔ holdback u chunks.flatten MAX_HOLDBACK = 0 := by
  have holding := (Holding.init u).feedAll u fed
  rw [List.nil_append] at holding
  have pos := holdback_pos_iff u chunks.flatten
  constructor
  · intro empty
    by_contra held
    obtain ⟨p,withheld⟩ := pos.mp (Nat.pos_of_ne_zero held)
    obtain ⟨raw,split,early⟩ := holding.suffix
    have late := early p withheld
    rw [empty,List.append_nil] at split
    rw [← split] at late
    exact absurd withheld.1 (not_lt.mpr late)
  · intro idle
    by_contra some
    have held := pos.mpr (holding.live some)
    omega

/-- What httpx raises for an upstream that fails: a `TimeoutException` or another `HTTPError`. -/
inductive TransportError where
  | timeout
  | other
deriving DecidableEq, Repr

/-- An upstream that gives no response, or one with its lines and what their iterator raises
behind the last of them. -/
inductive Upstream where
  | unreachable (error : TransportError)
  | response (statusCode : Int) (lines : List Str) (raised : Option TransportError)

def errorFrame (message type : String) (status : Option Int) : Dict :=
  let error : Dict := [(lit "message",.str (lit message)),(lit "type",.str (lit type))]
  [(lit "error",.obj (error ++ (status.map fun code => (lit "status",Json.int code)).toList))]

/-- The two `except` clauses of `stream`. -/
def TransportError.report : TransportError → List Emission
  | .timeout =>
    [.frame (errorFrame "The model provider did not respond in time." "upstream_timeout" none),.done]
  | .other => [.frame (errorFrame "The model provider is unavailable." "upstream_error" none),.done]

/-- What `stream` yields, and what escapes it. A body that is read whole, because of its status,
can fail like one that is read by lines. -/
def stream (loads : Loads) : Upstream → List Emission × Option SseError
  | .unreachable error => (error.report,none)
  | .response statusCode lines raised =>
    if 400 ≤ statusCode then
      match raised with
      | some error => (error.report,none)
      | none =>
        ([.frame (errorFrame "Upstream provider error" "upstream_error" (some statusCode)),.done],none)
    else
      match raised with
      | none =>
        let (out,_,error) := redactSseStream u loads lines opening
        (out,error)
      | some error =>
        match sseLines u (lines.map (readLine u loads)) (.init opening) with
        | (out,_,some escaped) => (out,some escaped)
        | (out,_,none) => (out ++ error.report,none)

namespace Upstream

def received : Upstream → List Str
  | .unreachable _ => []
  | .response statusCode lines _ => if 400 ≤ statusCode then [] else lines

def failure : Upstream → Option TransportError
  | .unreachable error => some error
  | .response _ _ raised => raised

end Upstream

/-- The content strings of the frames, as the client joins them. -/
def clientText (out : List Emission) : Str := ((delivered out).map Prod.snd).flatten

/-- No content comes behind a frame with a finish reason or a `[DONE]`. -/
def contentEnds : List Line → Bool
  | [] => true
  | .done::rest => (upstream rest).all fun x => x.2.isEmpty
  | .frame frame::rest =>
    if finishes frame then (upstream rest).all fun x => x.2.isEmpty else contentEnds rest
  | _::rest => contentEnds rest

def SingleChoice (lines : List Line) : Prop :=
  ∀ frame, .frame frame ∈ lines → (choicesOf frame).length ≤ 1

/-- The lines that flush the redactor: `[DONE]`, and a terminal frame with a content. -/
def flushes : Line → Bool
  | .done => true
  | .frame frame => (choicesOf frame).any (closes (finishes frame))
  | _ => false

theorem sseLine_flushed {line : Line} {state next : SseState} {out : List Emission}
    (synced : state.redactor.closed = state.flushed)
    (step : sseLine u line state = .ok (out,next)) :
    next.flushed = (state.flushed || flushes line) := by
  cases line with
  | frame frame =>
    obtain ⟨_,_,step',_,flushed,_⟩ := redactFrame_spec u frame state synced
    obtain ⟨_,rfl⟩ := Prod.mk.inj (Except.ok.inj (step'.symm.trans (sseLine_frame u step)))
    exact flushed
  | done =>
    simp only [sseLine] at step
    split_ifs at step with closed
    · cases step
      simp [closed]
    · cases step
      simp [SseState.flush,flushes]
  | blank => cases step; simp [flushes]
  | field text => cases step; simp [flushes]
  | unread payload => cases step; simp [flushes]
  | raises error => cases step

/-- Lines that all parse: the loop ends in a state that knows whether it was flushed, and has fed
everything if it was not. -/
theorem sseLines_state (lines : List Line) {past : List Str} {state : SseState}
    (synced : state.redactor.closed = state.flushed) (reached : Reached u past state)
    (parses : ∀ error, .raises error ∉ lines) :
    ∃ out next, sseLines u lines state = (out,next,none) ∧
      next.redactor.closed = next.flushed ∧ Reached u (past ++ lineTexts lines) next ∧
      next.flushed = (state.flushed || lines.any flushes) := by
  induction lines generalizing past state with
  | nil => exact ⟨[],state,rfl,synced,by simpa [lineTexts,upstream] using reached,by simp⟩
  | cons line rest ih =>
    obtain ⟨out,middle,step,synced'⟩ := sseLine_ok u synced fun error same =>
      parses error (same ▸ List.mem_cons_self)
    have reached' := (sseLine_clean u reached step).2
    obtain ⟨more,next,run,closed,after,flushed⟩ := ih synced' reached' fun error member =>
      parses error (List.mem_cons_of_mem _ member)
    refine ⟨out ++ more,next,by simp only [sseLines,step,run],closed,?_,?_⟩
    · rw [lineTexts_cons,← List.append_assoc]
      exact after
    · rw [flushed,sseLine_flushed u synced step,List.any_cons,Bool.or_assoc]

theorem sseLines_escapes {lines : List Line} {error : LoadsError} (member : .raises error ∈ lines)
    (state : SseState) : (sseLines u lines state).2.2 ≠ none := by
  induction lines generalizing state with
  | nil => cases member
  | cons line rest ih =>
    simp only [sseLines]
    cases step : sseLine u line state with
    | error raised => simp
    | ok pair =>
      obtain rfl | later := List.mem_cons.mp member
      · cases step
      · exact ih later pair.2

/-- Where the contents end with the first terminal frame or `[DONE]`, nothing but empty texts
comes behind the flush. -/
theorem schedule_ends {lines : List Line} (single : SingleChoice lines)
    (ends : contentEnds lines = true) (last : Option Dict) :
    ∃ fed owner later, upstream lines = fed ++ later ∧
      schedule lines false last = fed.map feedTask ++ .flush owner :: later.map wholeTask ∧
      ∀ x ∈ later, x.2 = [] := by
  induction lines generalizing last with
  | nil => exact ⟨[],tailOwner last,[],rfl,rfl,by simp⟩
  | cons line rest ih =>
    have single' : SingleChoice rest := fun frame member => single frame (List.mem_cons_of_mem _ member)
    rw [upstream_cons]
    cases line with
    | blank => simpa [schedule,upstream] using ih single' ends last
    | field text => simpa [schedule,upstream] using ih single' ends last
    | unread payload => simpa [schedule,upstream] using ih single' ends last
    | raises error => simpa [schedule,upstream] using ih single' ends last
    | done =>
      refine ⟨[],tailOwner last,upstream rest,rfl,by simp [schedule,schedule_closed],?_⟩
      simpa [contentEnds] using ends
    | frame frame =>
      have read : upstream [.frame frame] = contents (choicesOf frame) := by simp [upstream]
      rw [read,schedule,Bool.false_or]
      rw [contentEnds] at ends
      rcases frameTasks_open (finishReasonOf frame).isSome (choicesOf frame) with
        ⟨open',tasks⟩ | ⟨closed,first,others,shape,tasks⟩
      · rw [open',tasks]
        split_ifs at ends with terminal
        · -- a terminal frame that does not flush brings no content
          obtain ⟨fed,owner,later,all,planned⟩ := schedule_shape rest (some frame)
          refine ⟨contents (choicesOf frame) ++ fed,owner,later,by rw [all,List.append_assoc],?_,?_⟩
          · rw [planned,List.map_append,List.append_assoc]
          · intro x member
            have quiet := List.all_eq_true.mp ends x (by rw [all]; exact List.mem_append_right _ member)
            simpa using quiet
        · obtain ⟨fed,owner,later,all,planned,quiet⟩ := ih single' ends (some frame)
          refine ⟨contents (choicesOf frame) ++ fed,owner,later,by rw [all,List.append_assoc],?_,quiet⟩
          rw [planned,List.map_append,List.append_assoc]
      · have one : (contents (choicesOf frame)).length ≤ 1 :=
          (List.length_filterMap_le _ _).trans (single frame List.mem_cons_self)
        rw [shape] at one
        obtain rfl : others = [] := by simpa using one
        have terminal : finishes frame = true := by
          obtain ⟨_,_,closing⟩ := List.any_eq_true.mp closed
          exact (Bool.and_eq_true_iff.mp closing).1
        rw [terminal,if_pos rfl] at ends
        refine ⟨[first],first.1,upstream rest,by rw [shape],?_,by simpa using ends⟩
        rw [closed,tasks,schedule_closed]
        rfl

theorem whole_text {lines : List Line} (single : SingleChoice lines) (ends : contentEnds lines = true)
    (parses : ∀ error, .raises error ∉ lines) {out : List Emission} {next : SseState}
    (run : sseLines u lines (.init opening) = (out,next,none)) :
    clientText (out ++ (sseEnd u next).1) =
      redactComplete u (lineTexts lines).flatten DEFAULT_PLACEHOLDER := by
  obtain ⟨out',next',run',renders⟩ := sseLines_spec u lines (.init opening) rfl parses
  obtain ⟨rfl,same⟩ := Prod.mk.inj (run'.symm.trans run)
  obtain ⟨rfl,_⟩ := Prod.mk.inj same
  obtain ⟨fed,owner,later,all,planned,quiet⟩ := schedule_ends single ends none
  change Renders u _ _ (schedule lines false none) _ at renders
  rw [planned] at renders
  obtain ⟨written,performed,same⟩ := renders.performed
  obtain ⟨feeds,redactor,fedRun,rfl⟩ := performAll_plan u performed
  have nothing : under (fun _ => true)
      (later.map fun x => (x.1,redactComplete u x.2 DEFAULT_PLACEHOLDER)) = [] := by
    rw [under_all,List.forall_mem_map]
    intro x member
    rw [quiet x member,redactComplete_nil]
  have texts : (lineTexts lines).flatten = (fed.map Prod.snd).flatten := by
    have empty : (later.map Prod.snd).flatten = [] := by
      rw [List.flatten_eq_nil_iff,List.forall_mem_map]
      exact quiet
    rw [lineTexts,all,List.map_append,List.flatten_append,empty,List.append_nil]
  have everything := same (fun _ => true)
  rw [under_append,under_cons,if_pos rfl,nothing,List.append_nil,
    feedAll_flush u (performAll_feed u fedRun)] at everything
  rw [texts,← everything]
  simp [clientText,under]

theorem clientText_append (out more : List Emission) :
    clientText (out ++ more) = clientText out ++ clientText more := by
  simp [clientText]

theorem clientText_report (error : TransportError) : clientText error.report = [] := by
  cases error <;> rfl

theorem end_text_nil {texts : List Str} {next : SseState}
    (synced : next.redactor.closed = next.flushed) (reached : Reached u texts next) :
    clientText (sseEnd u next).1 = [] ↔
      next.flushed = true ∨ holdback u texts.flatten MAX_HOLDBACK = 0 := by
  unfold sseEnd
  cases flushed : next.flushed with
  | true => simp [clientText,delivered]
  | false =>
    obtain ⟨out,fed⟩ := reached flushed
    have visible : next.redactor.placeholder ≠ [] := by
      rw [reached.placed u flushed]
      decide
    have tail := flush_nil_iff u next.redactor visible
    rw [synced,flushed,buffer_nil_iff u fed] at tail
    rw [← tail]
    simp only [Bool.false_eq_true,if_false,clientText,delivered_tailFrame]
    change _ ↔ (next.flush u).1 = []
    split_ifs with empty
    · simp [empty]
    · simp [empty]

theorem lines_delivered (loads : Loads) (lines : List Str) (raised : Option TransportError)
    {statusCode : Int} (fine : ¬400 ≤ statusCode)
    (single : SingleChoice (lines.map (readLine u loads)))
    (ends : contentEnds (lines.map (readLine u loads)) = true) :
    ((stream u loads (.response statusCode lines raised)).2 = none ∧
        clientText (stream u loads (.response statusCode lines raised)).1 =
          redactComplete u (lineTexts (lines.map (readLine u loads))).flatten DEFAULT_PLACEHOLDER) ↔
      (∀ error, .raises error ∉ lines.map (readLine u loads)) ∧
        (raised = none ∨ (lines.map (readLine u loads)).any flushes = true ∨
          holdback u (lineTexts (lines.map (readLine u loads))).flatten MAX_HOLDBACK = 0) := by
  simp only [stream,fine,if_false,redactSseStream]
  generalize lines.map (readLine u loads) = lines at single ends ⊢
  by_cases parses : ∀ error, .raises error ∉ lines
  · have reached : Reached u [] (.init opening) := fun _ => ⟨[],rfl⟩
    obtain ⟨out,next,run,synced,fed,flushed⟩ := sseLines_state u lines rfl reached parses
    have whole := whole_text u single ends parses run
    have tail := end_text_nil u synced fed
    rw [List.nil_append,flushed,SseState.init,Bool.false_or] at tail
    rw [and_iff_right parses]
    change sseLines u lines (.init opening) = _ at run
    simp only [run]
    cases raised with
    | none => simpa using whole
    | some error =>
      rw [clientText_append] at whole
      simp only [clientText_append,clientText_report,List.append_nil,true_and,reduceCtorEq,false_or]
      rw [← tail,← whole]
      exact List.self_eq_append_right
  · obtain ⟨error,member⟩ := not_forall_not.mp parses
    have escapes := sseLines_escapes u member (.init opening)
    apply iff_of_false
    · rintro ⟨none,_⟩
      generalize sseLines u lines (.init opening) = run at none escapes
      obtain ⟨out,state,escaped⟩ := run
      cases escaped with
      | none => exact escapes rfl
      | some error =>
        cases raised <;> cases none
    · exact fun good => parses good.1

/-- Of a stream with one choice whose contents end with it: no exception escapes and the client
gets the redaction of all that was received, exactly if `json.loads` raises nothing but
`JSONDecodeError`, and no failure of the upstream comes while text is withheld. -/
theorem received_text_delivered (loads : Loads) (upstream : Upstream)
    (single : SingleChoice (upstream.received.map (readLine u loads)))
    (ends : contentEnds (upstream.received.map (readLine u loads)) = true) :
    let lines := upstream.received.map (readLine u loads)
    let (out,escaped) := stream u loads upstream
    (escaped = none ∧
        clientText out = redactComplete u (lineTexts lines).flatten DEFAULT_PLACEHOLDER) ↔
      (∀ error, .raises error ∉ lines) ∧
        (upstream.failure = none ∨ lines.any flushes = true ∨
          holdback u (lineTexts lines).flatten MAX_HOLDBACK = 0) := by
  have nothing : redactComplete u (lineTexts []).flatten DEFAULT_PLACEHOLDER = [] :=
    redactComplete_nil u _
  have idle : holdback u (lineTexts []).flatten MAX_HOLDBACK = 0 := rfl
  cases upstream with
  | unreachable error =>
    exact iff_of_true ⟨rfl,(clientText_report error).trans nothing.symm⟩
      ⟨by simp [Upstream.received],Or.inr (Or.inr idle)⟩
  | response statusCode lines raised =>
    by_cases refused : 400 ≤ statusCode
    · simp only [Upstream.received,refused,if_true,List.map_nil,nothing,idle,stream]
      cases raised with
      | some error => exact iff_of_true ⟨rfl,clientText_report error⟩ (by simp)
      | none => exact iff_of_true ⟨rfl,rfl⟩ (by simp)
    · simp only [Upstream.received,refused,if_false] at single ends ⊢
      exact lines_delivered u loads lines raised refused single ends

def droppedLoads (content : String) : Loads :=
  tableLoads [(chatPayload (lit "0") (lit content),chatFrame 0 (lit content))]

def dropped (content : String) : Upstream :=
  .response 200 [lit "data: " ++ chatPayload (lit "0") (lit content)] (some .timeout)

theorem chatFrame_single (index : Int) (content : Str) : SingleChoice [.frame (chatFrame index content)] := by
  intro frame member
  cases List.mem_singleton.mp member
  exact le_of_eq rfl

theorem received_text_delivered_dropped :
    (stream asciiUnicode (droppedLoads "Hi, ") (dropped "Hi, ")).2 = none ∧
      clientText (stream asciiUnicode (droppedLoads "Hi, ") (dropped "Hi, ")).1 = lit "Hi, " := by
  have read : (dropped "Hi, ").received.map (readLine asciiUnicode (droppedLoads "Hi, ")) =
      [.frame (chatFrame 0 (lit "Hi, "))] := by rfl
  have delivers := received_text_delivered asciiUnicode (droppedLoads "Hi, ") (dropped "Hi, ")
    (by rw [read]; exact chatFrame_single 0 _) (by rw [read]; decide)
  rw [read] at delivers
  have plain : redactComplete asciiUnicode (lineTexts [.frame (chatFrame 0 (lit "Hi, "))]).flatten
      DEFAULT_PLACEHOLDER = lit "Hi, " := by decide +kernel
  rw [← plain]
  exact delivers.mpr ⟨by simp,Or.inr (Or.inr (by decide +kernel))⟩

/-- A word is held back when the upstream times out: the client never gets it. -/
theorem held_tail_lost : ¬∀ (u : Unicode) (loads : Loads) (upstream : Upstream),
    SingleChoice (upstream.received.map (readLine u loads)) →
    contentEnds (upstream.received.map (readLine u loads)) = true →
    (stream u loads upstream).2 = none ∧
      clientText (stream u loads upstream).1 =
        redactComplete u (lineTexts (upstream.received.map (readLine u loads))).flatten
          DEFAULT_PLACEHOLDER := by
  intro every
  have read : (dropped "Hello").received.map (readLine asciiUnicode (droppedLoads "Hello")) =
      [.frame (chatFrame 0 (lit "Hello"))] := by rfl
  have delivers := (every asciiUnicode (droppedLoads "Hello") (dropped "Hello")
    (by rw [read]; exact chatFrame_single 0 _) (by rw [read]; decide)).2
  have lost : clientText (stream asciiUnicode (droppedLoads "Hello") (dropped "Hello")).1 = [] := by
    decide +kernel
  rw [read,lost] at delivers
  exact absurd delivers.symm (by decide +kernel)

end GatewaySuite.Guardrail
