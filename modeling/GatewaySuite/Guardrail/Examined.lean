import GatewaySuite.Guardrail.Frames
import GatewaySuite.Guardrail.Choices

/-! Where the contents that a client receives come from. On a stream each is a text that the
redactor returned; in a body that does not stream only strings are examined. -/
namespace GatewaySuite.Guardrail
open Python
variable (u : Unicode)

def deltaContent (choice : Dict) : Option Json := (deltaOf choice).get "content"

def messageContent (choice : Dict) : Option Json :=
  ((choice.get "message").bind Json.dict?).bind fun message => message.get "content"

/-- Absent, null or a string of some origin. -/
def Examined (origin : Str → Prop) : Option Json → Prop
  | none | some .null => True
  | some (.str text) => origin text
  | _ => False

theorem Examined.mono {origin wider : Str → Prop} (widens : ∀ text, origin text → wider text)
    {content : Option Json} (examined : Examined origin content) : Examined wider content := by
  unfold Examined at examined ⊢
  split
  · trivial
  · trivial
  · exact widens _ examined
  · simp_all

def opening : StreamRedactor := .init MAX_HOLDBACK DEFAULT_PLACEHOLDER

/-- A text that the redactor returned, having been fed upstream texts from the first on: for
the next one, for the next one and the flush behind it, for a flush, or for one as a whole. -/
inductive Returned (texts : List Str) : Str → Prop
  | feed {past : List Str} {content out safe : Str} {r next : StreamRedactor} :
    past ++ [content] <+: texts → opening.feedAll u past = .ok (out,r) →
    r.feed u content = .ok (safe,next) → Returned texts safe
  | close {past : List Str} {content out safe : Str} {r next : StreamRedactor} :
    past ++ [content] <+: texts → opening.feedAll u past = .ok (out,r) →
    r.feed u content = .ok (safe,next) → Returned texts (safe ++ (next.flush u).1)
  | flush {past : List Str} {out : Str} {r : StreamRedactor} :
    past <+: texts → opening.feedAll u past = .ok (out,r) → Returned texts (r.flush u).1
  | whole {content : Str} : content ∈ texts →
    Returned texts (redactComplete u content DEFAULT_PLACEHOLDER)

theorem Returned.mono {texts more : List Str} (longer : texts <+: more) {text : Str}
    (returned : Returned u texts text) : Returned u more text := by
  cases returned with
  | feed past fed step => exact .feed (past.trans longer) fed step
  | close past fed step => exact .close (past.trans longer) fed step
  | flush past fed => exact .flush (past.trans longer) fed
  | whole member => exact .whole (longer.subset member)

/-- Until it is flushed, the redactor has been fed all texts so far. -/
def Reached (past : List Str) (state : SseState) : Prop :=
  state.flushed = false → ∃ out, opening.feedAll u past = .ok (out,state.redactor)

theorem safeText_returned {finish : Option Json} {content safe : Str} {past : List Str}
    {state next : SseState} (reached : Reached u past state)
    (step : safeText u finish content state = .ok (safe,next)) :
    Returned u (past ++ [content]) safe ∧ Reached u (past ++ [content]) next := by
  unfold safeText at step
  cases closed : state.flushed with
  | true =>
    rw [closed,if_pos rfl] at step
    cases step
    exact ⟨.whole (by simp),fun opened => by rw [closed] at opened; cases opened⟩
  | false =>
    obtain ⟨out,fed⟩ := reached closed
    simp only [closed,Bool.false_eq_true,if_false,SseState.feed,bind,Except.bind] at step
    cases feeds : state.redactor.feed u content with
    | error raised => simp [feeds] at step
    | ok pair =>
      obtain ⟨emit,redactor⟩ := pair
      simp only [feeds,pure,Except.pure] at step
      split_ifs at step with finishing
      · cases step
        exact ⟨.close List.prefix_rfl fed feeds,fun opened => by cases opened⟩
      · cases step
        exact ⟨.feed List.prefix_rfl fed feeds,fun _ => ⟨_,feedAll_snoc u fed feeds⟩⟩

def textsOf (choices : List Dict) : List Str := (contents choices).map Prod.snd

theorem textsOf_cons (choice : Dict) (rest : List Dict) :
    textsOf (choice::rest) = (contentOf choice).toList ++ textsOf rest := by
  rw [textsOf,contents_cons,List.map_append]
  cases contentOf choice <;> rfl

theorem safeTexts_returned {finish : Option Json} {choices : List Dict} {past : List Str}
    {state last : SseState} {texts : List (Dict × Option Str)} (reached : Reached u past state)
    (run : safeTexts u finish choices state = .ok (texts,last)) :
    (∀ x ∈ texts, ∀ safe, x.2 = some safe → Returned u (past ++ textsOf choices) safe) ∧
      Reached u (past ++ textsOf choices) last := by
  induction choices generalizing past state texts with
  | nil =>
    cases run
    exact ⟨by simp,by simpa [textsOf,contents] using reached⟩
  | cons choice rest ih =>
    rw [textsOf_cons]
    obtain ⟨none,more,tail,rfl⟩ | ⟨content,safe,next,more,found,step,tail,rfl⟩ :=
      safeTexts_cons u run
    · obtain ⟨returned,after⟩ := ih reached tail
      rw [none]
      exact ⟨by simpa using returned,by simpa using after⟩
    · obtain ⟨here,reached'⟩ := safeText_returned u reached step
      obtain ⟨returned,after⟩ := ih reached' tail
      rw [List.append_assoc] at returned after
      rw [found]
      refine ⟨fun x member safe' same => ?_,after⟩
      obtain rfl | behind := List.mem_cons.mp member
      · cases same
        exact here.mono u ⟨textsOf rest,by simp⟩
      · exact returned x behind safe' same

theorem deltaContent_set (choice delta : Dict) :
    deltaContent (choice.set "delta" (.obj delta)) = delta.get "content" := by
  simp [deltaContent,deltaOf,Json.dict?]

theorem deltaContent_without (choice delta : Dict) :
    deltaContent (choice.set "delta" (.obj (delta.without ["content"]))) = none := by
  rw [deltaContent_set,Dict.get_without]
  simp

theorem dropContent_examined (origin : Str → Prop) (choice : Dict) :
    Examined origin (deltaContent (dropContent choice)) := by
  unfold dropContent
  split
  next delta given =>
    split_ifs with held
    · rw [deltaContent_without]
      trivial
    · have value : deltaContent choice = Dict.get delta "content" := by
        simp [deltaContent,deltaOf,given]
      rw [value]
      cases content : Dict.get delta "content" with
      | none => trivial
      | some content' =>
        cases content' with
        | null => trivial
        | _ => simp [content,Option.filter,Json.notNone] at held
  next absent =>
    have value : deltaContent choice = none := by
      rw [deltaContent,deltaOf,absent]
      rfl
    rw [value]
    trivial

theorem rebuild_examined {origin : Str → Prop} {finishing : Bool} {x : Dict × Option Str}
    {choice : Dict} (returned : ∀ safe, x.2 = some safe → origin safe)
    (kept : rebuild finishing x = some choice) : Examined origin (deltaContent choice) := by
  unfold rebuild at kept
  split at kept
  next =>
    cases kept
    exact dropContent_examined origin x.1
  next safe released =>
    split_ifs at kept
    · cases kept
      rw [deltaContent_set,Dict.get_set]
      exact returned safe released
    · cases kept
      rw [deltaContent_without]
      trivial

/-- Every content in the frames written is examined. -/
def Clean (origin : Str → Prop) (out : List Emission) : Prop :=
  ∀ frame choice, .frame frame ∈ out → choice ∈ choicesOf frame →
    Examined origin (deltaContent choice)

theorem Clean.mono {origin wider : Str → Prop} (widens : ∀ text, origin text → wider text)
    {out : List Emission} (clean : Clean origin out) : Clean wider out :=
  fun frame choice member inside => (clean frame choice member inside).mono widens

theorem Clean.append {origin : Str → Prop} {out more : List Emission} (clean : Clean origin out)
    (clean' : Clean origin more) : Clean origin (out ++ more) := by
  intro frame choice member
  obtain before | behind := List.mem_append.mp member
  · exact clean frame choice before
  · exact clean' frame choice behind

theorem frameOut_clean {origin : Str → Prop} (frame : Dict) {texts : List (Dict × Option Str)}
    (returned : ∀ x ∈ texts, ∀ safe, x.2 = some safe → origin safe) :
    Clean origin (frameOut frame texts) := by
  intro frame' choice member inside
  unfold frameOut at member
  split_ifs at member with empty writes
  · rw [List.mem_singleton,Emission.frame.injEq] at member
    subst frame'
    rw [List.isEmpty_iff.mp empty] at inside
    cases inside
  · rw [List.mem_singleton,Emission.frame.injEq] at member
    subst frame'
    rw [choicesOf_set] at inside
    obtain ⟨x,from',kept⟩ := List.mem_filterMap.mp inside
    exact rebuild_examined (returned x from') kept
  · cases member

theorem tailFrame_clean {origin : Str → Prop} (frame : Dict) {tail : Str} (returned : origin tail) :
    Clean origin (tailFrame frame tail) := by
  intro frame' choice member inside
  unfold tailFrame at member
  split_ifs at member
  · cases member
  · rw [List.mem_singleton,Emission.frame.injEq] at member
    subst frame'
    obtain ⟨only,one,delta,_⟩ := withContent_choice frame tail
    rw [one,List.mem_singleton] at inside
    subst choice
    rw [deltaContent,delta]
    exact returned

/-- The string contents of the dictionary frames, one after the other. -/
def lineTexts (lines : List Line) : List Str := (upstream lines).map Prod.snd

theorem lineTexts_frame (frame : Dict) : lineTexts [.frame frame] = textsOf (choicesOf frame) := by
  simp [lineTexts,textsOf,upstream]

theorem Reached.tail {past : List Str} {state : SseState} (reached : Reached u past state)
    (opened : state.flushed = false) :
    Returned u past (state.flush u).1 ∧ Reached u past (state.flush u).2 := by
  obtain ⟨out,fed⟩ := reached opened
  exact ⟨.flush List.prefix_rfl fed,fun opened' => by cases opened'⟩

theorem sseLine_clean {line : Line} {past : List Str} {state next : SseState} {out : List Emission}
    (reached : Reached u past state) (step : sseLine u line state = .ok (out,next)) :
    Clean (Returned u (past ++ lineTexts [line])) out ∧ Reached u (past ++ lineTexts [line]) next := by
  have silent (emission : Emission) (plain : ∀ frame, emission ≠ .frame frame) :
      Clean (Returned u past) [emission] := by
    intro frame choice member
    exact absurd (List.mem_singleton.mp member).symm (plain frame)
  cases line with
  | frame frame =>
    rw [lineTexts_frame]
    obtain ⟨texts,run,rfl⟩ := redactFrame_ok u (sseLine_frame u step)
    have read : Reached u past {state with lastFrame := some frame} := reached
    obtain ⟨returned,after⟩ := safeTexts_returned u read run
    exact ⟨frameOut_clean frame returned,after⟩
  | done =>
    have same : past ++ lineTexts [.done] = past := List.append_nil past
    rw [same]
    simp only [sseLine] at step
    split_ifs at step with closed
    · cases step
      exact ⟨silent .done (by simp),reached⟩
    · cases step
      obtain ⟨returned,after⟩ := reached.tail u (by simpa using closed)
      exact ⟨(tailFrame_clean _ returned).append (silent .done (by simp)),after⟩
  | blank =>
    cases step
    exact ⟨by simp [Clean],by simpa [lineTexts,upstream] using reached⟩
  | field text =>
    cases step
    exact ⟨by simp [Clean],by simpa [lineTexts,upstream] using reached⟩
  | unread payload =>
    cases step
    exact ⟨by simp [Clean],by simpa [lineTexts,upstream] using reached⟩
  | raises error => cases step

theorem lineTexts_cons (line : Line) (rest : List Line) :
    lineTexts (line::rest) = lineTexts [line] ++ lineTexts rest := by
  rw [lineTexts,upstream_cons,List.map_append]
  rfl

theorem sseLines_clean (lines : List Line) {past : List Str} {state : SseState}
    (reached : Reached u past state) :
    Clean (Returned u (past ++ lineTexts lines)) (sseLines u lines state).1 ∧
      ((sseLines u lines state).2.2 = none →
        Reached u (past ++ lineTexts lines) (sseLines u lines state).2.1) := by
  induction lines generalizing past state with
  | nil => exact ⟨by simp [Clean,sseLines],fun _ => by simpa [lineTexts,upstream,sseLines] using reached⟩
  | cons line rest ih =>
    rw [lineTexts_cons,← List.append_assoc]
    simp only [sseLines]
    cases step : sseLine u line state with
    | error raised => exact ⟨by simp [Clean],by simp⟩
    | ok pair =>
      obtain ⟨clean,reached'⟩ := sseLine_clean u reached step
      obtain ⟨later,after⟩ := ih reached'
      refine ⟨Clean.append (clean.mono fun text returned => ?_) later,after⟩
      exact returned.mono u (List.prefix_append _ _)

theorem stream_clean (loads : Loads) (lines : List Str) :
    Clean (Returned u (lineTexts (lines.map (readLine u loads))))
      (redactSseStream u loads lines opening).1 := by
  have reached : Reached u [] (.init opening) := fun _ => ⟨[],rfl⟩
  have run := sseLines_clean u (lines.map (readLine u loads)) reached
  rw [List.nil_append] at run
  unfold redactSseStream
  generalize sseLines u (lines.map (readLine u loads)) (.init opening) = outcome at run ⊢
  obtain ⟨out,state,raised⟩ := outcome
  obtain ⟨clean,after⟩ := run
  cases raised with
  | some error => exact clean
  | none =>
    apply Clean.append clean
    unfold sseEnd
    split_ifs with closed
    · simp [Clean]
    · exact tailFrame_clean _ ((after rfl).tail u (by simpa using closed)).1

/-- A body that does not stream has its strings redacted and every other content kept. -/
theorem messageContent_redactMessage (choice : Dict) :
    messageContent (redactMessage u choice) = (messageContent choice).map fun content =>
      match content with
      | .str text => .str (redactComplete u text DEFAULT_PLACEHOLDER)
      | content => content := by
  unfold redactMessage
  split
  next message found =>
    have value : messageContent choice = Dict.get message "content" := by
      simp [messageContent,found,Json.dict?]
    rw [value]
    split
    next content text => simp [messageContent,text,Json.dict?]
    next other =>
      rw [value]
      cases content : Dict.get message "content" with
      | none => rfl
      | some content' =>
        cases content' with
        | str text => exact absurd content (other text)
        | _ => rfl
  next silent =>
    have value : messageContent choice = none := by
      unfold messageContent
      cases shape : Dict.get choice "message" with
      | none => rfl
      | some message =>
        cases message with
        | obj message => exact absurd shape (silent message)
        | _ => rfl
    rw [value]
    rfl

def messages (data : Dict) : List Str := (choicesOf data).filterMap messageOf

theorem message_examined (data choice : Dict) (member : choice ∈ choicesOf data) :
    Examined (Returned u (messages data)) (messageContent (redactMessage u choice)) ↔
      Examined (fun _ => True) (messageContent choice) := by
  rw [messageContent_redactMessage]
  cases content : messageContent choice with
  | none => exact Iff.rfl
  | some value =>
    cases value with
    | str text =>
      have listed : text ∈ messages data := by
        refine List.mem_filterMap.mpr ⟨choice,member,?_⟩
        change (messageContent choice).bind Json.str? = some text
        rw [content]
        rfl
      exact iff_of_true (.whole listed) trivial
    | _ => exact Iff.rfl

/-- The stream forwards no content that the redactor did not return, whatever it is. A body
that does not stream forwards none exactly if each content in it is absent, null or a string. -/
theorem unexamined_never_forwarded (loads : Loads) (lines : List Str) (data : Dict) :
    Clean (Returned u (lineTexts (lines.map (readLine u loads))))
        (redactSseStream u loads lines (.init MAX_HOLDBACK DEFAULT_PLACEHOLDER)).1 ∧
      ((∀ choice ∈ choicesOf (redactBody u data),
          Examined (Returned u (messages data)) (messageContent choice)) ↔
        ∀ choice ∈ choicesOf data, Examined (fun _ => True) (messageContent choice)) := by
  refine ⟨stream_clean u loads lines,?_⟩
  rw [choicesOf_redactBody,List.forall_mem_map]
  exact forall₂_congr fun choice member => message_examined u data choice member

/-- A content in blocks: the stream drops it, the body forwards it as it came. -/
def blocksBody : Dict :=
  [(lit "choices",.arr [.obj [(lit "index",.int 0),(lit "message",.obj [(lit "content",
    .arr [.obj [(lit "type",.str (lit "text")),(lit "text",.str (lit "ssn 123-45-6789"))]])])]])]

theorem blocks_forwarded :
    ¬ ∀ choice ∈ choicesOf (redactBody asciiUnicode blocksBody),
      Examined (Returned asciiUnicode (messages blocksBody)) (messageContent choice) := by
  intro examined
  exact examined _ List.mem_cons_self

end GatewaySuite.Guardrail
