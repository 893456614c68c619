import GatewaySuite.Guardrail.EndMarker
import GatewaySuite.Lib.Keyed

/-! What comes beside a content. A choice whose content is held back is left out, and a frame
that releases nothing is not written: whatever else stood in their deltas is lost with them. -/
namespace GatewaySuite.Guardrail
open Lib Python
variable (u : Unicode)

/-- What the delta of a choice holds beside its content, under the index of the choice. -/
def extrasOf (choice : Dict) : List (Option Json × Str × Json) :=
  ((deltaOf choice).without ["content"]).map fun entry => (choice.get "index",entry)

def extras (choices : List Dict) : List (Option Json × Str × Json) := choices.flatMap extrasOf

def sentExtras (lines : List Line) : List (Option Json × Str × Json) :=
  lines.flatMap fun line =>
    match line with
    | .frame frame => extras (choicesOf frame)
    | _ => []

def writtenExtras (out : List Emission) : List (Option Json × Str × Json) :=
  out.flatMap fun emission =>
    match emission with
    | .frame frame => extras (choicesOf frame)
    | _ => []

/-- The choice is written, and its frame is. -/
def survives (frame : Dict) (texts : List (Dict × Option Str)) (x : Dict × Option Str) : Bool :=
  finishes frame || releases x || x.2.isNone && (texts.any releases ||
    !(choicesOf frame).any fun choice => (contentOf choice).any (· ≠ []))

theorem extrasOf_set {choice delta : Dict} (same : delta.without ["content"] =
    (deltaOf choice).without ["content"]) :
    extrasOf (choice.set "delta" (.obj delta)) = extrasOf choice := by
  have other : lit "index" ≠ lit "delta" := by decide
  have read : deltaOf (choice.set "delta" (.obj delta)) = delta := by simp [deltaOf,Json.dict?]
  rw [extrasOf,extrasOf,read,same,Dict.get_set_ne choice _ other]

theorem dropContent_extras (choice : Dict) : extrasOf (dropContent choice) = extrasOf choice := by
  unfold dropContent
  split
  next delta given =>
    split_ifs
    · apply extrasOf_set
      rw [Dict.without_without,deltaOf,given]
      rfl
    · rfl
  next => rfl

theorem rebuild_extras {finishing : Bool} {x : Dict × Option Str} {choice : Dict}
    (kept : rebuild finishing x = some choice) : extrasOf choice = extrasOf x.1 := by
  unfold rebuild at kept
  split at kept
  · cases kept
    exact dropContent_extras x.1
  · split_ifs at kept
    · cases kept
      exact extrasOf_set (Dict.without_set _ _ _)
    · cases kept
      exact extrasOf_set (Dict.without_without _ _)

theorem rebuild_isSome (finishing : Bool) (x : Dict × Option Str) :
    (rebuild finishing x).isSome = (finishing || releases x || x.2.isNone) := by
  unfold rebuild releases
  split
  next nothing => simp [nothing]
  next safe released =>
    by_cases empty : safe = []
    · cases finishing <;> simp [released,empty]
    · simp [released,empty]

theorem rebuilt_extras (finishing : Bool) (texts : List (Dict × Option Str)) :
    extras (texts.filterMap (rebuild finishing)) =
      admitted (fun x => finishing || releases x || x.2.isNone) (fun x => extrasOf x.1) texts := by
  induction texts with
  | nil => rfl
  | cons x rest ih =>
    have some := rebuild_isSome finishing x
    cases kept : rebuild finishing x with
    | none =>
      rw [kept] at some
      rw [List.filterMap_cons_none kept,ih,admitted,admitted,List.flatMap_cons,← some]
      rfl
    | some choice =>
      rw [kept] at some
      rw [List.filterMap_cons_some kept,extras,List.flatMap_cons,rebuild_extras kept,admitted,
        List.flatMap_cons,← some]
      exact congrArg _ ih

theorem frameOut_extras {frame : Dict} {texts : List (Dict × Option Str)}
    (read : texts.map Prod.fst = choicesOf frame) :
    writtenExtras (frameOut frame texts) =
      admitted (survives frame texts) (fun x => extrasOf x.1) texts := by
  unfold frameOut
  split_ifs with empty writes
  · have none : choicesOf frame = [] := List.isEmpty_iff.mp empty
    rw [none,List.map_eq_nil_iff] at read
    simp [writtenExtras,none,extras,read,admitted]
  · simp only [writtenExtras,List.flatMap_cons,List.flatMap_nil,List.append_nil,choicesOf_set,
      rebuilt_extras,admitted]
    congr 1
    funext x
    have same : ((finishReasonOf frame).isSome || releases x || x.2.isNone) =
        survives frame texts x := by
      unfold emits at writes
      unfold survives finishes
      cases finishing : (finishReasonOf frame).isSome with
      | true => simp
      | false =>
        rw [finishing,Bool.or_false] at writes
        rw [writes,Bool.and_true]
    rw [same]
  · unfold emits at writes
    simp only [Bool.or_eq_true,not_or,Bool.not_eq_true,Bool.not_eq_false'] at writes
    obtain ⟨⟨silent,endless⟩,contentful⟩ := writes
    refine (List.flatMap_eq_nil_iff.mpr fun x member => ?_).symm
    have dropped : survives frame texts x = false := by
      have quiet : releases x = false := by
        by_contra loud
        rw [List.any_eq_false] at silent
        exact silent x member (by simpa using loud)
      simp only [survives,finishes,endless,quiet,silent,contentful,Bool.or_self,Bool.not_true,
        Bool.and_false]
    rw [dropped,if_neg Bool.false_ne_true]

theorem writtenExtras_append (out more : List Emission) :
    writtenExtras (out ++ more) = writtenExtras out ++ writtenExtras more := by simp [writtenExtras]

theorem tailFrame_extras (frame : Dict) (tail : Str) : writtenExtras (tailFrame frame tail) = [] := by
  unfold tailFrame
  split_ifs
  · rfl
  · obtain ⟨choice,one,delta,_⟩ := withContent_choice frame tail
    simp [writtenExtras,one,extras,extrasOf,delta,Dict.without]

/-- What the redactor releases of the choices of a frame that the loop meets. -/
def textsAt (x : Dict × SseState) : List (Dict × Option Str) :=
  match safeTexts u (finishReasonOf x.1) (choicesOf x.1) {x.2 with lastFrame := some x.1} with
  | .ok (texts,_) => texts
  | .error _ => []

/-- The choices of the stream, each in its frame. -/
def choicesMet (lines : List Line) (state : SseState) : List ((Dict × SseState) × Dict × Option Str) :=
  (met u lines state).flatMap fun x => (textsAt u x).map fun choice => (x,choice)

def kept (x : (Dict × SseState) × Dict × Option Str) : Bool :=
  survives x.1.1 (textsAt u x.1) x.2

theorem redactFrame_texts {frame : Dict} {state next : SseState} {out : List Emission}
    (step : redactFrame u frame state = .ok (out,next)) :
    out = frameOut frame (textsAt u (frame,state)) ∧
      (textsAt u (frame,state)).map Prod.fst = choicesOf frame := by
  obtain ⟨texts,run,rfl⟩ := redactFrame_ok u step
  have here : textsAt u (frame,state) = texts := by
    simp only [textsAt,run]
  rw [here]
  exact ⟨rfl,safeTexts_choices u run⟩

/-- What is written beside the contents are the extras of the choices kept. -/
theorem sseLines_extras (lines : List Line) {state : SseState}
    (synced : state.redactor.closed = state.flushed) (parses : ∀ error, .raises error ∉ lines) :
    sentExtras lines = (choicesMet u lines state).flatMap (fun x => extrasOf x.2.1) ∧
      writtenExtras (sseLines u lines state).1 =
        admitted (kept u) (fun x => extrasOf x.2.1) (choicesMet u lines state) := by
  induction lines generalizing state with
  | nil => exact ⟨rfl,rfl⟩
  | cons line rest ih =>
    obtain ⟨out,next,step,synced'⟩ := sseLine_ok u synced fun error same =>
      parses error (same ▸ List.mem_cons_self)
    obtain ⟨sent,written⟩ := ih synced' fun error member => parses error (List.mem_cons_of_mem _ member)
    have run : (sseLines u (line::rest) state).1 = out ++ (sseLines u rest next).1 := by
      simp only [sseLines,step]
    rw [run,writtenExtras_append,written]
    have pass (silent : writtenExtras out = []) (same : sentExtras (line::rest) = sentExtras rest)
        (skips : choicesMet u (line::rest) state = choicesMet u rest next) :
        sentExtras (line::rest) =
            (choicesMet u (line::rest) state).flatMap (fun x => extrasOf x.2.1) ∧
          writtenExtras out ++ admitted (kept u) (fun x => extrasOf x.2.1) (choicesMet u rest next) =
            admitted (kept u) (fun x => extrasOf x.2.1) (choicesMet u (line::rest) state) := by
      rw [silent,same,skips]
      exact ⟨sent,rfl⟩
    cases line with
    | blank =>
      cases step
      exact pass rfl rfl rfl
    | field text =>
      cases step
      exact pass rfl rfl rfl
    | unread payload =>
      cases step
      exact pass rfl rfl rfl
    | raises error => cases step
    | done =>
      refine pass ?_ rfl (by simp only [choicesMet,met,step])
      simp only [sseLine] at step
      split_ifs at step
      · cases step
        rfl
      · cases step
        rw [writtenExtras_append,tailFrame_extras]
        rfl
    | frame frame =>
      have frameStep : redactFrame u frame state = .ok (out,next) := sseLine_frame u step
      obtain ⟨rfl,read⟩ := redactFrame_texts u frameStep
      have here : choicesMet u (.frame frame::rest) state =
          (textsAt u (frame,state)).map (fun choice => ((frame,state),choice)) ++
            choicesMet u rest next := by
        simp only [choicesMet,met,step,List.flatMap_cons]
      constructor
      · have own : extras (choicesOf frame) = (textsAt u (frame,state)).flatMap fun x => extrasOf x.1 := by
          rw [← read,extras,List.flatMap_map]
        rw [here,List.flatMap_append,← sent,List.flatMap_map,← own]
        rfl
      · rw [here,frameOut_extras read]
        simp only [admitted,List.flatMap_append,List.flatMap_map]
        rfl

theorem sseEnd_extras (state : SseState) : writtenExtras (sseEnd u state).1 = [] := by
  unfold sseEnd
  split_ifs
  · rfl
  · exact tailFrame_extras _ _

/-- Whatever stands beside a content reaches the client, under its index and in its order,
exactly if every choice that brings such is kept. -/
theorem metadata_kept (loads : Loads) (lines : List Str)
    (parses : ∀ line ∈ lines, ∀ error, readLine u loads line ≠ .raises error) :
    KeptUnder Prod.fst (sentExtras (lines.map (readLine u loads)))
        (writtenExtras (redactSseStream u loads lines (.init MAX_HOLDBACK DEFAULT_PLACEHOLDER)).1) ↔
      ∀ x ∈ choicesMet u (lines.map (readLine u loads)) (.init opening),
        extrasOf x.2.1 ≠ [] → kept u x = true := by
  obtain ⟨out,next,run,stream,_⟩ := redactSseStream_spec u loads lines opening rfl parses
  have synced : (SseState.init opening).redactor.closed = (SseState.init opening).flushed := rfl
  obtain ⟨sent,written⟩ :=
    sseLines_extras u (lines.map (readLine u loads)) synced (never_raises u parses)
  have whole : writtenExtras (redactSseStream u loads lines opening).1 =
      admitted (kept u) (fun x => extrasOf x.2.1)
        (choicesMet u (lines.map (readLine u loads)) (.init opening)) := by
    rw [← written,stream,run,writtenExtras_append,sseEnd_extras,List.append_nil]
  change KeptUnder Prod.fst _ (writtenExtras (redactSseStream u loads lines opening).1) ↔ _
  rw [sent,whole,← admitted_all]
  constructor
  · exact fun keeps => keeps.eq (admitted_sublist _ _ _)
  · intro same
    rw [same]
    exact KeptUnder.refl _ _

/-- A first delta that names the role beside a content. -/
def roleFrame (content : Str) : Dict :=
  [(lit "choices",.arr [.obj [(lit "index",.int 0),
    (lit "delta",.obj [(lit "role",.str (lit "assistant")),(lit "content",.str content)])]])]

def rolePayload (content : Str) : Str :=
  lit "\x7b\"choices\": [\x7b\"index\": 0, \"delta\": \x7b\"role\": \"assistant\", \"content\": \"" ++
    content ++ lit "\"\x7d\x7d]\x7d"

def roleLines (content : String) : List Str :=
  [rolePayload (lit content),lit "[DONE]"].map (lit "data: " ++ ·)

def roleLoads (content : String) : Loads := tableLoads [(rolePayload (lit content),roleFrame (lit content))]

theorem metadata_kept_role :
    KeptUnder Prod.fst (sentExtras ((roleLines "Hi, ").map (readLine asciiUnicode (roleLoads "Hi, "))))
      (writtenExtras (redactSseStream asciiUnicode (roleLoads "Hi, ") (roleLines "Hi, ")
        (.init MAX_HOLDBACK DEFAULT_PLACEHOLDER)).1) := by
  refine (metadata_kept asciiUnicode (roleLoads "Hi, ") (roleLines "Hi, ")
    (fun line _ => readLine_parses asciiUnicode (tableLoads_parses _) line)).mpr ?_
  have all : (choicesMet asciiUnicode ((roleLines "Hi, ").map (readLine asciiUnicode (roleLoads "Hi, ")))
      (.init opening)).all (kept asciiUnicode) = true := by decide +kernel
  exact fun x member _ => List.all_eq_true.mp all x member

/-- The content is a word that is held back: the frame is dropped, and the role with it. -/
theorem role_lost :
    ¬ KeptUnder Prod.fst (sentExtras ((roleLines "Hello").map (readLine asciiUnicode (roleLoads "Hello"))))
      (writtenExtras (redactSseStream asciiUnicode (roleLoads "Hello") (roleLines "Hello")
        (.init MAX_HOLDBACK DEFAULT_PLACEHOLDER)).1) := by
  intro keeps
  have sent : sentExtras ((roleLines "Hello").map (readLine asciiUnicode (roleLoads "Hello"))) =
      [(some (.int 0),lit "role",.str (lit "assistant"))] := by rfl
  have written : writtenExtras (redactSseStream asciiUnicode (roleLoads "Hello") (roleLines "Hello")
      (.init MAX_HOLDBACK DEFAULT_PLACEHOLDER)).1 = [] := by rfl
  have lost := (keeps (some (.int 0))).length_le
  rw [sent,written] at lost
  simp at lost

end GatewaySuite.Guardrail
