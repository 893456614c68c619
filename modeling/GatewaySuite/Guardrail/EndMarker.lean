import GatewaySuite.Guardrail.Examined

/-! What comes after the end marker. A terminal frame closes the redactor only if it brings a
content; otherwise what is still held back follows it. -/
namespace GatewaySuite.Guardrail
open Lib Python
variable (u : Unicode)

def finishes (frame : Dict) : Bool := (finishReasonOf frame).isSome

theorem finishes_any (frame : Dict) :
    finishes frame = (choicesOf frame).any fun choice => (finishOf choice).isSome := by
  rw [finishes,finishReasonOf,Bool.eq_iff_iff,List.findSome?_isSome_iff,List.any_eq_true]

theorem rebuild_finish {finishing : Bool} {x : Dict × Option Str} {choice : Dict}
    (kept : rebuild finishing x = some choice) : finishOf choice = finishOf x.1 := by
  have other : lit "finish_reason" ≠ lit "delta" := by decide
  rw [finishOf,finishOf,rebuild_get kept other]

theorem frameOut_finishes {frame frame' : Dict} {texts : List (Dict × Option Str)}
    (read : texts.map Prod.fst = choicesOf frame) (member : .frame frame' ∈ frameOut frame texts) :
    finishes frame' = finishes frame := by
  unfold frameOut at member
  split_ifs at member with empty writes
  · rw [List.mem_singleton,Emission.frame.injEq] at member
    rw [member]
  · rw [List.mem_singleton,Emission.frame.injEq] at member
    subst frame'
    rw [finishes_any,choicesOf_set,Bool.eq_iff_iff,List.any_eq_true]
    constructor
    · rintro ⟨choice,inside,ends⟩
      obtain ⟨x,source,kept⟩ := List.mem_filterMap.mp inside
      rw [rebuild_finish kept] at ends
      rw [finishes_any,List.any_eq_true,← read]
      exact ⟨x.1,List.mem_map_of_mem source,ends⟩
    · intro finishing
      have always : (finishReasonOf frame).isSome = true := finishing
      rw [finishes_any,List.any_eq_true,← read] at finishing
      obtain ⟨_,inside,ends⟩ := finishing
      obtain ⟨x,source,rfl⟩ := List.mem_map.mp inside
      obtain ⟨choice,kept⟩ := rebuild_finishing x
      refine ⟨choice,List.mem_filterMap.mpr ⟨x,source,?_⟩,?_⟩
      · rw [always]
        exact kept
      · rw [rebuild_finish kept]
        exact ends
  · cases member

theorem frameOut_single {frame : Dict} (texts : List (Dict × Option Str)) (ends : finishes frame = true) :
    ∃ frame', frameOut frame texts = [.frame frame'] := by
  have always : emits frame texts = true := by
    change (finishReasonOf frame).isSome = true at ends
    simp [emits,ends]
  unfold frameOut
  split_ifs
  · exact ⟨_,rfl⟩
  · exact ⟨_,rfl⟩

theorem withContent_endless (frame : Dict) (text : Str) : finishes (withContent frame text) = false := by
  obtain ⟨choice,one,_,none,_⟩ := withContent_choice frame text
  rw [finishes_any,one]
  simp [finishOf,none,Option.filter,Json.notNone]

/-- No content comes after the first frame that is written with a finish reason. -/
def EndsLast (out : List Emission) : Prop :=
  ∀ before frame after, out = before ++ .frame frame :: after → finishes frame = true →
    ∀ x ∈ delivered after, x.2 = []

theorem endsLast_behind {out : List Emission} (endless : ∀ frame, .frame frame ∈ out → finishes frame = false)
    (more : List Emission) : EndsLast (out ++ more) ↔ EndsLast more := by
  constructor
  · intro last before frame after split
    exact last (out ++ before) frame after (by rw [split,List.append_assoc])
  · intro last before frame after split ends
    obtain ⟨rest,rfl,tail⟩ | ⟨rest,rfl,tail⟩ := List.append_eq_append_iff.mp split
    · exact last rest frame after tail ends
    · cases rest with
      | nil => exact last [] frame after (by simpa using tail.symm) ends
      | cons emission rest =>
        rw [List.cons_append,List.cons.injEq] at tail
        have early := endless frame (by simp [← tail.1])
        rw [ends] at early
        cases early

theorem endsLast_end {frame : Dict} (ends : finishes frame = true) (more : List Emission) :
    EndsLast (.frame frame::more) ↔ ∀ x ∈ delivered more, x.2 = [] := by
  constructor
  · exact fun last => last [] frame more rfl ends
  · intro empty before frame' after split _ x member
    cases before with
    | nil =>
      rw [List.nil_append,List.cons.injEq] at split
      exact empty x (split.2 ▸ member)
    | cons emission rest =>
      rw [List.cons_append,List.cons.injEq] at split
      apply empty x
      rw [split.2,delivered_append,List.mem_append]
      exact Or.inr (by simp [delivered] at member ⊢; exact Or.inr member)

theorem splice_nonempty {α L : Type} {text put : List α} {last cursor : Nat} (hits : List (Hit L))
    (rest : cursor < last) (inside : last ≤ text.length) (visible : put ≠ []) :
    splice text put last cursor hits ≠ [] := by
  have plain : slice text cursor last ≠ [] := by
    apply List.ne_nil_of_length_pos
    rw [slice_length text inside]
    omega
  cases hits with
  | nil => exact plain
  | cons h later =>
    unfold splice
    split_ifs
    · exact plain
    · simp [visible]

theorem flush_nil_iff (r : StreamRedactor) (visible : r.placeholder ≠ []) :
    (r.flush u).1 = [] ↔ r.closed = true ∨ r.buffer = [] := by
  cases opened : r.closed with
  | true => simp [StreamRedactor.flush,opened]
  | false =>
    rw [flush_window u r opened,or_iff_right Bool.false_ne_true]
    constructor
    · intro nothing
      by_contra holds
      have long := List.length_pos_of_ne_nil holds
      exact splice_nonempty _ long le_rfl visible nothing
    · intro empty
      rw [empty,(windowScanner u r.leftContext []).hits_top (Nat.le_refl 0)]
      rfl

theorem redactComplete_nil (placeholder : Str) : redactComplete u [] placeholder = [] := by
  rw [redactComplete_eq,(scanner u []).hits_top (Nat.le_refl 0)]
  rfl

theorem feedAll_empty {r : StreamRedactor} (opened : r.closed = false) (chunks : List Str)
    (empty : ∀ chunk ∈ chunks, chunk = []) : r.feedAll u chunks = .ok ([],r) := by
  induction chunks with
  | nil => rfl
  | cons chunk rest ih =>
    have nothing := empty chunk List.mem_cons_self
    have later := ih fun chunk member => empty chunk (List.mem_cons_of_mem _ member)
    simp [StreamRedactor.feedAll,StreamRedactor.feed,opened,nothing,later,bind,Except.bind,pure,
      Except.pure]

theorem under_all (written : List (Option Int × Str)) :
    under (fun _ => true) written = [] ↔ ∀ x ∈ written, x.2 = [] := by
  rw [under,List.filter_true,List.flatten_eq_nil_iff,List.forall_mem_map]

/-- Behind the last content nothing is written but what the redactor still holds. -/
theorem rest_text (lines : List Line) (state : SseState)
    (synced : state.redactor.closed = state.flushed) (parses : ∀ error, .raises error ∉ lines)
    (empty : ∀ x ∈ upstream lines, x.2 = []) :
    under (fun _ => true) (delivered ((sseLines u lines state).1 ++
      (sseEnd u (sseLines u lines state).2.1).1)) = (state.redactor.flush u).1 := by
  obtain ⟨out,next,run,renders⟩ := sseLines_spec u lines state synced parses
  obtain ⟨written,performed,same⟩ := renders.performed
  rw [run]
  dsimp only
  rw [same]
  have whole (later : List (Option Int × Str)) (none : ∀ x ∈ later, x.2 = []) :
      under (fun _ => true) (later.map fun x => (x.1,redactComplete u x.2 DEFAULT_PLACEHOLDER)) = [] := by
    rw [under_all,List.forall_mem_map]
    intro x member
    rw [none x member,redactComplete_nil]
  cases closed : state.flushed with
  | true =>
    rw [closed,schedule_closed,performAll_whole] at performed
    obtain ⟨rfl,_⟩ := Prod.mk.inj (Except.ok.inj performed)
    rw [whole _ empty]
    simp [StreamRedactor.flush,synced,closed]
  | false =>
    obtain ⟨fed,owner,later,all,planned⟩ := schedule_shape lines state.lastFrame
    rw [closed,planned] at performed
    obtain ⟨feeds,redactor,fedRun,rfl⟩ := performAll_plan u performed
    have fedNone := feedAll_empty u (synced.trans closed) (fed.map Prod.snd) (by
      intro chunk member
      obtain ⟨x,inside,rfl⟩ := List.mem_map.mp member
      exact empty x (by rw [all]; exact List.mem_append_left _ inside))
    rw [performAll_feed u fedRun,Except.ok.injEq,Prod.mk.injEq] at fedNone
    obtain ⟨nothing,rfl⟩ := fedNone
    rw [under_append,nothing,under_cons,whole later]
    · simp
    · intro x member
      exact empty x (by rw [all]; exact List.mem_append_right _ member)

/-- No text comes behind the first frame with a finish reason. -/
def textEnds : List Line → Bool
  | [] => true
  | .frame frame::rest =>
    if finishes frame then (upstream rest).all fun x => x.2.isEmpty else textEnds rest
  | _::rest => textEnds rest

/-- The terminal frame brings a content, or nothing is held back when it arrives. -/
def Tailless (x : Dict × SseState) : Prop :=
  textsOf (choicesOf x.1) ≠ [] ∨ x.2.flushed = true ∨ x.2.redactor.buffer = []

theorem Reached.placed {past : List Str} {state : SseState} (reached : Reached u past state)
    (opened : state.flushed = false) : state.redactor.placeholder = DEFAULT_PLACEHOLDER := by
  obtain ⟨out,fed⟩ := reached opened
  obtain ⟨_,r,_,run,_,_,placed⟩ :=
    (InStep.init u past.flatten DEFAULT_PLACEHOLDER).feedAll u past (by simp [StreamRedactor.init])
  obtain ⟨_,rfl⟩ := Prod.mk.inj (Except.ok.inj (fed.symm.trans run))
  exact placed

theorem closes_any (choices : List Dict) :
    choices.any (closes true) = !(textsOf choices).isEmpty := by
  induction choices with
  | nil => rfl
  | cons choice rest ih =>
    rw [List.any_cons,ih,textsOf_cons]
    cases found : contentOf choice <;> simp [closes,found]

theorem frameTasks_silent (finishing closed : Bool) {choices : List Dict}
    (silent : textsOf choices = []) : frameTasks finishing closed choices = [] := by
  have none : contents choices = [] := List.map_eq_nil_iff.mp silent
  cases closed with
  | true => rw [frameTasks_closed,none,List.map_nil]
  | false =>
    obtain ⟨_,tasks⟩ | ⟨_,first,rest,shape,_⟩ := frameTasks_open finishing choices
    · rw [tasks,none,List.map_nil]
    · rw [none] at shape
      cases shape

/-- Behind a terminal frame nothing is held exactly if it was no reason for a tail. -/
theorem tailless_iff {frame : Dict} {past : List Str} {state next : SseState} {out : List Emission}
    (ends : finishes frame = true) (synced : state.redactor.closed = state.flushed)
    (reached : Reached u past state) (step : redactFrame u frame state = .ok (out,next)) :
    (next.redactor.flush u).1 = [] ↔ Tailless (frame,state) := by
  obtain ⟨out',next',step',renders,flushed,_⟩ := redactFrame_spec u frame state synced
  obtain ⟨rfl,rfl⟩ := Prod.mk.inj (Except.ok.inj (step.symm.trans step'))
  have finishing : (finishReasonOf frame).isSome = true := ends
  rw [finishing] at flushed renders
  cases closed : next.flushed with
  | true =>
    apply iff_of_true (by simp [StreamRedactor.flush,renders.synced,closed])
    rw [closed] at flushed
    obtain before | closing := Bool.or_eq_true_iff.mp flushed.symm
    · exact Or.inr (Or.inl before)
    · left
      intro silent
      rw [closes_any,silent] at closing
      cases closing
  | false =>
    obtain ⟨opened,quiet⟩ := Bool.or_eq_false_iff.mp (flushed.symm.trans closed)
    have silent : textsOf (choicesOf frame) = [] := by
      rw [closes_any] at quiet
      simpa using quiet
    rw [frameTasks_silent _ _ silent] at renders
    obtain ⟨_,performed,_⟩ := renders.performed
    obtain ⟨_,same⟩ := Prod.mk.inj (Except.ok.inj performed)
    have visible : state.redactor.placeholder ≠ [] := by
      rw [reached.placed u opened]
      decide
    rw [← same,flush_nil_iff u state.redactor visible,synced]
    simp [Tailless,silent]

theorem sseLine_ok {line : Line} {state : SseState} (synced : state.redactor.closed = state.flushed)
    (parses : ∀ error, line ≠ .raises error) :
    ∃ out next, sseLine u line state = .ok (out,next) ∧ next.redactor.closed = next.flushed := by
  cases line with
  | blank => exact ⟨_,_,rfl,synced⟩
  | field text => exact ⟨_,_,rfl,synced⟩
  | unread payload => exact ⟨_,_,rfl,synced⟩
  | raises error => exact absurd rfl (parses error)
  | done =>
    cases closed : state.flushed with
    | true => exact ⟨_,_,by simp only [sseLine,closed,if_true]; rfl,synced⟩
    | false =>
      exact ⟨_,_,by simp only [sseLine,closed,Bool.false_eq_true,if_false]; rfl,
        flush_closed u state.redactor⟩
  | frame frame =>
    obtain ⟨out,next,step,renders,_⟩ := redactFrame_spec u frame state synced
    exact ⟨out,next,by simp only [sseLine,step,Except.mapError],renders.synced⟩

theorem redactFrame_out {frame : Dict} {state next : SseState} {out : List Emission}
    (step : redactFrame u frame state = .ok (out,next)) :
    ∃ texts, texts.map Prod.fst = choicesOf frame ∧ out = frameOut frame texts := by
  obtain ⟨texts,run,rfl⟩ := redactFrame_ok u step
  exact ⟨texts,safeTexts_choices u run,rfl⟩

theorem tailFrame_endless (frame : Dict) (tail : Str) :
    ∀ frame', .frame frame' ∈ tailFrame frame tail → finishes frame' = false := by
  intro frame' member
  unfold tailFrame at member
  split_ifs at member
  · cases member
  · rw [List.mem_singleton,Emission.frame.injEq] at member
    rw [member]
    exact withContent_endless frame tail

theorem sseLine_endless {line : Line} {state next : SseState} {out : List Emission}
    (step : sseLine u line state = .ok (out,next))
    (endless : ∀ frame, line = .frame frame → finishes frame = false) :
    ∀ frame, .frame frame ∈ out → finishes frame = false := by
  intro frame member
  cases line with
  | blank =>
    cases step
    cases member
  | field text =>
    cases step
    simp at member
  | unread payload =>
    cases step
    simp at member
  | raises error => cases step
  | done =>
    simp only [sseLine] at step
    split_ifs at step
    · cases step
      simp at member
    · cases step
      exact tailFrame_endless _ _ frame (by simpa using member)
  | frame source =>
    obtain ⟨texts,read,rfl⟩ := redactFrame_out u (sseLine_frame u step)
    rw [frameOut_finishes read member]
    exact endless source rfl

/-- From any line on, all text comes before the end marker exactly if the first terminal frame
that the loop meets is tailless. -/
theorem lines_endsLast (lines : List Line) {past : List Str} {state : SseState}
    (synced : state.redactor.closed = state.flushed) (reached : Reached u past state)
    (parses : ∀ error, .raises error ∉ lines) (ends : textEnds lines = true) :
    EndsLast ((sseLines u lines state).1 ++ (sseEnd u (sseLines u lines state).2.1).1) ↔
      ∀ x, (met u lines state).find? (fun x => finishes x.1) = some x → Tailless x := by
  induction lines generalizing past state with
  | nil =>
    refine iff_of_true ?_ (by simp [met])
    have endless : ∀ frame, .frame frame ∈ (sseEnd u state).1 → finishes frame = false := by
      intro frame member
      unfold sseEnd at member
      split_ifs at member
      · cases member
      · exact tailFrame_endless _ _ frame member
    have last := (endsLast_behind endless []).mpr (by intro before _ _ split; simp at split)
    simpa [sseLines] using last
  | cons line rest ih =>
    have later : ∀ error, .raises error ∉ rest :=
      fun error member => parses error (List.mem_cons_of_mem _ member)
    obtain ⟨out,next,step,synced'⟩ := sseLine_ok u synced fun error same =>
      parses error (same ▸ List.mem_cons_self)
    have reached' := (sseLine_clean u reached step).2
    have run : (sseLines u (line::rest) state).1 ++ (sseEnd u (sseLines u (line::rest) state).2.1).1 =
        out ++ ((sseLines u rest next).1 ++ (sseEnd u (sseLines u rest next).2.1).1) := by
      simp only [sseLines,step,List.append_assoc]
    -- a line that is no terminal frame is passed over on both sides
    have pass (endless : ∀ frame, line = .frame frame → finishes frame = false)
        (ends' : textEnds rest = true)
        (skips : (met u (line::rest) state).find? (fun x => finishes x.1) =
          (met u rest next).find? fun x => finishes x.1) :
        EndsLast ((sseLines u (line::rest) state).1 ++
            (sseEnd u (sseLines u (line::rest) state).2.1).1) ↔
          ∀ x, (met u (line::rest) state).find? (fun x => finishes x.1) = some x → Tailless x := by
      rw [run,skips,endsLast_behind (sseLine_endless u step endless)]
      exact ih synced' reached' later ends'
    cases line with
    | frame frame =>
      simp only [textEnds] at ends
      cases terminal : finishes frame with
      | false =>
        rw [terminal,if_neg Bool.false_ne_true] at ends
        refine pass (fun frame' same => ?_) ends (by simp [met,step,terminal])
        cases same
        exact terminal
      | true =>
        rw [terminal,if_pos rfl,List.all_eq_true] at ends
        have frameStep : redactFrame u frame state = .ok (out,next) := sseLine_frame u step
        obtain ⟨texts,read,rfl⟩ := redactFrame_out u frameStep
        obtain ⟨frame',single⟩ := frameOut_single texts terminal
        have marked : finishes frame' = true := by
          rw [frameOut_finishes read (by rw [single]; exact List.mem_cons_self),terminal]
        have text := rest_text u rest next synced' later fun x member => by simpa using ends x member
        have first : (met u (.frame frame::rest) state).find? (fun x => finishes x.1) =
            some (frame,state) := by
          simp only [met,step]
          exact List.find?_cons_of_pos terminal
        rw [run,single,List.singleton_append,endsLast_end marked,first]
        simp only [Option.some.injEq,forall_eq']
        rw [← tailless_iff u terminal synced reached frameStep,← text,under_all]
    | blank => exact pass (by simp) ends (by simp only [met,step])
    | field text => exact pass (by simp) ends (by simp only [met,step])
    | unread payload => exact pass (by simp) ends (by simp only [met,step])
    | raises error => exact pass (by simp) ends (by simp only [met,step])
    | done => exact pass (by simp) ends (by simp only [met,step])

/-- Where no text arrives behind the first terminal frame, all of it is written before the end
marker exactly if that frame brings a content or finds nothing held back. -/
theorem text_before_end (loads : Loads) (lines : List Str)
    (parses : ∀ line ∈ lines, ∀ error, readLine u loads line ≠ .raises error)
    (ends : textEnds (lines.map (readLine u loads)) = true) :
    EndsLast (redactSseStream u loads lines (.init MAX_HOLDBACK DEFAULT_PLACEHOLDER)).1 ↔
      ∀ x, (met u (lines.map (readLine u loads)) (.init opening)).find? (fun x => finishes x.1) =
        some x → Tailless x := by
  have reached : Reached u [] (.init opening) := fun _ => ⟨[],rfl⟩
  obtain ⟨out,next,run,whole,_⟩ := redactSseStream_spec u loads lines opening rfl parses
  change EndsLast (redactSseStream u loads lines opening).1 ↔ _
  rw [← lines_endsLast u (lines.map (readLine u loads)) rfl reached (never_raises u parses) ends,
    whole,run]

def endLines (content : String) : List Str :=
  [chatPayload (lit "0") (lit content),finishPayload (lit "0"),lit "[DONE]"].map (lit "data: " ++ ·)

def endLoads (content : String) : Loads := tableLoads
  [(chatPayload (lit "0") (lit content),chatFrame 0 (lit content)),(finishPayload (lit "0"),finishFrame 0)]

/-- A content of which nothing is held back, with an empty terminal frame behind it. -/
theorem text_before_end_blank : EndsLast (redactSseStream asciiUnicode (endLoads "Hi, ")
    (endLines "Hi, ") (.init MAX_HOLDBACK DEFAULT_PLACEHOLDER)).1 := by
  refine (text_before_end asciiUnicode (endLoads "Hi, ") (endLines "Hi, ")
    (fun line _ => readLine_parses asciiUnicode (tableLoads_parses _) line) (by decide +kernel)).mpr ?_
  intro x first
  have empty : ((met asciiUnicode ((endLines "Hi, ").map (readLine asciiUnicode (endLoads "Hi, ")))
      (.init opening)).find? fun x => finishes x.1).all
        (fun x => decide (x.2.redactor.buffer = [])) = true := by decide +kernel
  rw [first] at empty
  exact Or.inr (Or.inr (by simpa using empty))

/-- A word is held back when the empty terminal frame comes: it is written behind it. -/
theorem tail_behind_end : ¬ EndsLast (redactSseStream asciiUnicode (endLoads "Hello")
    (endLines "Hello") (.init MAX_HOLDBACK DEFAULT_PLACEHOLDER)).1 := by
  intro last
  have split : (redactSseStream asciiUnicode (endLoads "Hello") (endLines "Hello")
      (.init MAX_HOLDBACK DEFAULT_PLACEHOLDER)).1 =
        [] ++ .frame (finishFrame 0) :: [.frame (withContent (finishFrame 0) (lit "Hello")),.done] := by
    rfl
  have tail := last _ _ _ split (by decide +kernel) (some 0,lit "Hello") (by decide +kernel)
  cases tail

end GatewaySuite.Guardrail
