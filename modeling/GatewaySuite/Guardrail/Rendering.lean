import GatewaySuite.Guardrail.Schedule

/-! The proxy performs its schedule: choice by choice, frame by frame, line by line. -/
namespace GatewaySuite.Guardrail
open Python
variable (u : Unicode)

private theorem index_delta : lit "index" ≠ lit "delta" := by decide
private theorem delta_finish : lit "delta" ≠ lit "finish_reason" := by decide
private theorem index_finish : lit "index" ≠ lit "finish_reason" := by decide

theorem choicesOf_set (frame : Dict) (choices : List Dict) :
    choicesOf (frame.set "choices" (.arr (choices.map .obj))) = choices := by
  simp only [choicesOf,Dict.get_set,List.filterMap_map]
  induction choices with
  | nil => rfl
  | cons choice rest ih => simp [Json.dict?] at ih ⊢; exact ih

theorem contentOf_set (choice delta : Dict) :
    contentOf (choice.set "delta" (.obj delta)) = (delta.get "content").bind Json.str? := by
  simp [contentOf,deltaOf,Json.dict?]

theorem choiceIndex_set (choice delta : Dict) :
    choiceIndex (choice.set "delta" (.obj delta)) = choiceIndex choice := by
  simp only [choiceIndex,Dict.get_set_ne choice _ index_delta]

theorem contentOf_without (choice delta : Dict) :
    contentOf (choice.set "delta" (.obj (delta.without ["content"]))) = none := by
  simp [contentOf_set,Dict.get_without]

theorem contentOf_dropContent (choice : Dict) (nothing : contentOf choice = none) :
    contentOf (dropContent choice) = none := by
  unfold dropContent
  split
  · split_ifs
    · exact contentOf_without choice _
    · exact nothing
  · exact nothing

/-- A tail frame has one choice: the first of its frame with the tail as its content, and with no
finish reason. -/
theorem withContent_choice (frame : Dict) (text : Str) :
    ∃ choice, choicesOf (withContent frame text) = [choice] ∧
      deltaOf choice = [(lit "content",.str text)] ∧ choice.get "finish_reason" = some .null ∧
      choiceIndex choice =
        choiceIndex (((choicesOf frame).head?.getD []).setdefault "index" (.int 0)) := by
  refine ⟨_,choicesOf_set (frame.without ["choices"]) [_],?_,Dict.get_set _ _ _,?_⟩
  · simp only [deltaOf,Dict.get_set_ne _ _ delta_finish,Dict.get_set,Option.bind_some,Json.dict?,
      Option.getD_some]
    rfl
  · simp [choiceIndex,Dict.get_set_ne _ _ index_finish,Dict.get_set_ne _ _ index_delta,
      Dict.get_setdefault,Dict.get_without,lit]

theorem delivered_tailFrame (last : Option Dict) (tail : Str) :
    delivered (tailFrame (last.getD []) tail) = if tail = [] then [] else [(tailOwner last,tail)] := by
  unfold tailFrame
  split_ifs
  · rfl
  · obtain ⟨choice,one,delta,_,index⟩ := withContent_choice (last.getD []) tail
    have content : contentOf choice = some tail := by
      rw [contentOf,delta]
      rfl
    simp [delivered,one,contents,content,index,tailOwner]

theorem feed_open (r : StreamRedactor) (chunk : Str) (opened : r.closed = false) :
    ∃ safe next, r.feed u chunk = .ok (safe,next) ∧ next.closed = false := by
  by_cases empty : chunk = []
  · exact ⟨[],r,by simp [StreamRedactor.feed,opened,empty],opened⟩
  · refine ⟨_,_,by simp only [StreamRedactor.feed,opened,empty,Bool.false_eq_true,if_false]; rfl,?_⟩
    rfl

theorem flush_closed (r : StreamRedactor) : (r.flush u).2.closed = true := by
  unfold StreamRedactor.flush
  split_ifs with closed
  · exact closed
  · rfl

def contentTasks (finishing closed : Bool) (owner : Option Int) (content : Str) : List Task :=
  if closed then [.whole owner content]
  else if finishing then [.feed owner content,.flush owner]
  else [.feed owner content]

theorem choiceTasks_some {finishing closed : Bool} {choice : Dict} {content : Str}
    (found : contentOf choice = some content) :
    choiceTasks finishing closed choice =
      contentTasks finishing closed (choiceIndex choice) content := by
  simp only [choiceTasks,found,contentTasks]

theorem safeText_spec (finish : Option Json) (content : Str) (owner : Option Int) (state : SseState)
    (synced : state.redactor.closed = state.flushed) :
    ∃ safe next, safeText u finish content state = .ok (safe,next) ∧
      (∃ written,
        performAll u state.redactor (contentTasks finish.isSome state.flushed owner content) =
          .ok (written,next.redactor) ∧ ∀ keep, under keep [(owner,safe)] = under keep written) ∧
      next.calls = state.calls ++
        (contentTasks finish.isSome state.flushed owner content).flatMap Task.calls ∧
      next.redactor.closed = next.flushed ∧ next.flushed = (state.flushed || finish.isSome) ∧
      next.lastFrame = state.lastFrame := by
  cases closed : state.flushed with
  | true =>
    refine ⟨_,state,by simp [safeText,closed],⟨_,rfl,fun keep => rfl⟩,?_,synced,?_,rfl⟩
    · simp [contentTasks,Task.calls]
    · simp [closed]
  | false =>
    obtain ⟨safe,fed,feeds,opened⟩ := feed_open u state.redactor content (synced.trans closed)
    cases finishing : finish.isSome with
    | false =>
      refine ⟨safe,{state with redactor := fed, calls := state.calls ++ [.feed content]},?_,
        ⟨[(owner,safe)],?_,fun keep => rfl⟩,?_,?_,?_,rfl⟩
      · simp [safeText,closed,SseState.feed,feeds,finishing,bind,Except.bind,pure,Except.pure]
      · simp [contentTasks,performAll,perform,feeds,bind,Except.bind,pure,Except.pure]
      · simp [contentTasks,Task.calls]
      · simp [opened,closed]
      · simp [closed]
    | true =>
      refine ⟨safe ++ (fed.flush u).1,{state with
        redactor := (fed.flush u).2, flushed := true, calls := state.calls ++ [.feed content] ++ [.flush]},
        ?_,⟨[(owner,safe),(owner,(fed.flush u).1)],?_,fun keep => ?_⟩,?_,?_,?_,rfl⟩
      · simp [safeText,closed,SseState.feed,SseState.flush,feeds,finishing,bind,Except.bind,pure,
          Except.pure]
      · simp [contentTasks,performAll,perform,feeds,bind,Except.bind,pure,Except.pure]
      · by_cases kept : keep owner <;> simp [kept]
      · simp [contentTasks,Task.calls]
      · exact flush_closed u fed
      · simp

theorem redactChoice_spec (finish : Option Json) (choice : Dict) (loop : ChoiceLoop)
    (synced : loop.state.redactor.closed = loop.state.flushed) :
    ∃ next out, redactChoice u finish loop choice = .ok next ∧
      Renders u loop.state next.state (choiceTasks finish.isSome loop.state.flushed choice) out ∧
      contents next.rebuilt = contents loop.rebuilt ++ out ∧
      (next.emittedAny = false → loop.emittedAny = false ∧ out = []) ∧
      next.state.flushed = (loop.state.flushed || closes finish.isSome choice) ∧
      next.state.lastFrame = loop.state.lastFrame := by
  cases found : contentOf choice with
  | none =>
    refine ⟨{loop with rebuilt := loop.rebuilt ++ [dropContent choice]},[],?_,?_,?_,?_,?_,rfl⟩
    · simp [redactChoice,found]
    · simp only [choiceTasks,found]
      exact .none loop.state synced
    · simp [contents,contentOf_dropContent choice found]
    · exact fun quiet => ⟨quiet,rfl⟩
    · simp [closes,found]
  | some content =>
    obtain ⟨safe,next,safeEq,⟨written,performed,same⟩,calls,after,flushed,last⟩ :=
      safeText_spec u finish content (choiceIndex choice) loop.state synced
    rw [← choiceTasks_some found] at performed calls
    have closing : next.flushed = (loop.state.flushed || closes finish.isSome choice) := by
      simp [flushed,closes,found]
    by_cases empty : safe = []
    · have renders : Renders u loop.state next
          (choiceTasks finish.isSome loop.state.flushed choice) [] := by
        refine ⟨⟨written,performed,fun keep => ?_⟩,calls,after,by simp⟩
        rw [← same keep]
        simp [empty]
      cases finishing : finish.isSome with
      | true =>
        refine ⟨⟨next,loop.emittedAny,loop.rebuilt ++ [choice.set "delta"
          (.obj ((deltaOf choice).without ["content"]))]⟩,[],?_,finishing ▸ renders,?_,
          fun quiet => ⟨quiet,rfl⟩,finishing ▸ closing,last⟩
        · simp [redactChoice,found,safeEq,empty,finishing,bind,Except.bind,pure,Except.pure]
        · simp [contents,contentOf_without]
      | false =>
        refine ⟨⟨next,loop.emittedAny,loop.rebuilt⟩,[],?_,finishing ▸ renders,by simp,
          fun quiet => ⟨quiet,rfl⟩,finishing ▸ closing,last⟩
        simp [redactChoice,found,safeEq,empty,finishing,bind,Except.bind,pure,Except.pure]
    · refine ⟨⟨next,true,loop.rebuilt ++ [choice.set "delta"
        (.obj ((deltaOf choice).set "content" (.str safe)))]⟩,[(choiceIndex choice,safe)],?_,
        ⟨⟨written,performed,same⟩,calls,after,by simpa using empty⟩,?_,by simp,closing,last⟩
      · simp [redactChoice,found,safeEq,empty,bind,Except.bind,pure,Except.pure]
      · simp [contents,contentOf_set,choiceIndex_set,Json.str?]

theorem redactChoices_spec (finish : Option Json) (choices : List Dict) (loop : ChoiceLoop)
    (synced : loop.state.redactor.closed = loop.state.flushed) :
    ∃ next out, choices.foldlM (redactChoice u finish) loop = .ok next ∧
      Renders u loop.state next.state (frameTasks finish.isSome loop.state.flushed choices) out ∧
      contents next.rebuilt = contents loop.rebuilt ++ out ∧
      (next.emittedAny = false → loop.emittedAny = false ∧ out = []) ∧
      next.state.flushed = (loop.state.flushed || choices.any (closes finish.isSome)) ∧
      next.state.lastFrame = loop.state.lastFrame := by
  induction choices generalizing loop with
  | nil =>
    exact ⟨loop,[],rfl,.none loop.state synced,by simp,fun quiet => ⟨quiet,rfl⟩,by simp,rfl⟩
  | cons choice rest ih =>
    obtain ⟨middle,out,step,renders,rebuilt,quiet,flushed,last⟩ :=
      redactChoice_spec u finish choice loop synced
    obtain ⟨next,more,steps,renders',rebuilt',quiet',flushed',last'⟩ := ih middle renders.synced
    rw [flushed] at renders'
    refine ⟨next,out++more,?_,renders.trans renders',?_,?_,?_,last'.trans last⟩
    · simp only [List.foldlM_cons,step,bind,Except.bind]
      exact steps
    · rw [rebuilt',rebuilt,List.append_assoc]
    · intro silent
      obtain ⟨before,rfl⟩ := quiet' silent
      obtain ⟨start,rfl⟩ := quiet before
      exact ⟨start,rfl⟩
    · rw [flushed',flushed,List.any_cons,Bool.or_assoc]

theorem redactFrame_spec (frame : Dict) (state : SseState)
    (synced : state.redactor.closed = state.flushed) :
    ∃ out next, redactFrame u frame state = .ok (out,next) ∧
      Renders u state next
        (frameTasks (finishReasonOf frame).isSome state.flushed (choicesOf frame)) (delivered out) ∧
      next.flushed = (state.flushed || (choicesOf frame).any (closes (finishReasonOf frame).isSome)) ∧
      next.lastFrame = some frame := by
  obtain ⟨loop,out,steps,renders,rebuilt,quiet,flushed,last⟩ :=
    redactChoices_spec u (finishReasonOf frame) (choicesOf frame)
      ⟨{state with lastFrame := some frame},false,[]⟩ synced
  have same : Renders u state loop.state
      (frameTasks (finishReasonOf frame).isSome state.flushed (choicesOf frame)) out :=
    ⟨renders.performed,renders.calls,renders.synced,renders.nonempty⟩
  simp only [redactFrame,steps,bind,Except.bind,pure,Except.pure]
  cases shape : choicesOf frame with
  | nil =>
    have unfinished : finishReasonOf frame = none := by simp [finishReasonOf,shape]
    refine ⟨[.frame frame],loop.state,by simp [unfinished],?_,?_,last⟩
    · have silent : out = [] := by
        simp only [shape,List.foldlM_nil,pure,Except.pure,Except.ok.injEq] at steps
        subst steps
        simpa [contents] using rebuilt.symm
      rw [shape,silent] at same
      simpa [delivered,shape,contents] using same
    · simpa [shape] using flushed
  | cons choice rest =>
    rw [← shape]
    have some : (choicesOf frame).isEmpty = false := by simp [shape]
    simp only [some,Bool.false_eq_true,if_false]
    split_ifs with emits
    · refine ⟨_,loop.state,rfl,?_,flushed,last⟩
      have read : delivered [.frame (frame.set "choices" (.arr (loop.rebuilt.map .obj)))] = out := by
        simp only [delivered,List.flatMap_cons,List.flatMap_nil,List.append_nil,choicesOf_set,rebuilt]
        simp [contents]
      rw [read]
      exact same
    · have silent : out = [] := (quiet (by simp_all)).2
      refine ⟨[],loop.state,rfl,?_,flushed,last⟩
      rw [silent] at same
      exact same

theorem flush_renders (state : SseState) :
    Renders u state (state.flush u).2 [.flush (tailOwner state.lastFrame)]
      (delivered (tailFrame (state.lastFrame.getD []) (state.flush u).1)) := by
  refine ⟨⟨[(tailOwner state.lastFrame,(state.redactor.flush u).1)],rfl,fun keep => ?_⟩,rfl,
    flush_closed u state.redactor,?_⟩
  · rw [delivered_tailFrame]
    by_cases empty : (state.flush u).1 = []
    · rw [if_pos empty]
      change (state.redactor.flush u).1 = [] at empty
      simp [empty]
    · rw [if_neg empty]
      rfl
  · rw [delivered_tailFrame]
    by_cases empty : (state.flush u).1 = [] <;> simp [empty]

theorem sseEnd_renders (state : SseState) (synced : state.redactor.closed = state.flushed) :
    Renders u state (sseEnd u state).2 (schedule [] state.flushed state.lastFrame)
      (delivered (sseEnd u state).1) := by
  cases closed : state.flushed with
  | true => simpa [sseEnd,closed,schedule,delivered] using Renders.none state synced
  | false => simpa [sseEnd,closed,schedule] using flush_renders u state

/-- The proxy performs its schedule, and no exception escapes it, if `json.loads` raises
nothing but `JSONDecodeError`. -/
theorem sseLines_spec (lines : List Line) (state : SseState)
    (synced : state.redactor.closed = state.flushed) (parses : ∀ error, .raises error ∉ lines) :
    ∃ out next, sseLines u lines state = (out,next,none) ∧
      Renders u state (sseEnd u next).2 (schedule lines state.flushed state.lastFrame)
        (delivered (out ++ (sseEnd u next).1)) := by
  induction lines generalizing state with
  | nil => exact ⟨[],state,rfl,sseEnd_renders u state synced⟩
  | cons line rest ih =>
    have later : ∀ error, .raises error ∉ rest :=
      fun error member => parses error (List.mem_cons_of_mem _ member)
    -- a line that leaves the state alone and writes no frame
    have pass (out : List Emission) (step : sseLine u line state = .ok (out,state))
        (silent : delivered out = [])
        (same : schedule (line::rest) state.flushed state.lastFrame =
          schedule rest state.flushed state.lastFrame) :
        ∃ out next, sseLines u (line::rest) state = (out,next,none) ∧
          Renders u state (sseEnd u next).2 (schedule (line::rest) state.flushed state.lastFrame)
            (delivered (out ++ (sseEnd u next).1)) := by
      obtain ⟨more,next,run,renders⟩ := ih state synced later
      refine ⟨out++more,next,by simp only [sseLines,step,run],?_⟩
      rw [same,List.append_assoc,delivered_append,silent,List.nil_append]
      exact renders
    cases line with
    | blank => exact pass [] rfl rfl rfl
    | field text => exact pass [.line text] rfl rfl rfl
    | unread payload => exact pass [.payload payload] rfl rfl rfl
    | raises error => exact absurd (List.mem_cons_self ..) (parses error)
    | done =>
      cases closed : state.flushed with
      | true =>
        rw [← closed]
        exact pass [.done] (by simp [sseLine,closed]) rfl (by simp [schedule,closed])
      | false =>
        have step := flush_renders u state
        obtain ⟨more,next,run,renders⟩ := ih (state.flush u).2 step.synced later
        refine ⟨tailFrame (state.lastFrame.getD []) (state.flush u).1 ++ [.done] ++ more,next,?_,?_⟩
        · simp only [sseLines,sseLine,closed,Bool.false_eq_true,if_false,run]
        · have all : Renders u state (sseEnd u next).2
              ([.flush (tailOwner state.lastFrame)] ++ schedule rest true state.lastFrame) _ :=
            step.trans renders
          simpa [schedule,delivered] using all
    | frame frame =>
      obtain ⟨out,middle,step,renders,flushed,last⟩ := redactFrame_spec u frame state synced
      obtain ⟨more,next,run,renders'⟩ := ih middle renders.synced later
      refine ⟨out++more,next,by simp only [sseLines,sseLine,step,Except.mapError,run],?_⟩
      rw [flushed,last] at renders'
      rw [List.append_assoc,delivered_append]
      exact renders.trans renders'

theorem never_raises {loads : Loads} {lines : List Str}
    (parses : ∀ line ∈ lines, ∀ error, readLine u loads line ≠ .raises error) :
    ∀ error, .raises error ∉ lines.map (readLine u loads) := by
  intro error member
  obtain ⟨line,inside,same⟩ := List.mem_map.mp member
  exact parses line inside error same

theorem redactSseStream_spec (loads : Loads) (lines : List Str) (redactor : StreamRedactor)
    (opened : redactor.closed = false)
    (parses : ∀ line ∈ lines, ∀ error, readLine u loads line ≠ .raises error) :
    ∃ out next, sseLines u (lines.map (readLine u loads)) (.init redactor) = (out,next,none) ∧
      redactSseStream u loads lines redactor = (out ++ (sseEnd u next).1,(sseEnd u next).2,none) ∧
      Renders u (.init redactor) (sseEnd u next).2
        (schedule (lines.map (readLine u loads)) false none)
        (delivered (out ++ (sseEnd u next).1)) := by
  obtain ⟨out,next,run,renders⟩ := sseLines_spec u (lines.map (readLine u loads)) (.init redactor)
    opened (never_raises u parses)
  exact ⟨out,next,run,by simp only [redactSseStream,run],renders⟩

end GatewaySuite.Guardrail
