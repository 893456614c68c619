import GatewaySuite.Guardrail.Rendering
import GatewaySuite.Guardrail.Streaming

/-! Whatever lines arrive, the schedule feeds the first contents, flushes once, and redacts
the later contents one by one. -/
namespace GatewaySuite.Guardrail
open Python
variable (u : Unicode)

/-- The string contents of the dictionary frames, in order. -/
def upstream (lines : List Line) : List (Option Int × Str) :=
  lines.flatMap fun line =>
    match line with
    | .frame frame => contents (choicesOf frame)
    | _ => []

def feedTask (x : Option Int × Str) : Task := .feed x.1 x.2
def wholeTask (x : Option Int × Str) : Task := .whole x.1 x.2

theorem contents_cons (choice : Dict) (rest : List Dict) :
    contents (choice::rest) =
      ((contentOf choice).map fun text => (choiceIndex choice,text)).toList ++ contents rest := by
  cases found : contentOf choice <;> simp [contents,found]

theorem frameTasks_closed (finishing : Bool) (choices : List Dict) :
    frameTasks finishing true choices = (contents choices).map wholeTask := by
  induction choices with
  | nil => rfl
  | cons choice rest ih =>
    rw [frameTasks,Bool.true_or,ih,contents_cons,List.map_append]
    cases found : contentOf choice <;> simp [choiceTasks,found,wholeTask]

theorem frameTasks_open (finishing : Bool) (choices : List Dict) :
    (choices.any (closes finishing) = false ∧
        frameTasks finishing false choices = (contents choices).map feedTask) ∨
      (choices.any (closes finishing) = true ∧ ∃ first rest, contents choices = first::rest ∧
        frameTasks finishing false choices =
          feedTask first :: .flush first.1 :: rest.map wholeTask) := by
  induction choices with
  | nil => exact Or.inl ⟨rfl,rfl⟩
  | cons choice rest ih =>
    rw [frameTasks,contents_cons,List.any_cons]
    cases found : contentOf choice with
    | none => simpa [choiceTasks,found,closes] using ih
    | some content =>
      cases finishing with
      | false =>
        have quiet : rest.any (closes false) = false := by simp [closes]
        have feeds := (ih.resolve_right (by simp [quiet])).2
        left
        simp [choiceTasks,found,closes,feedTask,feeds]
      | true =>
        right
        refine ⟨by simp [closes,found],(choiceIndex choice,content),contents rest,rfl,?_⟩
        simp [choiceTasks,found,closes,feedTask,frameTasks_closed]

theorem upstream_cons (line : Line) (rest : List Line) :
    upstream (line::rest) = upstream [line] ++ upstream rest := by
  simp [upstream]

theorem schedule_closed (lines : List Line) (last : Option Dict) :
    schedule lines true last = (upstream lines).map wholeTask := by
  induction lines generalizing last with
  | nil => rfl
  | cons line rest ih =>
    rw [upstream_cons,List.map_append]
    cases line with
    | frame frame =>
      rw [schedule,Bool.true_or,ih,frameTasks_closed]
      simp [upstream]
    | done => simpa [schedule,upstream] using ih last
    | blank => simpa [schedule,upstream] using ih last
    | field text => simpa [schedule,upstream] using ih last
    | unread payload => simpa [schedule,upstream] using ih last
    | raises error => simpa [schedule,upstream] using ih last

/-- The redactor is fed the first contents, flushed once, and not fed again. -/
theorem schedule_shape (lines : List Line) (last : Option Dict) :
    ∃ fed owner later, upstream lines = fed ++ later ∧
      schedule lines false last = fed.map feedTask ++ .flush owner :: later.map wholeTask := by
  induction lines generalizing last with
  | nil => exact ⟨[],tailOwner last,[],rfl,rfl⟩
  | cons line rest ih =>
    rw [upstream_cons]
    cases line with
    | blank => simpa [schedule,upstream] using ih last
    | field text => simpa [schedule,upstream] using ih last
    | unread payload => simpa [schedule,upstream] using ih last
    | raises error => simpa [schedule,upstream] using ih last
    | done => exact ⟨[],tailOwner last,upstream rest,rfl,by simp [schedule,schedule_closed]⟩
    | frame frame =>
      have read : upstream [.frame frame] = contents (choicesOf frame) := by simp [upstream]
      rw [read,schedule,Bool.false_or]
      rcases frameTasks_open (finishReasonOf frame).isSome (choicesOf frame) with
        ⟨open',tasks⟩ | ⟨closed,first,others,shape,tasks⟩
      · obtain ⟨fed,owner,later,all,planned⟩ := ih (some frame)
        refine ⟨contents (choicesOf frame)++fed,owner,later,by rw [all,List.append_assoc],?_⟩
        rw [open',tasks,planned,List.map_append,List.append_assoc]
      · refine ⟨[first],first.1,others ++ upstream rest,by rw [shape]; rfl,?_⟩
        rw [closed,tasks,schedule_closed,List.map_append]
        rfl

theorem performAll_split {redactor last : StreamRedactor} {first second : List Task}
    {out : List (Option Int × Str)} (all : performAll u redactor (first++second) = .ok (out,last)) :
    ∃ written next more, performAll u redactor first = .ok (written,next) ∧
      performAll u next second = .ok (more,last) ∧ out = written++more := by
  induction first generalizing redactor out with
  | nil => exact ⟨[],redactor,out,rfl,all,rfl⟩
  | cons task rest ih =>
    simp only [performAll,List.cons_append,bind,Except.bind] at all ⊢
    cases head : perform u redactor task with
    | error e => simp [head] at all
    | ok pair =>
      simp only [head] at all ⊢
      cases tail : performAll u pair.2 (rest++second) with
      | error e => simp [tail] at all
      | ok rest' =>
        simp only [tail,pure,Except.pure,Except.ok.injEq,Prod.mk.injEq] at all
        obtain ⟨rfl,rfl⟩ := all
        obtain ⟨written,next,more,left,right,same⟩ := ih tail
        exact ⟨pair.1::written,next,more,by simp only [left]; rfl,right,by simp [same]⟩

theorem performAll_feed {redactor last : StreamRedactor} {fed out : List (Option Int × Str)}
    (all : performAll u redactor (fed.map feedTask) = .ok (out,last)) :
    redactor.feedAll u (fed.map Prod.snd) = .ok (under (fun _ => true) out,last) := by
  induction fed generalizing redactor out with
  | nil =>
    simp only [List.map_nil,performAll,Except.ok.injEq,Prod.mk.injEq] at all
    obtain ⟨rfl,rfl⟩ := all
    rfl
  | cons x rest ih =>
    simp only [List.map_cons,performAll,bind,Except.bind] at all
    cases head : redactor.feed u x.2 with
    | error e =>
      have failed : perform u redactor (feedTask x) = .error e := by
        simp [feedTask,perform,head,bind,Except.bind]
      simp [failed] at all
    | ok pair =>
      have step : perform u redactor (feedTask x) = .ok ((x.1,pair.1),pair.2) := by
        simp [feedTask,perform,head,bind,Except.bind,pure,Except.pure]
      simp only [step] at all
      cases tail : performAll u pair.2 (rest.map feedTask) with
      | error e => simp [tail] at all
      | ok done =>
        obtain ⟨more,final⟩ := done
        simp only [tail,pure,Except.pure,Except.ok.injEq,Prod.mk.injEq] at all
        obtain ⟨rfl,rfl⟩ := all
        simp only [List.map_cons,StreamRedactor.feedAll,head,ih tail,bind,Except.bind,pure,
          Except.pure,under_cons,if_true]

theorem calls_feed (fed : List (Option Int × Str)) :
    (fed.map feedTask).flatMap Task.calls = (fed.map Prod.snd).map .feed := by
  induction fed with
  | nil => rfl
  | cons x rest ih => simp only [List.map_cons,List.flatMap_cons,ih]; rfl

theorem calls_whole (later : List (Option Int × Str)) :
    (later.map wholeTask).flatMap Task.calls = [] := by
  induction later with
  | nil => rfl
  | cons x rest ih => simp only [List.map_cons,List.flatMap_cons,ih]; rfl

theorem performAll_whole (redactor : StreamRedactor) (later : List (Option Int × Str)) :
    performAll u redactor (later.map wholeTask) =
      .ok (later.map fun x => (x.1,redactComplete u x.2 DEFAULT_PLACEHOLDER),redactor) := by
  induction later with
  | nil => rfl
  | cons x rest ih =>
    simp only [List.map_cons,performAll,wholeTask,perform,bind,Except.bind] at ih ⊢
    simp only [ih,pure,Except.pure]

/-- What the whole plan writes: what the feeds return, the flush, and each later content. -/
theorem performAll_plan {redactor last : StreamRedactor} {fed later out : List (Option Int × Str)}
    {owner : Option Int} (all : performAll u redactor
      (fed.map feedTask ++ .flush owner :: later.map wholeTask) = .ok (out,last)) :
    ∃ feeds held, performAll u redactor (fed.map feedTask) = .ok (feeds,held) ∧
      out = feeds ++ (owner,(held.flush u).1) ::
        later.map fun x => (x.1,redactComplete u x.2 DEFAULT_PLACEHOLDER) := by
  obtain ⟨feeds,held,rest,fedRun,restRun,rfl⟩ := performAll_split u all
  simp only [performAll,perform,bind,Except.bind,performAll_whole,pure,Except.pure,Except.ok.injEq,
    Prod.mk.injEq] at restRun
  exact ⟨feeds,held,fedRun,by rw [restRun.1]⟩

/-- Nothing is lost, duplicated or fed after the flush: what the client reads is the
redaction of the contents fed, and of each later content on its own. -/
theorem sse_delivers (loads : Loads) (lines : List Str)
    (parses : ∀ line ∈ lines, ∀ error, readLine u loads line ≠ .raises error) :
    ∃ k out last, redactSseStream u loads lines (.init MAX_HOLDBACK DEFAULT_PLACEHOLDER) =
        (out,last,none) ∧
      let texts := (upstream (lines.map (readLine u loads))).map Prod.snd
      ((delivered out).map Prod.snd).flatten =
        redactComplete u (texts.take k).flatten DEFAULT_PLACEHOLDER ++
          ((texts.drop k).map fun text => redactComplete u text DEFAULT_PLACEHOLDER).flatten ∧
      last.calls = (texts.take k).map .feed ++ [.flush] ∧
      ∀ text ∈ (delivered out).map Prod.snd, text ≠ [] := by
  obtain ⟨out,next,_,whole,renders⟩ :=
    redactSseStream_spec u loads lines (.init MAX_HOLDBACK DEFAULT_PLACEHOLDER) rfl parses
  obtain ⟨fed,owner,later,all,planned⟩ := schedule_shape (lines.map (readLine u loads)) none
  rw [planned] at renders
  obtain ⟨written,performed,same⟩ := renders.performed
  obtain ⟨feeds,redactor,fedRun,rfl⟩ := performAll_plan u performed
  have front : ((upstream (lines.map (readLine u loads))).map Prod.snd).take fed.length =
      fed.map Prod.snd := by
    rw [all,List.map_append]
    exact List.take_left' (by simp)
  have back : ((upstream (lines.map (readLine u loads))).map Prod.snd).drop fed.length =
      later.map Prod.snd := by
    rw [all,List.map_append]
    exact List.drop_left' (by simp)
  refine ⟨fed.length,out ++ (sseEnd u next).1,(sseEnd u next).2,whole,?_,?_,?_⟩
  · have everything := same (fun _ => true)
    simp only [under_append,under_cons,if_true] at everything
    rw [← List.append_assoc,feedAll_flush u (performAll_feed u fedRun)] at everything
    simpa [front,back,under,Function.comp_def] using everything
  · rw [renders.calls,front,List.flatMap_append,List.flatMap_cons,calls_feed,calls_whole]
    rfl
  · intro text member
    obtain ⟨x,inside,rfl⟩ := List.mem_map.mp member
    exact renders.nonempty x inside

theorem readLine_parses {loads : Loads}
    (parses : ∀ payload error, loads payload = .error error → error = .JSONDecodeError)
    (line : Str) (error : LoadsError) : readLine u loads line ≠ .raises error := by
  unfold readLine
  dsimp only
  split_ifs
  · simp
  · simp
  · simp
  · split
    · simp
    · rename_i different raised
      exact absurd (parses _ _ raised) (by simpa using different)
    · simp
    · simp

def chatFrame (index : Int) (content : Str) : Dict :=
  [(lit "choices",.arr [.obj [(lit "index",.int index),
    (lit "delta",.obj [(lit "content",.str content)])]])]

def chatPayload (index content : Str) : Str :=
  lit "\x7b\"choices\": [\x7b\"index\": " ++ index ++
    lit ", \"delta\": \x7b\"content\": \"" ++ content ++ lit "\"\x7d\x7d]\x7d"

def tableLoads (table : List (Str × Dict)) : Loads := fun payload =>
  match table.lookup payload with
  | some frame => .ok (.obj frame)
  | none => .error .JSONDecodeError

theorem tableLoads_parses (table : List (Str × Dict)) (payload : Str) (error : LoadsError)
    (raised : tableLoads table payload = .error error) : error = .JSONDecodeError := by
  unfold tableLoads at raised
  split at raised
  · cases raised
  · cases raised
    rfl

/-- A content before the end marker and one behind it: one feed, and the rest by itself. -/
theorem sse_delivers_after_done :
    let loads := tableLoads [(chatPayload (lit "0") (lit "a@b.co, "),chatFrame 0 (lit "a@b.co, "))]
    let lines := [lit ": ok",lit "data: " ++ chatPayload (lit "0") (lit "a@b.co, "),lit "data: [DONE]",
      lit "data: " ++ chatPayload (lit "0") (lit "a@b.co, ")]
    ∃ out last, redactSseStream asciiUnicode loads lines (.init MAX_HOLDBACK DEFAULT_PLACEHOLDER) =
        (out,last,none) ∧
      ((delivered out).map Prod.snd).flatten = lit "[REDACTED], [REDACTED], " ∧
      last.calls = [.feed (lit "a@b.co, "),.flush] := by
  intro loads lines
  obtain ⟨k,out,last,run,text,calls,_⟩ := sse_delivers asciiUnicode loads lines
    (fun line _ => readLine_parses asciiUnicode (tableLoads_parses _) line)
  have fed : last.calls.length = 2 := by
    have same := congrArg (fun result => result.2.1.calls.length) run
    exact same.symm.trans (by decide +kernel)
  have both : ((upstream (lines.map (readLine asciiUnicode loads))).map Prod.snd).length = 2 := by
    decide +kernel
  obtain rfl : k = 1 := by
    rw [calls,List.length_append,List.length_map,List.length_take,both,List.length_singleton] at fed
    omega
  exact ⟨out,last,run,text.trans (by decide +kernel),calls.trans (by decide +kernel)⟩

end GatewaySuite.Guardrail
