import GatewaySuite.Guardrail.Sse

/-! A frame, choice by choice. What the redactor releases of each content decides which choices
are rebuilt and whether the frame is written at all. -/
namespace GatewaySuite.Guardrail
open Python
variable (u : Unicode)

/-- The choices, each with what the redactor releases of its content, if it has one. -/
def safeTexts (finish : Option Json) :
    List Dict → SseState → Except RuntimeError (List (Dict × Option Str) × SseState)
  | [],state => .ok ([],state)
  | choice::rest,state =>
    match contentOf choice with
    | none => do
      let (texts,last) ← safeTexts finish rest state
      return ((choice,none)::texts,last)
    | some content => do
      let (safe,next) ← safeText u finish content state
      let (texts,last) ← safeTexts finish rest next
      return ((choice,some safe)::texts,last)

def releases (x : Dict × Option Str) : Bool := x.2.any (· ≠ [])

/-- The choice as it is written, unless it is left out. -/
def rebuild (finishing : Bool) (x : Dict × Option Str) : Option Dict :=
  match x.2 with
  | none => some (dropContent x.1)
  | some safe =>
    if safe ≠ [] then some (x.1.set "delta" (.obj ((deltaOf x.1).set "content" (.str safe))))
    else if finishing then some (x.1.set "delta" (.obj ((deltaOf x.1).without ["content"])))
    else none

def ChoiceLoop.add (loop : ChoiceLoop) (finishing : Bool) (x : Dict × Option Str) (state : SseState) :
    ChoiceLoop :=
  ⟨state,loop.emittedAny || releases x,loop.rebuilt ++ (rebuild finishing x).toList⟩

theorem redactChoice_eq (finish : Option Json) (choice : Dict) (loop : ChoiceLoop) :
    redactChoice u finish loop choice =
      match contentOf choice with
      | none => .ok (loop.add finish.isSome (choice,none) loop.state)
      | some content => (safeText u finish content loop.state).map fun (safe,next) =>
          loop.add finish.isSome (choice,some safe) next := by
  unfold redactChoice
  cases found : contentOf choice with
  | none => simp [ChoiceLoop.add,releases,rebuild]
  | some content =>
    simp only [bind,Except.bind]
    cases safeText u finish content loop.state with
    | error raised => rfl
    | ok pair =>
      obtain ⟨safe,next⟩ := pair
      by_cases empty : safe = []
      · cases finishing : finish.isSome <;>
          simp [empty,ChoiceLoop.add,releases,rebuild,Except.map,pure,Except.pure]
      · simp [empty,ChoiceLoop.add,releases,rebuild,Except.map,pure,Except.pure]

theorem redactChoices_eq (finish : Option Json) (choices : List Dict) (loop : ChoiceLoop) :
    choices.foldlM (redactChoice u finish) loop =
      (safeTexts u finish choices loop.state).map fun (texts,last) =>
        ⟨last,loop.emittedAny || texts.any releases,
          loop.rebuilt ++ texts.filterMap (rebuild finish.isSome)⟩ := by
  have added (x : Dict × Option Str) (texts : List (Dict × Option Str)) :
      (rebuild finish.isSome x).toList ++ texts.filterMap (rebuild finish.isSome) =
        (x::texts).filterMap (rebuild finish.isSome) := by
    cases kept : rebuild finish.isSome x <;> simp [kept]
  induction choices generalizing loop with
  | nil => simp [safeTexts,pure,Except.pure,Except.map]
  | cons choice rest ih =>
    rw [List.foldlM_cons,safeTexts,redactChoice_eq]
    cases contentOf choice with
    | none =>
      simp only [bind,Except.bind,ih]
      change (safeTexts u finish rest loop.state).map _ = _
      cases safeTexts u finish rest loop.state with
      | error raised => rfl
      | ok pair =>
        simp only [Except.map,pure,Except.pure,ChoiceLoop.add,List.any_cons,Bool.or_assoc,
          List.append_assoc,added]
    | some content =>
      simp only [bind,Except.bind]
      cases safeText u finish content loop.state with
      | error raised => rfl
      | ok pair =>
        simp only [Except.map,ih,ChoiceLoop.add]
        cases safeTexts u finish rest pair.2 with
        | error raised => rfl
        | ok more =>
          simp only [pure,Except.pure,List.any_cons,Bool.or_assoc,List.append_assoc,added]

/-- The frame is written. -/
def emits (frame : Dict) (texts : List (Dict × Option Str)) : Bool :=
  texts.any releases || (finishReasonOf frame).isSome ||
    !(choicesOf frame).any fun choice => (contentOf choice).any (· ≠ [])

/-- What is written of a frame. -/
def frameOut (frame : Dict) (texts : List (Dict × Option Str)) : List Emission :=
  if (choicesOf frame).isEmpty then [.frame frame]
  else if emits frame texts then
    [.frame (frame.set "choices"
      (.arr ((texts.filterMap (rebuild (finishReasonOf frame).isSome)).map .obj)))]
  else []

theorem redactFrame_eq (frame : Dict) (state : SseState) :
    redactFrame u frame state =
      (safeTexts u (finishReasonOf frame) (choicesOf frame)
        {state with lastFrame := some frame}).map fun (texts,last) => (frameOut frame texts,last) := by
  unfold redactFrame
  dsimp only
  rw [redactChoices_eq]
  cases read : safeTexts u (finishReasonOf frame) (choicesOf frame)
      {state with lastFrame := some frame} with
  | error raised => rfl
  | ok pair =>
    obtain ⟨texts,last⟩ := pair
    simp only [Except.map,bind,Except.bind,pure,Except.pure,Bool.false_or,List.nil_append]
    cases shape : choicesOf frame with
    | nil =>
      have unfinished : finishReasonOf frame = none := by simp [finishReasonOf,shape]
      simp [frameOut,shape,unfinished]
    | cons choice rest =>
      have some : (choicesOf frame).isEmpty = false := by simp [shape]
      rw [← shape]
      simp only [frameOut,some,Bool.false_eq_true,if_false]
      change (if emits frame texts = true then _ else _) = _
      split_ifs <;> rfl

theorem redactFrame_ok {frame : Dict} {state next : SseState} {out : List Emission}
    (step : redactFrame u frame state = .ok (out,next)) :
    ∃ texts, safeTexts u (finishReasonOf frame) (choicesOf frame)
        {state with lastFrame := some frame} = .ok (texts,next) ∧ out = frameOut frame texts := by
  rw [redactFrame_eq] at step
  cases run : safeTexts u (finishReasonOf frame) (choicesOf frame)
      {state with lastFrame := some frame} with
  | error raised => simp [run,Except.map] at step
  | ok pair =>
    simp only [run,Except.map] at step
    cases step
    exact ⟨pair.1,rfl,rfl⟩

theorem sseLine_frame {frame : Dict} {state next : SseState} {out : List Emission}
    (step : sseLine u (.frame frame) state = .ok (out,next)) :
    redactFrame u frame state = .ok (out,next) := by
  simp only [sseLine] at step
  cases framed : redactFrame u frame state with
  | error raised => simp [framed,Except.mapError] at step
  | ok pair => simpa [framed,Except.mapError] using step

/-- The first choice brings no content, or it brings one that the redactor has taken. -/
theorem safeTexts_cons {finish : Option Json} {choice : Dict} {rest : List Dict}
    {state last : SseState} {texts : List (Dict × Option Str)}
    (run : safeTexts u finish (choice::rest) state = .ok (texts,last)) :
    (contentOf choice = none ∧ ∃ more, safeTexts u finish rest state = .ok (more,last) ∧
        texts = (choice,none)::more) ∨
      ∃ content safe next more, contentOf choice = some content ∧
        safeText u finish content state = .ok (safe,next) ∧
        safeTexts u finish rest next = .ok (more,last) ∧ texts = (choice,some safe)::more := by
  rw [safeTexts] at run
  cases found : contentOf choice with
  | none =>
    simp only [found,bind,Except.bind] at run
    cases tail : safeTexts u finish rest state with
    | error raised => simp [tail] at run
    | ok pair =>
      simp only [tail,pure,Except.pure] at run
      cases run
      exact Or.inl ⟨rfl,pair.1,rfl,rfl⟩
  | some content =>
    simp only [found,bind,Except.bind] at run
    cases step : safeText u finish content state with
    | error raised => simp [step] at run
    | ok pair =>
      obtain ⟨safe,next⟩ := pair
      simp only [step] at run
      cases tail : safeTexts u finish rest next with
      | error raised => simp [tail] at run
      | ok pair =>
        simp only [tail,pure,Except.pure] at run
        cases run
        exact Or.inr ⟨content,safe,next,pair.1,rfl,step,tail,rfl⟩

theorem safeTexts_choices {finish : Option Json} {choices : List Dict} {state last : SseState}
    {texts : List (Dict × Option Str)} (run : safeTexts u finish choices state = .ok (texts,last)) :
    texts.map Prod.fst = choices := by
  induction choices generalizing state texts with
  | nil =>
    cases run
    rfl
  | cons choice rest ih =>
    obtain ⟨_,more,tail,rfl⟩ | ⟨content,safe,next,more,_,_,tail,rfl⟩ := safeTexts_cons u run
    · rw [List.map_cons,ih tail]
    · rw [List.map_cons,ih tail]

theorem dropContent_get (choice : Dict) {key : String} (other : lit key ≠ lit "delta") :
    (dropContent choice).get key = choice.get key := by
  unfold dropContent
  split
  · split_ifs
    · exact Dict.get_set_ne choice _ other
    · rfl
  · rfl

theorem rebuild_get {finishing : Bool} {x : Dict × Option Str} {choice : Dict} {key : String}
    (kept : rebuild finishing x = some choice) (other : lit key ≠ lit "delta") :
    choice.get key = x.1.get key := by
  unfold rebuild at kept
  split at kept
  · cases kept
    exact dropContent_get x.1 other
  · split_ifs at kept
    · cases kept
      exact Dict.get_set_ne x.1 _ other
    · cases kept
      exact Dict.get_set_ne x.1 _ other

theorem rebuild_finishing (x : Dict × Option Str) : ∃ choice, rebuild true x = some choice := by
  unfold rebuild
  split
  · exact ⟨_,rfl⟩
  · split_ifs with nonempty always
    · exact ⟨_,rfl⟩
    · exact ⟨_,rfl⟩
    · exact absurd rfl always

/-- The frames of the stream, each with the state in which the loop meets it. -/
def met : List Line → SseState → List (Dict × SseState)
  | [],_ => []
  | line::rest,state =>
    match sseLine u line state with
    | .error _ => []
    | .ok (_,next) =>
      match line with
      | .frame frame => (frame,state)::met rest next
      | _ => met rest next

end GatewaySuite.Guardrail
