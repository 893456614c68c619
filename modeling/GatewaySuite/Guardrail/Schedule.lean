import GatewaySuite.Guardrail.Sse

/-! What a stream of upstream lines asks of the redactor. The schedule depends on the lines
alone: which contents are fed, when the redactor is flushed, which contents come later,
and under which choice index each result is written. The proxy performs the schedule. -/
namespace GatewaySuite.Guardrail
open Python
variable (u : Unicode)

inductive Task where
  | feed (owner : Option Int) (content : Str)
  | flush (owner : Option Int)
  | whole (owner : Option Int) (content : Str)
deriving DecidableEq, Repr

def Task.calls : Task → List Call
  | .feed _ content => [.feed content]
  | .flush _ => [.flush]
  | .whole _ _ => []

/-- A choice of a frame; `finishing` says that some choice of the frame has a finish
reason. -/
def choiceTasks (finishing closed : Bool) (choice : Dict) : List Task :=
  match contentOf choice with
  | none => []
  | some content =>
    if closed then [.whole (choiceIndex choice) content]
    else if finishing then [.feed (choiceIndex choice) content,.flush (choiceIndex choice)]
    else [.feed (choiceIndex choice) content]

def closes (finishing : Bool) (choice : Dict) : Bool := finishing && (contentOf choice).isSome

def frameTasks (finishing : Bool) : Bool → List Dict → List Task
  | _,[] => []
  | closed,choice::rest =>
    choiceTasks finishing closed choice ++ frameTasks finishing (closed || closes finishing choice) rest

def tailOwner (last : Option Dict) : Option Int :=
  choiceIndex (((choicesOf (last.getD [])).head?.getD []).setdefault "index" (.int 0))

/-- The schedule from a line on, given whether the redactor is closed and the last frame. -/
def schedule : List Line → Bool → Option Dict → List Task
  | [],closed,last => if closed then [] else [.flush (tailOwner last)]
  | .done::rest,closed,last => (if closed then [] else [.flush (tailOwner last)]) ++ schedule rest true last
  | .frame frame::rest,closed,_ =>
    let finishing := (finishReasonOf frame).isSome
    frameTasks finishing closed (choicesOf frame) ++
      schedule rest (closed || (choicesOf frame).any (closes finishing)) (some frame)
  | _::rest,closed,last => schedule rest closed last

def perform (redactor : StreamRedactor) : Task →
    Except RuntimeError ((Option Int × Str) × StreamRedactor)
  | .feed owner content => do
    let (safe,next) ← redactor.feed u content
    return ((owner,safe),next)
  | .flush owner =>
    let (tail,next) := redactor.flush u
    .ok ((owner,tail),next)
  | .whole owner content => .ok ((owner,redactComplete u content DEFAULT_PLACEHOLDER),redactor)

def performAll (redactor : StreamRedactor) : List Task →
    Except RuntimeError (List (Option Int × Str) × StreamRedactor)
  | [] => .ok ([],redactor)
  | task::rest => do
    let (written,next) ← perform u redactor task
    let (more,last) ← performAll next rest
    return (written::more,last)

theorem performAll_append {redactor next last : StreamRedactor} {first second : List Task}
    {out more : List (Option Int × Str)} (left : performAll u redactor first = .ok (out,next))
    (right : performAll u next second = .ok (more,last)) :
    performAll u redactor (first++second) = .ok (out++more,last) := by
  induction first generalizing redactor out with
  | nil =>
    simp only [performAll,Except.ok.injEq,Prod.mk.injEq] at left
    obtain ⟨rfl,rfl⟩ := left
    exact right
  | cons task rest ih =>
    simp only [performAll,List.cons_append,bind,Except.bind] at left ⊢
    cases head : perform u redactor task with
    | error e => simp [head] at left
    | ok pair =>
      simp only [head] at left ⊢
      cases tail : performAll u pair.2 rest with
      | error e => simp [tail] at left
      | ok rest' =>
        simp only [tail,pure,Except.pure,Except.ok.injEq,Prod.mk.injEq] at left
        obtain ⟨rfl,rfl⟩ := left
        simp only [ih tail,pure,Except.pure,List.cons_append]

/-- The texts written under the indices a test admits, one after the other. -/
def under (keep : Option Int → Bool) (written : List (Option Int × Str)) : Str :=
  ((written.filter fun x => keep x.1).map Prod.snd).flatten

@[simp] theorem under_nil (keep : Option Int → Bool) : under keep [] = [] := rfl

@[simp] theorem under_cons (keep : Option Int → Bool) (owner : Option Int) (text : Str)
    (rest : List (Option Int × Str)) :
    under keep ((owner,text)::rest) = (if keep owner then text else []) ++ under keep rest := by
  by_cases kept : keep owner <;> simp [under,kept]

@[simp] theorem under_append (keep : Option Int → Bool) (first second : List (Option Int × Str)) :
    under keep (first++second) = under keep first ++ under keep second := by
  simp [under]

def contents (choices : List Dict) : List (Option Int × Str) :=
  choices.filterMap fun choice => (contentOf choice).map fun text => (choiceIndex choice,text)

@[simp] theorem contents_append (first second : List Dict) :
    contents (first++second) = contents first ++ contents second := by simp [contents]

def delivered (out : List Emission) : List (Option Int × Str) :=
  out.flatMap fun emission =>
    match emission with
    | .frame frame => contents (choicesOf frame)
    | _ => []

@[simp] theorem delivered_append (first second : List Emission) :
    delivered (first++second) = delivered first ++ delivered second := by simp [delivered]

/-- Between two states the proxy performed some tasks, and the contents in what it wrote
are their results, empty ones left out. -/
structure Renders (before after : SseState) (tasks : List Task) (out : List (Option Int × Str)) :
    Prop where
  performed : ∃ written, performAll u before.redactor tasks = .ok (written,after.redactor) ∧
    ∀ keep, under keep out = under keep written
  calls : after.calls = before.calls ++ tasks.flatMap Task.calls
  synced : after.redactor.closed = after.flushed
  nonempty : ∀ x ∈ out, x.2 ≠ []

namespace Renders
variable {u : Unicode} {before middle after : SseState} {tasks more : List Task}
  {out rest : List (Option Int × Str)}

theorem none (state : SseState) (synced : state.redactor.closed = state.flushed) :
    Renders u state state [] [] :=
  ⟨⟨[],rfl,fun _ => rfl⟩,by simp,synced,by simp⟩

theorem trans (first : Renders u before middle tasks out) (second : Renders u middle after more rest) :
    Renders u before after (tasks++more) (out++rest) := by
  obtain ⟨written,performed,same⟩ := first.performed
  obtain ⟨written',performed',same'⟩ := second.performed
  refine ⟨⟨written++written',performAll_append u performed performed',fun keep => ?_⟩,?_,
    second.synced,?_⟩
  · rw [under_append,under_append,same keep,same' keep]
  · rw [second.calls,first.calls,List.flatMap_append,List.append_assoc]
  · intro x member
    exact (List.mem_append.mp member).elim (first.nonempty x) (second.nonempty x)

end Renders

end GatewaySuite.Guardrail
