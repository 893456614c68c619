import GatewaySuite.Gateway.Rendering
import Mathlib.Data.List.ReduceOption

/-! A batch, entry by entry. Each entry is answered from itself and from the answer to its own
post alone, as long as no entry raises outside the part of the loop that catches. -/
namespace GatewaySuite.Gateway
open Python
variable (u : Unicode) (config : Config) (principal : Principal) (requestId : Str)

/-- The dictionary that an entry posts, if it is well formed and allowed. -/
def forwards (entry : Json) : Option Dict :=
  (rpcRequest? entry).filter fun payload =>
    (authorize u config.policy payload principal requestId).isNone

/-- The entries, each with the answer to the post it makes; `sent` posts were made before. -/
def asked (answers : Nat → Answer) : List Json → Nat → List (Json × Option Answer)
  | [],_ => []
  | entry::rest,sent =>
    if (forwards u config principal requestId entry).isSome then
      (entry,some (answers sent))::asked answers rest (sent+1)
    else (entry,none)::asked answers rest sent

/-- An entry that is owed a response: an invalid one, or one with an id. -/
def owed (entry : Json) : Bool := (rpcRequest? entry).all fun payload => (idOf payload).notNone

/-- The response to an entry that posts nothing, or to one that is answered so. -/
def ownResponse (x : Json × Option Answer) : Option Json :=
  match rpcRequest? x.1 with
  | none => some (rpcError .null INVALID_REQUEST (lit "Invalid JSON-RPC 2.0 request") none)
  | some payload =>
    if (idOf payload).notNone then
      match x.2 with
      | none => authorize u config.policy payload principal requestId
      | some answer => some (shown u config principal payload (batchBody payload requestId answer))
    else none

/-- The filter takes the body of the entry. -/
def shaped (x : Json × Option Answer) : Bool :=
  match rpcRequest? x.1,x.2 with
  | some payload,some answer =>
    !(filters config payload && !wellShaped (batchBody payload requestId answer))
  | _,_ => true

def responses (answers : Nat → Answer) (entries : List Json) : List (Option Json) :=
  (asked u config principal requestId answers entries 0).map (ownResponse u config principal requestId)

theorem forwards_none {entry : Json} (kept : forwards u config principal requestId entry = none) :
    rpcRequest? entry = none ∨ ∃ payload denial, rpcRequest? entry = some payload ∧
      authorize u config.policy payload principal requestId = some denial := by
  cases read : rpcRequest? entry with
  | none => exact Or.inl rfl
  | some payload =>
    right
    cases judged : authorize u config.policy payload principal requestId with
    | none => simp [forwards,read,Option.filter,judged] at kept
    | some denial => exact ⟨payload,denial,rfl,judged⟩

theorem forwards_some {entry : Json} {payload : Dict}
    (sent : forwards u config principal requestId entry = some payload) :
    rpcRequest? entry = some payload ∧
      authorize u config.policy payload principal requestId = none := by
  obtain ⟨read,passed⟩ := Option.filter_eq_some_iff.mp sent
  exact ⟨read,Option.isNone_iff_eq_none.mp passed⟩

/-- The loop collects the own responses of the entries, or the filter raises. -/
theorem batchLoop_responses (answers : Nat → Answer) (entries : List Json) (sent : Nat) :
    (batchLoop u config principal requestId answers entries sent).2 =
      if (asked u config principal requestId answers entries sent).all (shaped config requestId) then
        .ok ((asked u config principal requestId answers entries sent).filterMap
          (ownResponse u config principal requestId))
      else .error .AttributeError := by
  induction entries generalizing sent with
  | nil => rfl
  | cons entry rest ih =>
    cases made : forwards u config principal requestId entry with
    | none =>
      obtain invalid | ⟨payload,denial,read,denied⟩ := forwards_none u config principal requestId made
      · simp only [batchLoop,asked,made,invalid,ih,shaped,ownResponse,Option.isSome_none,
          Bool.false_eq_true,if_false,List.all_cons,Bool.true_and,List.filterMap_cons]
        split_ifs <;> rfl
      · simp only [batchLoop,asked,made,read,denied,ih,shaped,ownResponse,Option.isSome_none,
          Bool.false_eq_true,if_false,List.all_cons,Bool.true_and,List.filterMap_cons]
        split_ifs <;> rfl
    | some payload =>
      obtain ⟨read,passed⟩ := forwards_some u config principal requestId made
      simp only [batchLoop,asked,made,read,passed,ih,filterAnswer_eq,shaped,ownResponse,
        Option.isSome_some,if_true,List.all_cons,List.filterMap_cons]
      cases filters config payload && !wellShaped (batchBody payload requestId (answers sent)) with
      | true => rfl
      | false =>
        simp only [Bool.false_eq_true,if_false,Bool.not_false,Bool.true_and]
        split_ifs <;> rfl

theorem batchLoop_posts (answers : Nat → Answer) (entries : List Json) (sent : Nat)
    (good : (asked u config principal requestId answers entries sent).all (shaped config requestId) = true) :
    (batchLoop u config principal requestId answers entries sent).1 =
      (entries.filterMap (forwards u config principal requestId)).map fun payload =>
        forward config payload principal requestId := by
  induction entries generalizing sent with
  | nil => rfl
  | cons entry rest ih =>
    cases made : forwards u config principal requestId entry with
    | none =>
      simp only [asked,made,Option.isSome_none,Bool.false_eq_true,if_false,List.all_cons,
        Bool.and_eq_true] at good
      rw [List.filterMap_cons_none made,← ih sent good.2]
      obtain invalid | ⟨payload,denial,read,denied⟩ := forwards_none u config principal requestId made
      · simp only [batchLoop,invalid]
      · simp only [batchLoop,read,denied]
    | some payload =>
      obtain ⟨read,passed⟩ := forwards_some u config principal requestId made
      simp only [asked,made,Option.isSome_some,if_true,List.all_cons,Bool.and_eq_true,shaped,read,
        Bool.not_eq_true'] at good
      rw [List.filterMap_cons_some made,List.map_cons,← ih (sent+1) good.2]
      simp only [batchLoop,read,passed,filterAnswer_eq,good.1,Bool.false_eq_true,if_false]

theorem mem_asked {answers : Nat → Answer} {entries : List Json} {sent : Nat}
    {x : Json × Option Answer} (member : x ∈ asked u config principal requestId answers entries sent) :
    x.2.isSome = (forwards u config principal requestId x.1).isSome := by
  induction entries generalizing sent with
  | nil => simp [asked] at member
  | cons entry rest ih =>
    rw [asked] at member
    split_ifs at member with made
    · obtain rfl | behind := List.mem_cons.mp member
      · exact made.symm
      · exact ih behind
    · obtain rfl | behind := List.mem_cons.mp member
      · exact (Bool.eq_false_iff.mpr made).symm
      · exact ih behind

/-- What an entry and the answer to its own post must be for the batch to be sent: what the
gateway quotes in an error can be encoded; a JSON reply has a shape that the filter takes, and
what is shown of it renders. A notification is shown nothing. -/
def Harmless (x : Json × Option Answer) : Prop :=
  ∀ payload, rpcRequest? x.1 = some payload →
    match x.2 with
    | none =>
      (idOf payload).notNone = true → renders (idOf payload) = true ∧
        (quoted u config.policy payload principal requestId).all encodes = true
    | some (.response _ _ (.ok body) _) =>
      (filters config payload = true → wellShaped body = true) ∧
        ((idOf payload).notNone = true → renders (shown u config principal payload body) = true)
    | some _ =>
      (idOf payload).notNone = true → renders (idOf payload) = true ∧ encodes requestId = true

/-- The gateway's own error passes the filter unchanged, and renders if what it quotes does. -/
theorem error_harmless (payload : Dict) (message : String) :
    ((idOf payload).notNone = true → renders (idOf payload) = true ∧ encodes requestId = true) ↔
      (!(filters config payload && !wellShaped (rpcError (idOf payload) UPSTREAM_UNAVAILABLE
        (lit message) (requestIdData requestId)))) = true ∧
      ∀ response, (if (idOf payload).notNone = true then
          some (shown u config principal payload (rpcError (idOf payload) UPSTREAM_UNAVAILABLE
            (lit message) (requestIdData requestId)))
        else none) = some response → renders response = true := by
  rw [wellShaped_rpcError,shown_rpcError]
  cases (idOf payload).notNone with
  | false => simp
  | true => simp [rpcError_renders,requestIdData_renders]

theorem harmless_iff {x : Json × Option Answer}
    (fits : x.2.isSome = (forwards u config principal requestId x.1).isSome) :
    Harmless u config principal requestId x ↔ shaped config requestId x = true ∧
      ∀ response, ownResponse u config principal requestId x = some response →
        renders response = true := by
  obtain ⟨entry,answer?⟩ := x
  dsimp only at fits
  unfold Harmless shaped ownResponse
  cases read : rpcRequest? entry with
  | none => simp [rpcError_renders]
  | some payload =>
    simp only [Option.some.injEq,forall_eq']
    cases answer? with
    | none =>
      have refused : forwards u config principal requestId entry = none := by simpa using fits.symm
      obtain invalid | ⟨payload',denial,read',denied⟩ := forwards_none u config principal requestId refused
      · rw [invalid] at read
        cases read
      · rw [read,Option.some.injEq] at read'
        subst payload'
        cases (idOf payload).notNone with
        | false => simp
        | true => simp [denied,denial_renders u denied]
    | some answer =>
      cases answer with
      | timeout => exact error_harmless u config principal requestId payload _
      | httpError => exact error_harmless u config principal requestId payload _
      | exception => exact error_harmless u config principal requestId payload _
      | response status contentType json raw =>
        cases json with
        | error raised => exact error_harmless u config principal requestId payload _
        | ok body => cases filtered : filters config payload <;> simp [batchBody,filtered]

def batchResponse (responses : List Json) : Response :=
  if responses.isEmpty then ⟨202,[],.json .null⟩ else ⟨200,[],.json (.arr responses)⟩

theorem responses_filterMap (entries : List Json) (answers : Nat → Answer) :
    (responses u config principal requestId answers entries).reduceOption =
      (asked u config principal requestId answers entries 0).filterMap
        (ownResponse u config principal requestId) := by
  rw [responses,List.reduceOption,List.filterMap_map]
  rfl

theorem all_harmless (entries : List Json) (answers : Nat → Answer) :
    (∀ x ∈ asked u config principal requestId answers entries 0,
        Harmless u config principal requestId x) ↔
      (asked u config principal requestId answers entries 0).all (shaped config requestId) = true ∧
        renders (.arr (responses u config principal requestId answers entries).reduceOption) = true := by
  rw [responses_filterMap,renders_arr,List.all_eq_true,List.all_eq_true]
  constructor
  · intro harmless
    refine ⟨fun x member => ?_,fun response collected => ?_⟩
    · exact ((harmless_iff u config principal requestId (mem_asked u config principal requestId member)).mp
        (harmless x member)).1
    · obtain ⟨x,member,own⟩ := List.mem_filterMap.mp collected
      exact ((harmless_iff u config principal requestId (mem_asked u config principal requestId member)).mp
        (harmless x member)).2 response own
  · rintro ⟨good,rendered⟩ x member
    refine (harmless_iff u config principal requestId (mem_asked u config principal requestId member)).mpr
      ⟨good x member,fun response own => ?_⟩
    exact rendered response (List.mem_filterMap.mpr ⟨x,member,own⟩)

/-- A batch without harm is answered with the own responses; any other one raises. -/
theorem handleBatch_returns (entries : List Json) (answers : Nat → Answer) :
    ((∀ x ∈ asked u config principal requestId answers entries 0,
        Harmless u config principal requestId x) ∧
      (handleBatch u config entries principal requestId answers).2 =
        .ok (batchResponse (responses u config principal requestId answers entries).reduceOption)) ∨
    (¬ ∀ x ∈ asked u config principal requestId answers entries 0,
        Harmless u config principal requestId x) ∧
      ∃ escape, (handleBatch u config entries principal requestId answers).2 = .error escape := by
  rw [all_harmless]
  change _ ∧ Except.bind _ _ = _ ∨ _ ∧ ∃ escape, Except.bind _ _ = _
  rw [batchLoop_responses,← responses_filterMap]
  cases (asked u config principal requestId answers entries 0).all (shaped config requestId) with
  | false => exact Or.inr ⟨by simp,_,rfl⟩
  | true =>
    simp only [true_and,if_true,Except.bind,batchResponse]
    generalize (responses u config principal requestId answers entries).reduceOption = collected
    cases collected with
    | nil => exact Or.inl ⟨rfl,rfl⟩
    | cons response rest =>
      dsimp only [List.isEmpty_cons]
      obtain ⟨rendered,sent⟩ | ⟨refused,escaped⟩ := jsonResponse_eq 200 [] (.arr (response::rest))
      · exact Or.inl ⟨rendered,sent⟩
      · exact Or.inr ⟨by simp [refused],escaped⟩

theorem asked_get (entries : List Json) (answers : Nat → Answer) (sent i : Nat) :
    (asked u config principal requestId answers entries sent)[i]? = entries[i]?.map fun entry =>
      (entry,if (forwards u config principal requestId entry).isSome then
        some (answers (sent+((entries.take i).filterMap (forwards u config principal requestId)).length))
      else none) := by
  induction entries generalizing sent i with
  | nil => rfl
  | cons entry rest ih =>
    rw [asked]
    cases i with
    | zero => split_ifs with made <;> simp [made]
    | succ i =>
      cases made : forwards u config principal requestId entry with
      | none =>
        simp only [Option.isSome_none,Bool.false_eq_true,if_false,List.getElem?_cons_succ,ih,
          List.take_succ_cons,List.filterMap_cons_none made]
      | some payload =>
        simp only [Option.isSome_some,if_true,List.getElem?_cons_succ,ih,List.take_succ_cons,
          List.filterMap_cons_some made,List.length_cons]
        simp only [Nat.add_assoc,Nat.add_comm 1]

theorem responses_owed (entries : List Json) (answers : Nat → Answer) :
    (responses u config principal requestId answers entries).map Option.isSome = entries.map owed := by
  apply List.ext_getElem?
  intro i
  simp only [responses,List.getElem?_map,asked_get,Option.map_map]
  congr 1
  ext entry
  simp only [Function.comp_apply,ownResponse,owed]
  cases read : rpcRequest? entry with
  | none => rfl
  | some payload =>
    cases made : forwards u config principal requestId entry with
    | none =>
      obtain invalid | ⟨payload',denial,read',denied⟩ := forwards_none u config principal requestId made
      · rw [invalid] at read
        cases read
      · rw [read,Option.some.injEq] at read'
        subst payload'
        cases given : (idOf payload).notNone <;> simp [denied,given]
    | some posted => cases given : (idOf payload).notNone <;> simp [given]

private theorem reduceOption_get {α : Type} {l : List (Option α)} {i : Nat} {x : α}
    (found : l[i]? = some (some x)) : l.reduceOption[(l.take i).countP Option.isSome]? = some x := by
  induction l generalizing i with
  | nil => simp at found
  | cons head rest ih =>
    cases i with
    | zero =>
      obtain rfl : head = some x := by simpa using found
      simp
    | succ i =>
      rw [List.getElem?_cons_succ] at found
      cases head <;> simpa using ih found

theorem response_place (entries : List Json) (answers : Nat → Answer) {i : Nat} {response : Json}
    (own : (responses u config principal requestId answers entries)[i]? = some (some response)) :
    (responses u config principal requestId answers entries).reduceOption[
      (entries.take i).countP owed]? = some response := by
  have before : (entries.take i).countP owed =
      ((responses u config principal requestId answers entries).take i).countP Option.isSome := by
    calc (entries.take i).countP owed = ((entries.map owed).take i).countP id := by
            rw [← List.map_take,List.countP_map]
            rfl
      _ = _ := by
            rw [← responses_owed u config principal requestId entries answers,← List.map_take,
              List.countP_map]
            rfl
  rw [before]
  exact reduceOption_get own

/-- The batch is served: it posts every allowed entry as it came, and answers each entry that
is owed a response with its own, in the order of the entries. -/
structure Served (entries : List Json) (answers : Nat → Answer) : Prop where
  posts : (handleBatch u config entries principal requestId answers).1 =
    (entries.filterMap (forwards u config principal requestId)).map fun payload =>
      forward config payload principal requestId
  returns : (handleBatch u config entries principal requestId answers).2 =
    .ok (batchResponse (responses u config principal requestId answers entries).reduceOption)
  present : (responses u config principal requestId answers entries).map Option.isSome =
    entries.map owed

theorem served_iff (entries : List Json) (answers : Nat → Answer) :
    Served u config principal requestId entries answers ↔
      ∀ x ∈ asked u config principal requestId answers entries 0,
        Harmless u config principal requestId x := by
  obtain ⟨harmless,returns⟩ | ⟨harm,escape,raises⟩ :=
    handleBatch_returns u config principal requestId entries answers
  · have good := ((all_harmless u config principal requestId entries answers).mp harmless).1
    refine ⟨fun _ => harmless,fun _ => ⟨?_,returns,?_⟩⟩
    · exact batchLoop_posts u config principal requestId answers entries 0 good
    · exact responses_owed u config principal requestId entries answers
  · refine ⟨fun served => ?_,fun harmless => absurd harmless harm⟩
    rw [served.returns] at raises
    cases raises

/-- Entry `i` makes post `k`. -/
def Makes (entries : List Json) (k i : Nat) : Prop :=
  (entries[i]?.bind (forwards u config principal requestId)).isSome = true ∧
    ((entries.take i).filterMap (forwards u config principal requestId)).length = k

/-- The batch is served however post `k` is answered, and that answer reaches the response to
the entry that made the post alone. -/
structure Isolated (entries : List Json) (answers : Nat → Answer) (k : Nat) (reply : Answer) : Prop where
  served : Served u config principal requestId entries answers
  changed : Served u config principal requestId entries (Function.update answers k reply)
  others : ∀ i, ¬ Makes u config principal requestId entries k i →
    (responses u config principal requestId (Function.update answers k reply) entries)[i]? =
      (responses u config principal requestId answers entries)[i]?

theorem responses_others (entries : List Json) (answers : Nat → Answer) {k i : Nat} (reply : Answer)
    (other : ¬ Makes u config principal requestId entries k i) :
    (responses u config principal requestId (Function.update answers k reply) entries)[i]? =
      (responses u config principal requestId answers entries)[i]? := by
  simp only [responses,List.getElem?_map,asked_get]
  cases found : entries[i]? with
  | none => rfl
  | some entry =>
    dsimp only [Option.map_some]
    split_ifs with made
    · have elsewhere :
          0+((entries.take i).filterMap (forwards u config principal requestId)).length ≠ k := by
        intro here
        rw [Nat.zero_add] at here
        exact other ⟨by rw [found]; exact made,here⟩
      rw [Function.update_of_ne elsewhere]
    · rfl

/-- The entries of a batch are isolated exactly as long as none of them, with the answer to its
own post, does harm. -/
theorem batch_isolated (entries : List Json) (answers : Nat → Answer) (k : Nat) (reply : Answer) :
    Isolated u config principal requestId entries answers k reply ↔
      (∀ x ∈ asked u config principal requestId answers entries 0,
        Harmless u config principal requestId x) ∧
      ∀ x ∈ asked u config principal requestId (Function.update answers k reply) entries 0,
        Harmless u config principal requestId x := by
  rw [← served_iff,← served_iff]
  constructor
  · intro isolated
    exact ⟨isolated.served,isolated.changed⟩
  · rintro ⟨served,changed⟩
    refine ⟨served,changed,fun i other => ?_⟩
    exact responses_others u config principal requestId entries answers reply other

/-- A list of tools is asked for beside a ping. -/
def listAndPing : List Json :=
  [.obj [(lit "jsonrpc",.str (lit "2.0")),(lit "id",.int 1),(lit "method",.str (lit "tools/list"))],
    .obj [(lit "jsonrpc",.str (lit "2.0")),(lit "id",.int 2),(lit "method",.str (lit "ping"))]]

def nullResult : Answer :=
  .response 200 (lit "application/json")
    (.ok (.obj [(lit "jsonrpc",.str (lit "2.0")),(lit "id",.int 1),(lit "result",.null)])) []

/-- A null result for the list takes the ping down with it, where a timeout does not. -/
theorem null_result_takes_batch :
    ¬ Isolated asciiUnicode { defaultConfig with filterToolsList := true } viewer (lit "r1")
      listAndPing (fun _ => .timeout) 0 nullResult := by
  intro isolated
  have raises : (handleBatch asciiUnicode { defaultConfig with filterToolsList := true } listAndPing
      viewer (lit "r1") (Function.update (fun _ => .timeout) 0 nullResult)).2 =
        .error .AttributeError := by rfl
  have returns := isolated.changed.returns
  rw [raises] at returns
  cases returns

end GatewaySuite.Gateway
