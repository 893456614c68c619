import GatewaySuite.Gateway.Listing
import GatewaySuite.Gateway.Downstream

/-! Replies against messages. A client finds the reply to a message by its id: the gateway writes
the ids of its own replies, and must keep those of the downstream's, whatever it filters and
whichever entries of a batch it leaves out. -/
namespace GatewaySuite.Gateway
open Python
variable (u : Unicode) (config : Config)

def messageId (message : Json) : Json := (message.dict?.map idOf).getD .null

/-- The id under which an entry of a batch is answered, if it is. -/
def awaited (entry : Json) : Option Json :=
  match rpcRequest? entry with
  | none => some .null
  | some payload => if (idOf payload).notNone then some (idOf payload) else none

/-- Whatever JSON the downstream answers a post with carries the id of the post. -/
def Echoes (posts : List Post) (answers : Nat → Answer) : Prop :=
  ∀ i post, posts[i]? = some post → ∀ body, replied (answers i) = some body →
    messageId body = idOf post.payload

theorem rpcError_id (id : Json) (code : Int) (message : Str) (data : Option Dict) :
    messageId (rpcError id code message data) = id := by
  cases data <;> rfl

theorem rpcRequest?_id {entry : Json} {payload : Dict} (read : rpcRequest? entry = some payload) :
    messageId entry = idOf payload := by
  rw [rpcRequest?_some read]
  rfl

theorem denial_id {policy : ToolPolicy} {payload : Dict} {principal : Principal} {requestId : Str}
    {denial : Json} (denied : authorize u policy payload principal requestId = some denial) :
    messageId denial = idOf payload := by
  unfold authorize at denied
  split at denied
  · rw [← Option.some.inj denied,rpcError_id]
  · split_ifs at denied
    split at denied
    · split at denied
      · rw [← Option.some.inj denied,rpcError_id]
      · rw [← Option.some.inj denied,rpcError_id]
      · split_ifs at denied
        · rw [← Option.some.inj denied,rpcError_id]
        · rw [← Option.some.inj denied,rpcError_id]
    · rw [← Option.some.inj denied,rpcError_id]

/-- The filter writes under `result` only. -/
theorem shown_id (principal : Principal) (payload : Dict) (body : Json) :
    messageId (shown u config principal payload body) = messageId body := by
  unfold shown withoutDenied
  split_ifs
  · split
    · split
      · split
        · simp only [messageId,Json.dict?,Option.map_some,Option.getD_some,idOf]
          rw [Dict.get_set_ne _ _ (by decide)]
        · rfl
      · rfl
    · rfl
  · rfl

theorem batchBody_id {payload : Dict} (requestId : Str) {answer : Answer}
    (echoed : ∀ body, replied answer = some body → messageId body = idOf payload) :
    messageId (batchBody payload requestId answer) = idOf payload := by
  unfold batchBody
  split
  · exact rpcError_id _ _ _ _
  · exact echoed _ rfl
  · exact rpcError_id _ _ _ _

theorem error_id {status : Nat} {headers : List (Str × Str)} {id : Json} {code : Int} {message : Str}
    {data : Option Dict} {status' : Nat} {content : Json}
    (sent : received (jsonResponse status headers (rpcError id code message data)) =
      .ok (status',.value content)) : messageId content = id := by
  obtain ⟨_,came⟩ | ⟨_,escape,raised⟩ := received_json status headers (rpcError id code message data)
  · rw [came] at sent
    cases sent
    exact rpcError_id id code message data
  · rw [raised] at sent
    cases sent

theorem respond_id {payload : Dict} {principal : Principal} {requestId : Str} {answer : Answer}
    (echoed : ∀ body, replied answer = some body → messageId body = idOf payload)
    {status : Nat} {content : Json}
    (sent : received (respond u config payload principal requestId answer) = .ok (status,.value content)) :
    messageId content = idOf payload := by
  cases answer with
  | timeout => exact error_id sent
  | httpError => exact error_id sent
  | exception => exact error_id sent
  | response replyStatus contentType json raw =>
    cases stream : (lit "text/event-stream").isPrefixOf contentType with
    | true =>
      simp [respond,stream,received,Except.bind,Response.send,aiterRaw,Except.map] at sent
    | false =>
      cases json with
      | error raised =>
        cases raised with
        | RecursionError => simp [respond,stream,received,Except.bind] at sent
        | JSONDecodeError =>
          simp only [respond,stream,Bool.false_eq_true,if_false] at sent
          exact error_id sent
        | ValueError =>
          simp only [respond,stream,Bool.false_eq_true,if_false] at sent
          exact error_id sent
      | ok body =>
        obtain ⟨_,shows⟩ | ⟨_,escape,raises⟩ :=
          received_respond u config payload principal requestId replyStatus body raw stream
        · rw [shows] at sent
          cases sent
          rw [shown_id]
          exact echoed body rfl
        · rw [raises] at sent
          cases sent

theorem single_id {parsed : Json} {principal : Principal} {requestId : Str} {answers : Nat → Answer}
    (echoes : Echoes (handleSingle u config parsed principal requestId (answers 0)).1 answers)
    {status : Nat} {content : Json}
    (sent : received (handleSingle u config parsed principal requestId (answers 0)).2 =
      .ok (status,.value content)) : messageId content = messageId parsed := by
  unfold handleSingle at echoes sent
  cases read : rpcRequest? parsed with
  | none =>
    simp only [read] at sent
    exact error_id sent
  | some payload =>
    rw [rpcRequest?_id read]
    cases judged : authorize u config.policy payload principal requestId with
    | some denial =>
      simp only [read,judged] at sent
      obtain ⟨_,came⟩ | ⟨_,escape,raised⟩ := received_json 200 [] denial
      · rw [came] at sent
        cases sent
        exact denial_id u judged
      · rw [raised] at sent
        cases sent
    | none =>
      simp only [read,judged] at echoes sent
      exact respond_id u config (echoes 0 _ rfl) sent

section
variable {α β : Type} {f : α → Option β}

private theorem filterMap_at {l : List α} {i : Nat} {x : α} {y : β} (here : l[i]? = some x)
    (kept : f x = some y) : (l.filterMap f)[((l.take i).filterMap f).length]? = some y := by
  induction l generalizing i with
  | nil => simp at here
  | cons head rest ih =>
    cases i with
    | zero =>
      obtain rfl : head = x := by simpa using here
      simp [kept]
    | succ i =>
      rw [List.getElem?_cons_succ] at here
      cases first : f head <;> simpa [first] using ih here

private theorem filterMap_place {l : List α} {k : Nat} {y : β} (found : (l.filterMap f)[k]? = some y) :
    ∃ i x, l[i]? = some x ∧ f x = some y ∧ ((l.take i).filterMap f).length = k := by
  induction l generalizing k with
  | nil => simp at found
  | cons head rest ih =>
    cases first : f head with
    | none =>
      rw [List.filterMap_cons_none first] at found
      obtain ⟨i,x,here,kept,place⟩ := ih found
      exact ⟨i+1,x,by simpa using here,kept,by simpa [first] using place⟩
    | some z =>
      rw [List.filterMap_cons_some first] at found
      cases k with
      | zero =>
        obtain rfl : z = y := by simpa using found
        exact ⟨0,head,rfl,first,rfl⟩
      | succ k =>
        rw [List.getElem?_cons_succ] at found
        obtain ⟨i,x,here,kept,place⟩ := ih found
        exact ⟨i+1,x,by simpa using here,kept,by simpa [first] using place⟩

end

/-- The response that answers a message: its own denial, or what the caller is shown of the
answer to its own post. -/
def Owns (principal : Principal) (requestId : Str) (posts : List Post) (answers : Nat → Answer)
    (payload : Dict) (response : Json) : Prop :=
  authorize u config.policy payload principal requestId = some response ∨
    authorize u config.policy payload principal requestId = none ∧
      ∃ n, posts[n]? = some (forward config payload principal requestId) ∧
        response = shown u config principal payload (batchBody payload requestId (answers n))

/-- A batch's responses carry the ids that are awaited, in their order; and the response under an
id that one entry alone awaits is that entry's own. -/
structure Matched (principal : Principal) (requestId : Str) (posts : List Post)
    (answers : Nat → Answer) (entries responses : List Json) : Prop where
  ids : responses.map messageId = entries.filterMap awaited
  own : ∀ (i : Nat) (entry : Json) (payload : Dict), entries[i]? = some entry →
    rpcRequest? entry = some payload → (idOf payload).notNone = true →
    (∀ j, j ≠ i → (entries[j]?.bind awaited) ≠ some (idOf payload)) →
    ∃ (k : Nat) (response : Json), responses[k]? = some response ∧
      (∀ (k' : Nat) (other : Json), responses[k']? = some other → messageId other = idOf payload → k' = k) ∧
      Owns u config principal requestId posts answers payload response

theorem awaited_owed (entry : Json) : (awaited entry).isSome = owed entry := by
  unfold awaited owed
  cases rpcRequest? entry with
  | none => rfl
  | some payload => cases given : (idOf payload).notNone <;> simp [given]

theorem ownResponse_id {principal : Principal} {requestId : Str} {entry : Json} {answer : Answer}
    (echoed : ∀ payload, forwards u config principal requestId entry = some payload →
      ∀ body, replied answer = some body → messageId body = idOf payload) :
    (ownResponse u config principal requestId (entry,
      if (forwards u config principal requestId entry).isSome then some answer else none)).map messageId =
        awaited entry := by
  unfold ownResponse awaited
  cases read : rpcRequest? entry with
  | none => exact congrArg some (rpcError_id _ _ _ _)
  | some payload =>
    cases given : (idOf payload).notNone with
    | false => simp [given]
    | true =>
      cases made : forwards u config principal requestId entry with
      | none =>
        obtain invalid | ⟨payload',denial,read',denied⟩ := forwards_none u config principal requestId made
        · rw [invalid] at read
          cases read
        · rw [read,Option.some.injEq] at read'
          subst payload'
          simp [given,denied,denial_id u denied]
      | some payload' =>
        obtain ⟨read',_⟩ := forwards_some u config principal requestId made
        rw [read,Option.some.injEq] at read'
        subst payload'
        simp [given,shown_id,batchBody_id requestId (echoed payload made)]

section
variable {principal : Principal} {requestId : Str} {entries : List Json} {answers : Nat → Answer}

/-- The post that an entry makes stands at the number of posts before it. -/
theorem forwards_post {i : Nat} {entry : Json} {payload : Dict} (here : entries[i]? = some entry)
    (made : forwards u config principal requestId entry = some payload) :
    ((entries.filterMap (forwards u config principal requestId)).map fun payload =>
        forward config payload principal requestId)[
      ((entries.take i).filterMap (forwards u config principal requestId)).length]? =
        some (forward config payload principal requestId) := by
  rw [List.getElem?_map,filterMap_at here made]
  rfl

theorem responses_ids (echoes : Echoes ((entries.filterMap (forwards u config principal requestId)).map
      fun payload => forward config payload principal requestId) answers) :
    (responses u config principal requestId answers entries).map (Option.map messageId) =
      entries.map awaited := by
  apply List.ext_getElem?
  intro i
  simp only [responses,List.getElem?_map,asked_get,Option.map_map]
  cases here : entries[i]? with
  | none => rfl
  | some entry =>
    refine congrArg some (ownResponse_id u config fun payload made body reply => ?_)
    rw [Nat.zero_add] at reply
    exact echoes _ _ (forwards_post u config here made) body reply

theorem batch_matched (served : Served u config principal requestId entries answers)
    (echoes : Echoes (handleBatch u config entries principal requestId answers).1 answers) :
    Matched u config principal requestId (handleBatch u config entries principal requestId answers).1
      answers entries (responses u config principal requestId answers entries).reduceOption := by
  rw [served.posts] at echoes ⊢
  have ids : (responses u config principal requestId answers entries).reduceOption.map messageId =
      entries.filterMap awaited := by
    calc (responses u config principal requestId answers entries).reduceOption.map messageId
        = ((responses u config principal requestId answers entries).map
            (Option.map messageId)).reduceOption := List.reduceOption_map.symm
      _ = (entries.map awaited).reduceOption := by rw [responses_ids u config echoes]
      _ = entries.filterMap awaited := by
          rw [List.reduceOption,List.filterMap_map]
          rfl
  refine ⟨ids,fun i entry payload here read given alone => ?_⟩
  have waits : awaited entry = some (idOf payload) := by simp [awaited,read,given]
  have place : (entries.take i).countP owed = ((entries.take i).filterMap awaited).length := by
    rw [List.length_filterMap_eq_countP]
    exact congrArg (List.countP · _) (funext fun entry => (awaited_owed entry).symm)
  have own : (responses u config principal requestId answers entries)[i]? =
      some (ownResponse u config principal requestId (entry,
        if (forwards u config principal requestId entry).isSome then
          some (answers ((entries.take i).filterMap (forwards u config principal requestId)).length)
        else none)) := by
    simp [responses,List.getElem?_map,asked_get,here]
  have unique : ∀ (k' : Nat) (other : Json),
      (responses u config principal requestId answers entries).reduceOption[k']? = some other →
      messageId other = idOf payload → k' = ((entries.take i).filterMap awaited).length := by
    intro k' other found same
    have carried : (entries.filterMap awaited)[k']? = some (idOf payload) := by
      rw [← ids,List.getElem?_map,found,Option.map_some,same]
    obtain ⟨j,entry',there,awaits,reached⟩ := filterMap_place carried
    by_cases equal : j = i
    · rw [← reached,equal]
    · exact absurd (by rw [there,Option.bind_some,awaits]) (alone j equal)
  cases made : forwards u config principal requestId entry with
  | none =>
    obtain invalid | ⟨payload',denial,read',denied⟩ := forwards_none u config principal requestId made
    · rw [invalid] at read
      cases read
    · rw [read,Option.some.injEq] at read'
      subst payload'
      refine ⟨_,denial,?_,unique,Or.inl denied⟩
      rw [← place]
      apply response_place
      rw [own]
      simp [ownResponse,read,given,made,denied]
  | some payload' =>
    obtain ⟨read',passed⟩ := forwards_some u config principal requestId made
    rw [read,Option.some.injEq] at read'
    subst payload'
    refine ⟨_,_,?_,unique,Or.inr ⟨passed,_,forwards_post u config here made,rfl⟩⟩
    rw [← place]
    apply response_place
    rw [own]
    simp [ownResponse,read,given,made]

end

/-- What a request is answered with, as a JSON value: a refusal of the whole of it carries no id; the
reply to a single message carries the message's; those to a batch are matched to its entries. -/
def Correlated (exchange : Exchange) (posts : List Post) (content : Json) :
    Except AuthError Principal → Except LoadsError Json → Prop
  | .ok principal,.ok (.arr entries) =>
    if config.allowBatch then
      ∃ responses, content = (if responses.isEmpty then .null else .arr responses) ∧
        Matched u config principal exchange.request.requestId posts exchange.answers entries responses
    else messageId content = .null
  | .ok _,.ok parsed => messageId content = messageId parsed
  | _,_ => messageId content = .null

/-- In front of a downstream that echoes the ids of its messages, whatever the gateway denies,
filters, drops or fails to get, a client finds by its id the reply to each of its messages. -/
theorem replies_correlated (resolve : Option Str → Except AuthError Principal)
    (loads : List UInt8 → Except LoadsError Json) (exchange : Exchange)
    (echoes : Echoes (proxy u config resolve loads exchange.request exchange.answers).1 exchange.answers)
    (status : Nat) (content : Json)
    (sent : received (proxy u config resolve loads exchange.request exchange.answers).2 =
      .ok (status,.value content)) :
    Correlated u config exchange (proxy u config resolve loads exchange.request exchange.answers).1 content
      (resolve exchange.request.authorization) (loads exchange.request.body) := by
  unfold proxy at echoes sent ⊢
  cases who : resolve exchange.request.authorization with
  | error refused =>
    simp only [who] at sent
    exact error_id sent
  | ok principal =>
    simp only [who] at echoes sent ⊢
    cases what : loads exchange.request.body with
    | error raised =>
      simp only [what] at sent
      exact error_id sent
    | ok parsed =>
      simp only [what] at echoes sent ⊢
      cases parsed with
      | arr entries =>
        unfold Correlated
        dsimp only at echoes sent ⊢
        split_ifs at echoes sent ⊢ with batching
        · obtain ⟨harmless,returns⟩ | ⟨_,escape,raises⟩ := handleBatch_returns u config principal
            exchange.request.requestId entries exchange.answers
          · have served := (served_iff u config principal _ entries _).mpr harmless
            refine ⟨_,?_,batch_matched u config served echoes⟩
            rw [returns] at sent
            unfold batchResponse at sent
            split_ifs at sent with empty
            · cases sent
              simp [empty]
            · cases sent
              simp [empty]
          · rw [raises] at sent
            cases sent
        · dsimp only at sent
          exact error_id sent
      | null => exact single_id u config echoes sent
      | bool value => exact single_id u config echoes sent
      | int value => exact single_id u config echoes sent
      | float bits => exact single_id u config echoes sent
      | str value => exact single_id u config echoes sent
      | obj fields => exact single_id u config echoes sent

theorem handle_id {formats : Formats} {body : Dict} {content : Json}
    (handled : handle formats body = .ok content) : messageId content = idOf body := by
  unfold handle at handled
  simp only [bind,pure,Except.pure] at handled
  split_ifs at handled
  · cases handled
    rfl
  · cases handled
    rfl
  · cases named : paramOf body "name" with
    | error raised => simp [named,Except.bind] at handled
    | ok name =>
      cases given : paramOf body "arguments" with
      | error raised => simp [named,given,Except.bind] at handled
      | ok arguments =>
        cases known : knownTool name with
        | error raised => simp [named,given,known,Except.bind] at handled
        | ok found =>
          simp only [named,given,known,Except.bind] at handled
          cases found with
          | none =>
            cases handled
            rfl
          | some name =>
            cases handled
            rfl
  · cases handled
    rfl
  · cases handled
    rfl

/-- The server that comes with the gateway echoes. -/
theorem answered_echoes {formats : Formats} {dumps : Json → List UInt8}
    {resolve : Option Str → Except AuthError Principal} {loads : List UInt8 → Except LoadsError Json}
    {exchange : Exchange} (answered : Answered formats u config dumps resolve loads exchange) :
    Echoes (proxy u config resolve loads exchange.request exchange.answers).1 exchange.answers := by
  intro i post made body reply
  rw [answered i post made,postAnswer] at reply
  by_cases sends : post.sends = true
  · rw [if_pos sends,served] at reply
    split at reply
    next content kept =>
      cases reply
      obtain ⟨handled,_⟩ := Option.filter_eq_some_iff.mp kept
      cases outcome : handle formats post.payload with
      | error raised => simp [outcome,Except.toOption] at handled
      | ok content' =>
        rw [outcome] at handled
        cases handled
        exact handle_id outcome
    next => cases reply
  · rw [if_neg sends] at reply
    cases reply

def message (id : Option Json) (method : String) : Dict :=
  [(lit "jsonrpc",.str (lit "2.0")),(lit "method",.str (lit method))] ++
    id.elim [] fun id => [(lit "id",id)]

/-- A call that names no tool, a notification and a ping. -/
def mixedBatch : Json :=
  .arr [.obj (message (some (.int 7)) "tools/call"),.obj (message none "ping"),
    .obj (message (some (.int 8)) "ping")]

def mixedExchange : Exchange :=
  ⟨⟨some (lit "Bearer viewer-token-def456"),lit "r1",[]⟩,fun i =>
    served (fun _ => []) emptyFormats (message (if i = 0 then none else some (.int 8)) "ping")⟩

theorem replies_correlated_mixed :
    let outcome := proxy asciiUnicode defaultConfig (fun _ => .ok viewer) (fun _ => .ok mixedBatch)
      mixedExchange.request mixedExchange.answers
    ∃ responses, received outcome.2 = .ok (200,.value (.arr responses)) ∧
      responses.map messageId = [.int 7,.int 8] := by
  intro outcome
  have posts : outcome.1 = [forward defaultConfig (message none "ping") viewer (lit "r1"),
      forward defaultConfig (message (some (.int 8)) "ping") viewer (lit "r1")] := rfl
  have answered : Answered emptyFormats asciiUnicode defaultConfig (fun _ => []) (fun _ => .ok viewer)
      (fun _ => .ok mixedBatch) mixedExchange := by
    intro i post found
    rw [show (proxy _ _ _ _ _ _).1 = _ from posts] at found
    match i,found with
    | 0,found => cases found; rfl
    | 1,found => cases found; rfl
  obtain ⟨responses,sent⟩ : ∃ responses, received outcome.2 = .ok (200,.value (.arr responses)) :=
    ⟨_,rfl⟩
  obtain ⟨responses',same,matched⟩ := replies_correlated asciiUnicode defaultConfig (fun _ => .ok viewer)
    (fun _ => .ok mixedBatch) mixedExchange (answered_echoes asciiUnicode defaultConfig answered) 200 _ sent
  refine ⟨responses,sent,?_⟩
  have solid : ¬ responses'.isEmpty = true := by
    intro empty
    rw [if_pos empty] at same
    cases same
  rw [if_neg solid,Json.arr.injEq] at same
  rw [same,matched.ids]
  rfl

end GatewaySuite.Gateway
