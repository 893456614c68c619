import GatewaySuite.Gateway.Mediation

/-! Which answers can be rendered, and what is shown of a list of tools. The gateway's own
errors quote the id of the request, its request id and what the policy says of the caller;
the rest of them is fixed text. -/
namespace GatewaySuite.Gateway
open Python

theorem jsonResponse_eq (status : Nat) (headers : List (Str × Str)) (content : Json) :
    (renders content = true ∧ jsonResponse status headers content = .ok ⟨status,headers,.json content⟩) ∨
      renders content = false ∧ ∃ escape, jsonResponse status headers content = .error escape := by
  cases finite : content.finite with
  | false => exact Or.inr ⟨by simp [renders,finite],_,by simp [jsonResponse,finite]; rfl⟩
  | true =>
    cases encodable : content.encodable with
    | false => exact Or.inr ⟨by simp [renders,encodable],_,by simp [jsonResponse,finite,encodable]; rfl⟩
    | true => exact Or.inl ⟨by simp [renders,finite,encodable],by simp [jsonResponse,finite,encodable]⟩

/-- What the caller receives of an outcome of the endpoint. -/
def received (outcome : Except Escape Response) : Except Escape (Nat × Payload) :=
  outcome.bind Response.send

theorem received_json (status : Nat) (headers : List (Str × Str)) (content : Json) :
    (renders content = true ∧
        received (jsonResponse status headers content) = .ok (status,.value content)) ∨
      renders content = false ∧
        ∃ escape, received (jsonResponse status headers content) = .error escape := by
  obtain ⟨rendered,sent⟩ | ⟨refused,escape,raised⟩ := jsonResponse_eq status headers content
  · exact Or.inl ⟨rendered,by rw [sent]; rfl⟩
  · exact Or.inr ⟨refused,escape,by rw [raised]; rfl⟩

theorem rpcError_renders (id : Json) (code : Int) (message : String) (data : Option Dict) :
    renders (rpcError id code (lit message) data) =
      (renders id && data.all fun data => renders (.obj data)) := by
  cases data with
  | none => simp [rpcError,renders_obj,lit_encodes]
  | some data => simp [rpcError,renders_obj,lit_encodes]

theorem requestIdData_renders (requestId : Str) :
    (requestIdData requestId).all (fun data => renders (.obj data)) = encodes requestId := by
  simp [requestIdData,renders_obj,lit_encodes]

/-- The tool that a call names in a form that the policy judges. -/
def judgedTool (u : Unicode) (payload : Dict) : Option Str :=
  match (methodOf payload).filter isWellformedMethod with
  | some method =>
    if normalizeMethod u method = lit "tools/call" then
      (((payload.get "params").bind Json.dict?).bind fun params =>
        (Dict.get params "name").bind Json.str?).filter isWellformedToolName
    else none
  | none => none

/-- The texts that a denial quotes from the policy, the caller and the headers. -/
def quoted (u : Unicode) (policy : ToolPolicy) (payload : Dict) (principal : Principal)
    (requestId : Str) : List Str :=
  match judgedTool u payload with
  | some name =>
    principal.role :: requestId ::
      ((policy.firstRule (normalizeToolName u name)).map Prod.snd).getD []
  | none => []

theorem toolChar_ascii {c : CodePoint} (good : toolChar c = true) : c.val < 0x80 := by
  have upper : 'Z'.toNat < 0x80 := by decide
  have lower : 'z'.toNat < 0x80 := by decide
  have digit : '9'.toNat < 0x80 := by decide
  have marks : (lit "_.-").all isAscii = true := by decide
  simp only [toolChar,asciiAlnum,asciiLetter,asciiDigit,between,Bool.or_eq_true,Bool.and_eq_true,
    decide_eq_true_eq] at good
  obtain ((⟨_,bound⟩ | ⟨_,bound⟩) | ⟨_,bound⟩) | mark := good
  · exact lt_of_le_of_lt bound upper
  · exact lt_of_le_of_lt bound lower
  · exact lt_of_le_of_lt bound digit
  · simp only [oneOf,List.contains_iff_mem] at mark
    simpa [isAscii] using List.all_eq_true.mp marks c mark

theorem wellformed_encodes {name : Str} (formed : isWellformedToolName name = true) :
    encodes name = true := by
  obtain ⟨_,_,chars⟩ : _ ∧ _ ∧ ∀ c ∈ name, toolChar c = true := nameRegex_matches formed
  rw [encodes,List.all_eq_true]
  intro c member
  have small := toolChar_ascii (chars c member)
  have low : c.val < 0xD800 := by omega
  simp [low]

theorem sorted_all (roles : List Str) (test : Str → Bool) :
    (sorted roles).all test = roles.all test := by
  apply Bool.eq_iff_iff.mpr
  simp only [List.all_eq_true,sorted,List.mem_mergeSort]

theorem denial_renders (u : Unicode) {policy : ToolPolicy} {payload : Dict} {principal : Principal}
    {requestId : Str} {denial : Json}
    (denied : authorize u policy payload principal requestId = some denial) :
    renders denial = (renders (idOf payload) &&
      (quoted u policy payload principal requestId).all encodes) := by
  unfold authorize at denied
  unfold quoted judgedTool
  split at denied
  next malformed =>
    rw [Option.some.injEq] at denied
    subst denial
    simp [rpcError_renders,renders_obj,lit_encodes,malformed]
  next method formed =>
    rw [formed]
    dsimp only
    split_ifs at denied with call
    rw [if_pos (not_not.mp call)]
    split at denied
    next params given =>
      rw [given]
      dsimp only [Option.bind_some,Json.dict?]
      split at denied
      next nameless =>
        rw [Option.some.injEq] at denied
        subst denial
        simp [rpcError_renders,nameless]
      next empty =>
        rw [Option.some.injEq] at denied
        subst denial
        have malformed : isWellformedToolName [] = false := by decide
        simp [rpcError_renders,empty,Option.filter,malformed]
      next name _ named =>
        split_ifs at denied with malformed allowed
        · rw [Option.some.injEq] at denied
          subst denial
          have fails : isWellformedToolName name = false := by simpa using malformed
          simp [rpcError_renders,renders_obj,lit_encodes,named,Option.filter,fails]
        · rw [Option.some.injEq] at denied
          subst denial
          have formed : isWellformedToolName name = true := by simpa using malformed
          simp only [rpcError_renders,named,Option.filter,formed,if_true]
          simp [renders_obj,renders_arr,lit_encodes,wellformed_encodes formed,sorted_all]
          ac_rfl
    next shapeless =>
      rw [Option.some.injEq] at denied
      subst denial
      have absent : ((payload.get "params").bind Json.dict?) = none := by
        cases given : payload.get "params" with
        | none => rfl
        | some params => cases params <;> first | rfl | exact absurd given (shapeless _)
      simp [rpcError_renders,absent]

/-- The lists of tools that the setting asks to filter. -/
def filters (config : Config) (payload : Dict) : Bool :=
  config.filterToolsList && decide (methodOf payload = some (lit "tools/list"))

/-- The tools that a reply lists under its result. -/
def listedTools (body : Json) : Option (List Json) :=
  (((body.dict?.bind fun body => Dict.get body "result").bind Json.dict?).bind fun result =>
    Dict.get result "tools").bind fun tools => match tools with
      | .arr tools => some tools
      | _ => none

/-- The reply without the tools that the policy denies the caller. -/
def withoutDenied (u : Unicode) (policy : ToolPolicy) (principal : Principal) : Json → Json
  | .obj body =>
    match Dict.get body "result" with
    | some (.obj result) =>
      match Dict.get result "tools" with
      | some (.arr tools) =>
        .obj (Dict.set body "result" (.obj (Dict.set result "tools"
          (.arr (tools.filter (visible u policy principal))))))
      | _ => .obj body
    | _ => .obj body
  | body => body

/-- A reply in which what stands under `result`, if anything, has a `get`. -/
def wellShaped : Json → Bool
  | .obj body =>
    match Dict.get body "result" with
    | none | some (.obj _) => true
    | _ => false
  | _ => true

/-- What the caller is to see of a reply. -/
def shown (u : Unicode) (config : Config) (principal : Principal) (payload : Dict) (body : Json) : Json :=
  if filters config payload then withoutDenied u config.policy principal body else body

theorem filterToolsResponse_eq (u : Unicode) (policy : ToolPolicy) (body : Dict) (principal : Principal) :
    (filterToolsResponse u policy body principal).map .obj =
      if wellShaped (.obj body) then .ok (withoutDenied u policy principal (.obj body))
      else .error .AttributeError := by
  cases given : Dict.get body "result" with
  | none => simp only [filterToolsResponse,wellShaped,withoutDenied,given]; rfl
  | some result =>
    cases result with
    | obj result =>
      simp only [filterToolsResponse,wellShaped,withoutDenied,given,Option.getD_some,if_true]
      cases Dict.get result "tools" with
      | none => rfl
      | some tools => cases tools <;> rfl
    | _ => simp only [filterToolsResponse,wellShaped,given]; rfl

theorem filterAnswer_eq (u : Unicode) (config : Config) (payload : Dict) (principal : Principal)
    (body : Json) : filterAnswer u config payload principal body =
      if filters config payload && !wellShaped body then .error .AttributeError
      else .ok (shown u config principal payload body) := by
  unfold filterAnswer shown
  change (if filters config payload = true then _ else _) = _
  cases filtered : filters config payload with
  | false => rfl
  | true =>
    simp only [if_true,Bool.true_and]
    cases body with
    | obj body =>
      simp only [filterToolsResponse_eq]
      cases wellShaped (.obj body) <;> rfl
    | _ => rfl

theorem wellShaped_rpcError (id : Json) (code : Int) (message : Str) (data : Option Dict) :
    wellShaped (rpcError id code message data) = true := by
  cases data <;> rfl

theorem shown_rpcError (u : Unicode) (config : Config) (principal : Principal) (payload : Dict)
    (id : Json) (code : Int) (message : Str) (data : Option Dict) :
    shown u config principal payload (rpcError id code message data) =
      rpcError id code message data := by
  unfold shown
  split_ifs
  · cases data <;> rfl
  · rfl

/-- A JSON reply to a single message is shown to the caller, or raises. -/
theorem received_respond (u : Unicode) (config : Config) (payload : Dict) (principal : Principal)
    (requestId : Str) (status : Nat) {contentType : Str} (body : Json) (raw : List UInt8)
    (plain : (lit "text/event-stream").isPrefixOf contentType = false) :
    (((filters config payload = true → wellShaped body = true) ∧
        renders (shown u config principal payload body) = true) ∧
      received (respond u config payload principal requestId
        (.response status contentType (.ok body) raw)) =
          .ok (status,.value (shown u config principal payload body))) ∨
    (¬ ((filters config payload = true → wellShaped body = true) ∧
        renders (shown u config principal payload body) = true)) ∧
      ∃ escape, received (respond u config payload principal requestId
        (.response status contentType (.ok body) raw)) = .error escape := by
  simp only [respond,plain,Bool.false_eq_true,if_false,filterAnswer_eq]
  cases bad : filters config payload && !wellShaped body with
  | true =>
    obtain ⟨filtered,shapeless⟩ : filters config payload = true ∧ wellShaped body = false := by
      simpa using bad
    exact Or.inr ⟨by simp [filtered,shapeless],_,rfl⟩
  | false =>
    have taken : filters config payload = true → wellShaped body = true := by
      intro filtered
      simpa [filtered] using bad
    obtain ⟨rendered,sent⟩ | ⟨refused,escaped⟩ := received_json status
      [(lit "X-Request-Id",requestId)] (shown u config principal payload body)
    · exact Or.inl ⟨⟨taken,rendered⟩,sent⟩
    · exact Or.inr ⟨by simp [refused],escaped⟩

end GatewaySuite.Gateway
