import GatewaySuite.Gateway.Mediation
import GatewaySuite.Gateway.Rendering

/-! Listing against calling. The filter asks the policy alone; a call is refused before the
policy is asked if its name is no string of the permitted set. -/
namespace GatewaySuite.Gateway
open Python
variable (u : Unicode) (policy : ToolPolicy) (principal : Principal) (requestId : Str)

/-- A message that calls the tool of that name. -/
structure CallsTool (payload : Dict) (name : Json) : Prop where
  method : methodOf payload = some (lit "tools/call")
  params : ∃ params, payload.get "params" = some (.obj params) ∧ Dict.get params "name" = some name

def toolCall (id name : Json) : Dict :=
  [(lit "jsonrpc",.str (lit "2.0")),(lit "id",id),(lit "method",.str (lit "tools/call")),
    (lit "params",.obj [(lit "name",name)])]

theorem toolCall_calls (id name : Json) : CallsTool (toolCall id name) name :=
  ⟨rfl,_,rfl,rfl⟩

def toolName (tool : Json) : Option Str :=
  (tool.dict?.bind fun tool => Dict.get tool "name").bind Json.str?

theorem isWellformedMethod_tools_call : isWellformedMethod (lit "tools/call") = true := by
  decide +kernel

theorem isWellformedToolName_nil : isWellformedToolName [] = false := by
  rw [← Bool.not_eq_true]
  intro matched
  have least := (nameRegex_matches matched).1
  simp at least

/-- A call of a tool is let through exactly if its name is a well-formed string that the policy
allows, whatever else the message holds. -/
theorem authorize_call {payload : Dict} {name : Json} (calls : CallsTool payload name) :
    authorize u policy payload principal requestId = none ↔
      ∃ text, name.str? = some text ∧ isWellformedToolName text = true ∧
        policy.visibleTo u text principal = true := by
  obtain ⟨method,params,given,named⟩ := calls
  have read : (Dict.get params "name").bind Json.str? = name.str? := by rw [named,Option.bind_some]
  simp only [authorize,method,Option.filter,isWellformedMethod_tools_call,if_true,
    normalizeMethod_tools_call u,ne_eq,not_true_eq_false,if_false,given,read]
  cases name with
  | str text =>
    cases text with
    | nil => simp [Json.str?,isWellformedToolName_nil]
    | cons c rest =>
      simp only [Json.str?,Option.some.injEq,exists_eq_left',ToolPolicy.visibleTo]
      cases formed : isWellformedToolName (c::rest) with
      | false => simp
      | true => cases allowed : (policy.evaluate u (c::rest) principal).allowed <;> simp
  | _ => simp [Json.str?]

/-- The caller may call the tool by the exact name under which it is listed. -/
def callable (id tool : Json) : Bool :=
  (tool.dict?.bind fun tool => Dict.get tool "name").any fun name =>
    (authorize u policy (toolCall id name) principal requestId).isNone

theorem callable_iff (id tool : Json) :
    callable u policy principal requestId id tool = true ↔
      visible u policy principal tool = true ∧ (toolName tool).any isWellformedToolName = true := by
  cases tool with
  | obj tool =>
    cases given : Dict.get tool "name" with
    | none => simp [callable,visible,toolName,Json.dict?,given]
    | some name =>
      simp only [callable,visible,toolName,Json.dict?,Option.bind_some,given,Option.any_some,
        Option.isNone_iff_eq_none]
      rw [authorize_call u policy principal requestId (toolCall_calls id name)]
      cases name with
      | str text =>
        simp only [Json.str?,Option.some.injEq,exists_eq_left',Option.any_some]
        exact and_comm
      | _ => simp [Json.str?]
  | _ => simp [callable,visible,Json.dict?]

theorem filter_agrees {α : Type} {keep call : α → Bool} {items : List α}
    (callable : ∀ x ∈ items, call x = true → keep x = true) :
    items.filter keep = items.filter call ↔ ∀ x ∈ items, keep x = true → call x = true := by
  constructor
  · intro same x member kept
    have inside : x ∈ items.filter call := same ▸ List.mem_filter.mpr ⟨member,kept⟩
    exact (List.mem_filter.mp inside).2
  · intro calls
    apply List.filter_congr
    intro x member
    exact Bool.eq_iff_iff.mpr ⟨calls x member,callable x member⟩

theorem listed_filtered {body : Dict} {tools : List Json} (listed : listedTools (.obj body) = some tools) :
    ∃ filtered, filterToolsResponse u policy body principal = .ok filtered ∧
      listedTools (.obj filtered) = some (tools.filter (visible u policy principal)) := by
  cases given : Dict.get body "result" with
  | none => simp [listedTools,Json.dict?,given] at listed
  | some result =>
    cases result with
    | obj result =>
      cases held : Dict.get result "tools" with
      | none => simp [listedTools,Json.dict?,given,held] at listed
      | some value =>
        cases value with
        | arr items =>
          obtain rfl : items = tools := by simpa [listedTools,Json.dict?,given,held] using listed
          refine ⟨_,by simp only [filterToolsResponse,given,Option.getD_some,held]; rfl,?_⟩
          simp [listedTools,Json.dict?]
        | _ => simp [listedTools,Json.dict?,given,held] at listed
    | _ => simp [listedTools,Json.dict?,given] at listed

/-- The filter keeps, in order, exactly the tools that the caller may call by the name listed,
exactly if the policy allows the caller no listed name that is malformed. -/
theorem listing_agrees_with_calling (id : Json) {body : Dict} {tools : List Json}
    (listed : listedTools (.obj body) = some tools) :
    (filterToolsResponse u policy body principal).map (fun body => listedTools (.obj body)) =
        .ok (some (tools.filter (callable u policy principal requestId id))) ↔
      ∀ tool ∈ tools, ∀ name, toolName tool = some name →
        policy.visibleTo u name principal = true → isWellformedToolName name = true := by
  obtain ⟨filtered,answer,kept⟩ := listed_filtered u policy principal listed
  rw [answer,Except.map,kept,Except.ok.injEq,Option.some.injEq,
    filter_agrees fun tool _ called =>
      ((callable_iff u policy principal requestId id tool).mp called).1]
  apply forall₂_congr
  intro tool _
  have named : visible u policy principal tool = true ↔
      ∃ name, toolName tool = some name ∧ policy.visibleTo u name principal = true := by
    cases tool with
    | obj tool =>
      simp only [visible,toolName,Json.dict?,Option.bind_some]
      cases (Dict.get tool "name").bind Json.str? <;> simp
    | _ => simp [visible,toolName,Json.dict?]
  rw [callable_iff,named]
  constructor
  · intro agree name same allowed
    obtain ⟨_,formed⟩ := agree ⟨name,same,allowed⟩
    rwa [same,Option.any_some] at formed
  · rintro agree ⟨name,same,allowed⟩
    refine ⟨⟨name,same,allowed⟩,?_⟩
    rw [same,Option.any_some]
    exact agree name same allowed

def listing (name : String) : Dict :=
  [(lit "result",.obj [(lit "tools",.arr [.obj [(lit "name",.str (lit name))]])])]

/-- The name is well formed, so the viewer is listed what the viewer may call. -/
theorem listing_agrees_with_calling_search :
    (filterToolsResponse asciiUnicode ⟨[(lit "admin_",[lit "admin"])],true⟩ (listing "search")
        viewer).map (fun body => listedTools (.obj body)) =
      .ok (some ([.obj [(lit "name",.str (lit "search"))]].filter
        (callable asciiUnicode ⟨[(lit "admin_",[lit "admin"])],true⟩ viewer (lit "r1") (.int 1)))) := by
  refine (listing_agrees_with_calling asciiUnicode _ viewer (lit "r1") (.int 1) rfl).mpr ?_
  intro tool member name named _
  obtain rfl := List.mem_singleton.mp member
  obtain rfl : lit "search" = name := Option.some.inj named
  decide +kernel

/-- A name with a blank is listed, and every call of it is refused. -/
theorem malformed_name_listed :
    ¬∀ (u : Unicode) (policy : ToolPolicy) (principal : Principal) (requestId : Str) (id : Json)
      (body : Dict) (tools : List Json), listedTools (.obj body) = some tools →
      (filterToolsResponse u policy body principal).map (fun body => listedTools (.obj body)) =
        .ok (some (tools.filter (callable u policy principal requestId id))) := by
  intro every
  have agrees := every asciiUnicode ⟨[(lit "admin_",[lit "admin"])],true⟩ viewer (lit "r1") (.int 1)
    (listing "search docs") [.obj [(lit "name",.str (lit "search docs"))]] rfl
  obtain ⟨filtered,answer,kept⟩ := listed_filtered asciiUnicode
    ⟨[(lit "admin_",[lit "admin"])],true⟩ viewer
    (rfl : listedTools (.obj (listing "search docs")) = some [.obj [(lit "name",.str (lit "search docs"))]])
  rw [answer,Except.map,kept,Except.ok.injEq,Option.some.injEq] at agrees
  have counts := congrArg List.length agrees
  exact absurd counts (by decide +kernel)

end GatewaySuite.Gateway
