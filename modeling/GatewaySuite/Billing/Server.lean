import GatewaySuite.Billing.Idempotency
import GatewaySuite.Billing.Schemas

/-! The billing server's `tools/call`. Its handler takes no step of the event loop, so one
request is served after the other; each carries the `uuid4` and the time a refund would draw. -/
namespace GatewaySuite.Billing
open Python

structure ErrorData where
  code : Int
  message : String
  data : Option Value

def INVALID_PARAMS : Int := -32602

def INTERNAL_ERROR : Int := -32603

def invalidParams (message : String) (data : Value) : ErrorData := ⟨INVALID_PARAMS,message,some data⟩

def internalError : ErrorData := ⟨INTERNAL_ERROR,"Internal server error",none⟩

/-- Only the location, the rule and the message of an error travel. -/
def pydanticErrorPayload (errors : List ErrorDetails) : Value :=
  .obj [("validation_errors",.arr (errors.map fun err => .obj
    [("field",.str (if ".".intercalate err.loc = "" then "(root)" else ".".intercalate err.loc)),
      ("rule",.str err.type),("message",.str err.msg)]))]

structure CallToolResult where
  text : String
  structuredContent : Arguments
  isError : Bool

structure CallToolRequest where
  name : String
  arguments : Value
  refundId : String
  createdAt : String

/-- The fields of a customer that no call changes. -/
structure Profile where
  name : String
  email : String
  plan : String
  lifetimeValueUsd : Int

abbrev Reply := Except ErrorData CallToolResult

/-- `dumps` is `json.dumps(·, indent=2)`. -/
structure Server where
  sha256 : ByteArray → String
  repr : String → String
  dumps : Value → String
  unicode : Unicode
  models : Models unicode
  profiles : String → Profile

def TOOLS : List String := ["get_customer_record","trigger_refund"]

def refundPayload (refund : Refund) (replayed : Bool) : Arguments :=
  [("replayed",.bool replayed),("refund",.obj [("refund_id",.str refund.refundId),
    ("customer_id",.str refund.customerId),("amount_usd",.float (.ofCents refund.amountUsd)),
    ("reason",.str refund.reason),("status",.str refund.status),
    ("created_at",.str refund.createdAt)])]

/-- The arguments as an object; none at all are an empty one. -/
def rawArguments : Value → Option Arguments
  | .null => some []
  | .obj entries => some entries
  | _ => none

/-- A bug is logged in full and answered without detail. -/
def sanitised : Except BillingError CallToolResult → Reply
  | .error _ => .error internalError
  | .ok result => .ok result

namespace Server
variable (server : Server)

def toolError (message : String) (customerId code : String) : CallToolResult :=
  let payload : Arguments :=
    [("ok",.bool false),("error",.str message),("customer_id",.str customerId),("code",.str code)]
  ⟨server.dumps (.obj payload),payload,true⟩

def toolOk (payload : Arguments) : CallToolResult :=
  let body : Arguments := ("ok",.bool true) :: payload
  ⟨server.dumps (.obj body),body,false⟩

/-- What is not caught here is a bug of the server. -/
def handleGetCustomerRecord (args : GetCustomerRecordInput) (store : BillingStore) :
    Except BillingError CallToolResult :=
  match store.getCustomer args.customerId with
  | .error (.CustomerNotFoundError message) =>
    .ok (server.toolError message args.customerId "customer_not_found")
  | .error error => .error error
  | .ok customer =>
    let profile := server.profiles args.customerId
    .ok (server.toolOk [("customer",.obj [("customer_id",.str args.customerId),
      ("name",.str profile.name),("email",.str profile.email),("plan",.str profile.plan),
      ("status",.str customer.status),
      ("lifetime_value_usd",.float (.ofCents profile.lifetimeValueUsd)),
      ("refundable_balance_usd",.float (.ofCents customer.refundableBalanceUsd))])])

def refundCall (args : TriggerRefundInput server.unicode) (refundId createdAt : String) : RefundCall :=
  ⟨args.customerId,args.amount.cents,args.reason,args.idempotencyKey,refundId,createdAt⟩

def handleTriggerRefund (args : TriggerRefundInput server.unicode) (refundId createdAt : String)
    (store : BillingStore) : Except BillingError CallToolResult × BillingStore :=
  let (result,store) := store.createRefund server.sha256 server.repr
    (server.refundCall args refundId createdAt)
  match result with
  | .error (.CustomerNotFoundError message) =>
    (.ok (server.toolError message args.customerId "customer_not_found"),store)
  | .error (.RefundNotPermittedError message) =>
    (.ok (server.toolError message args.customerId "refund_not_permitted"),store)
  | .error (.IdempotencyKeyConflict message) =>
    (.ok (server.toolError message args.customerId "idempotency_key_conflict"),store)
  | .ok (refund,replayed) => (.ok (server.toolOk (refundPayload refund replayed)),store)

def callTool (store : BillingStore) (req : CallToolRequest) : Reply × BillingStore :=
  if req.name ∉ TOOLS then
    (.error (invalidParams ("Unknown tool: " ++ server.repr req.name)
      (.obj [("available_tools",.arr (TOOLS.map .str))])),store)
  else
    match rawArguments req.arguments with
    | none =>
      (.error (invalidParams "params.arguments must be a JSON object"
        (.obj [("received_type",.str req.arguments.typeName)])),store)
    | some raw =>
      let rejected := fun errors => invalidParams
        ("Invalid arguments for tool " ++ server.repr req.name) (pydanticErrorPayload errors)
      if req.name = "get_customer_record" then
        match server.models.getCustomerRecord raw with
        | .error errors => (.error (rejected errors),store)
        | .ok args => (sanitised (server.handleGetCustomerRecord args store),store)
      else
        match server.models.triggerRefund raw with
        | .error errors => (.error (rejected errors),store)
        | .ok args =>
          let (result,store) := server.handleTriggerRefund args req.refundId req.createdAt store
          (sanitised result,store)

def served (store : BillingStore) (requests : List CallToolRequest) : BillingStore :=
  requests.foldl (fun store req => (server.callTool store req).2) store

def session (store : BillingStore) : List CallToolRequest → List (CallToolRequest × Reply)
  | [] => []
  | req::rest =>
    (req,(server.callTool store req).1) :: session (server.callTool store req).2 rest

/-- The call that a request becomes, if its arguments are valid ones of `trigger_refund`. -/
def accepted (req : CallToolRequest) : Option RefundCall :=
  if req.name = "trigger_refund" then
    match (rawArguments req.arguments).map server.models.triggerRefund with
    | some (.ok args) => some (server.refundCall args req.refundId req.createdAt)
    | _ => none
  else none

end Server

/-- What a client reads of a reply: whether the refund is a replay, its customer and its cents. -/
def Reply.refund? : Reply → Option (Bool × String × Int)
  | .error _ => none
  | .ok result =>
    match result.structuredContent.lookup "replayed",result.structuredContent.lookup "refund" with
    | some (.bool replayed),some (.obj refund) =>
      match refund.lookup "customer_id",refund.lookup "amount_usd" with
      | some (.str customerId),some (.float amount) => some (replayed,customerId,amount.cents)
      | _,_ => none
    | _,_ => none

/-- A refund that the client is told is a new one. -/
def Reply.paid? (reply : Reply) : Option (String × Int) :=
  match reply.refund? with
  | some (false,paid) => some paid
  | _ => none

section
variable (server : Server)

theorem toolError_refund (message customerId code : String) :
    Reply.refund? (.ok (server.toolError message customerId code)) = none := rfl

theorem toolOk_refund (refund : Refund) (replayed : Bool) :
    Reply.refund? (.ok (server.toolOk (refundPayload refund replayed))) =
      some (replayed,refund.customerId,refund.amountUsd) := by
  change some (replayed,refund.customerId,(Decimal.ofCents refund.amountUsd).cents) = _
  rw [Decimal.ofCents_cents]

theorem getCustomerRecord_refund (args : GetCustomerRecordInput) (store : BillingStore) :
    Reply.refund? (sanitised (server.handleGetCustomerRecord args store)) = none := by
  unfold Server.handleGetCustomerRecord
  split <;> rfl

theorem callTool_other {req : CallToolRequest} (other : req.name ≠ "trigger_refund")
    (store : BillingStore) :
    (server.callTool store req).2 = store ∧ Reply.refund? (server.callTool store req).1 = none := by
  by_cases unknown : req.name ∉ TOOLS
  · rw [Server.callTool,if_pos unknown]
    exact ⟨rfl,rfl⟩
  · have record : req.name = "get_customer_record" := by
      simp only [TOOLS,List.mem_cons,List.not_mem_nil,or_false,not_not] at unknown
      exact unknown.resolve_right other
    rw [Server.callTool,if_neg unknown]
    cases rawArguments req.arguments with
    | none => exact ⟨rfl,rfl⟩
    | some raw =>
      simp only [if_pos record]
      cases server.models.getCustomerRecord raw with
      | error errors => exact ⟨rfl,rfl⟩
      | ok args => exact ⟨rfl,getCustomerRecord_refund server args store⟩

def Answers (result : Result) (reply : Reply) : Prop :=
  match result with
  | .ok (refund,replayed) => reply = .ok (server.toolOk (refundPayload refund replayed))
  | .error _ => reply.refund? = none

theorem handleTriggerRefund_answers (args : TriggerRefundInput server.unicode)
    (refundId createdAt : String) (store : BillingStore) :
    let created := store.createRefund server.sha256 server.repr
      (server.refundCall args refundId createdAt)
    (server.handleTriggerRefund args refundId createdAt store).2 = created.2 ∧
      Answers server created.1
        (sanitised (server.handleTriggerRefund args refundId createdAt store).1) := by
  unfold Server.handleTriggerRefund
  generalize store.createRefund server.sha256 server.repr
    (server.refundCall args refundId createdAt) = created
  obtain ⟨result,next⟩ := created
  cases result with
  | ok outcome => exact ⟨rfl,rfl⟩
  | error error => cases error <;> exact ⟨rfl,toolError_refund server _ _ _⟩

/-- What a request can do to the store: nothing, or what its refund call does. -/
theorem callTool_cases (store : BillingStore) (req : CallToolRequest) :
    (server.accepted req = none ∧ (server.callTool store req).2 = store ∧
      Reply.refund? (server.callTool store req).1 = none) ∨
    ∃ call, server.accepted req = some call ∧
      (server.callTool store req).2 = (store.createRefund server.sha256 server.repr call).2 ∧
      Answers server (store.createRefund server.sha256 server.repr call).1
        (server.callTool store req).1 := by
  by_cases refunds : req.name = "trigger_refund"
  · have listed : ¬req.name ∉ TOOLS := by
      rw [refunds]
      decide
    have record : req.name ≠ "get_customer_record" := by
      rw [refunds]
      decide
    unfold Server.callTool Server.accepted
    rw [if_neg listed,if_pos refunds]
    cases rawArguments req.arguments with
    | none => exact Or.inl ⟨rfl,rfl,rfl⟩
    | some raw =>
      simp only [Option.map_some,if_neg record]
      cases server.models.triggerRefund raw with
      | error errors => exact Or.inl ⟨rfl,rfl,rfl⟩
      | ok args =>
        exact Or.inr ⟨_,rfl,handleTriggerRefund_answers server args req.refundId req.createdAt store⟩
  · refine Or.inl ⟨?_,callTool_other server refunds store⟩
    rw [Server.accepted,if_neg refunds]

end
end GatewaySuite.Billing
