import GatewaySuite.Billing.Session
import GatewaySuite.Lib.Isolation

/-! What the customers of one store see of each other. A call reads and changes the record of the
customer it names and the entry of its key; so the keys are the one thing that customers share. -/
namespace GatewaySuite.Billing
open Python Lib

section
variable (sha256 : ByteArray → String) (repr : String → String)

/-- Two stores agree on what a call names. -/
structure Agree (call : RefundCall) (store other : BillingStore) : Prop where
  customer : store.customers call.customerId = other.customers call.customerId
  key : ∀ key, call.key? = some key → store.byIdempotencyKey key = other.byIdempotencyKey key

theorem existing_congr {call : RefundCall} {store other : BillingStore}
    (agree : Agree call store other) : store.existing call = other.existing call := by
  unfold BillingStore.existing
  cases given : call.key? with
  | none => rfl
  | some key => rw [Option.bind_some,Option.bind_some,agree.key key given]

theorem createRefund_congr {call : RefundCall} {store other : BillingStore}
    (agree : Agree call store other) :
    (store.createRefund sha256 repr call).1 = (other.createRefund sha256 repr call).1 := by
  unfold BillingStore.createRefund BillingStore.getCustomer
  rw [existing_congr agree,agree.customer]
  cases other.existing call with
  | some entry =>
    dsimp only
    split_ifs <;> rfl
  | none =>
    cases other.customers call.customerId with
    | none => rfl
    | some customer =>
      dsimp only
      split_ifs <;> rfl

/-- Two stores look the same to some customers, who use these keys. -/
structure Alike (own : String → Bool) (keys : String → Prop) (store other : BillingStore) :
    Prop where
  customers : ∀ id, own id = true → store.customers id = other.customers id
  issued : ∀ key, keys key → store.byIdempotencyKey key = other.byIdempotencyKey key

variable {own : String → Bool} {keys : String → Prop} {call : RefundCall}
  {store other : BillingStore}

theorem createRefund_own (alike : Alike own keys store other) (mine : own call.customerId = true)
    (keyed : ∀ key, call.key? = some key → keys key) :
    (store.createRefund sha256 repr call).1 = (other.createRefund sha256 repr call).1 ∧
      Alike own keys (store.createRefund sha256 repr call).2
        (other.createRefund sha256 repr call).2 := by
  have named := alike.customers call.customerId mine
  have same := createRefund_congr sha256 repr
    ⟨named,fun key given => alike.issued key (keyed key given)⟩
  refine ⟨same,?_⟩
  have first := createRefund_taken sha256 repr store call
  have second := createRefund_taken sha256 repr other call
  rw [← same] at second
  generalize (store.createRefund sha256 repr call).2 = next at first
  generalize (other.createRefund sha256 repr call).2 = next' at second
  generalize (store.createRefund sha256 repr call).1 = result at first second
  cases first with
  | raised error =>
    cases second
    exact alike
  | replayed key refund given issued printed =>
    cases second
    exact alike
  | created customer fresh known active covered =>
    cases second with
    | created customer' fresh' known' active' covered' =>
      rw [named,known'] at known
      cases known
      refine ⟨fun id owned => ?_,fun key used => ?_⟩
      · rw [booked_customers,booked_customers,alike.customers id owned]
      · rw [booked_byIdempotencyKey,booked_byIdempotencyKey,alike.issued key used]

theorem createRefund_other (alike : Alike own keys store other)
    (foreign : own call.customerId = false) (keyed : ∀ key, call.key? = some key → ¬keys key) :
    Alike own keys (store.createRefund sha256 repr call).2 other := by
  have taken := createRefund_taken sha256 repr store call
  generalize (store.createRefund sha256 repr call).2 = next at taken
  generalize (store.createRefund sha256 repr call).1 = result at taken
  cases taken with
  | raised error => exact alike
  | replayed key refund given issued printed => exact alike
  | created customer fresh known active covered =>
    refine ⟨fun id owned => ?_,fun key used => ?_⟩
    · rw [booked_customers,if_neg,alike.customers id owned]
      rintro rfl
      cases owned.symm.trans foreign
    · rw [booked_byIdempotencyKey,if_neg fun given => keyed key given used,alike.issued key used]

end

variable (server : Server)

/-- The customer that a request names, if its arguments are valid. -/
def Server.subject (req : CallToolRequest) : Option String :=
  if req.name = "get_customer_record" then
    match (rawArguments req.arguments).map server.models.getCustomerRecord with
    | some (.ok args) => some args.customerId
    | _ => none
  else (server.accepted req).map RefundCall.customerId

/-- A request that names no customer concerns everybody. -/
def Server.concerns (own : String → Bool) (req : CallToolRequest) : Bool :=
  (server.subject req).all own

theorem handleTriggerRefund_congr (args : TriggerRefundInput server.unicode)
    (refundId createdAt : String) {store other : BillingStore}
    (same : (store.createRefund server.sha256 server.repr
        (server.refundCall args refundId createdAt)).1 =
      (other.createRefund server.sha256 server.repr (server.refundCall args refundId createdAt)).1) :
    (server.handleTriggerRefund args refundId createdAt store).1 =
      (server.handleTriggerRefund args refundId createdAt other).1 := by
  unfold Server.handleTriggerRefund
  generalize store.createRefund server.sha256 server.repr
    (server.refundCall args refundId createdAt) = first at same
  generalize other.createRefund server.sha256 server.repr
    (server.refundCall args refundId createdAt) = second at same
  obtain ⟨result,next⟩ := first
  obtain ⟨_,next'⟩ := second
  cases same
  cases result with
  | ok outcome => rfl
  | error error => cases error <;> rfl

/-- The reply to a request depends on the record it asks for and on what its refund call gives. -/
theorem callTool_congr {req : CallToolRequest} {store other : BillingStore}
    (record : ∀ id, server.subject req = some id → store.customers id = other.customers id)
    (refund : ∀ call, server.accepted req = some call →
      (store.createRefund server.sha256 server.repr call).1 =
        (other.createRefund server.sha256 server.repr call).1) :
    (server.callTool store req).1 = (server.callTool other req).1 := by
  unfold Server.callTool
  by_cases unknown : req.name ∉ TOOLS
  · rw [if_pos unknown,if_pos unknown]
  · rw [if_neg unknown,if_neg unknown]
    cases raw : rawArguments req.arguments with
    | none => rfl
    | some entries =>
      by_cases reads : req.name = "get_customer_record"
      · simp only [if_pos reads]
        cases validated : server.models.getCustomerRecord entries with
        | error errors => rfl
        | ok args =>
          have same := record args.customerId (by
            rw [Server.subject,if_pos reads,raw,Option.map_some,validated])
          simp only [Server.handleGetCustomerRecord,BillingStore.getCustomer,same]
      · have refunds : req.name = "trigger_refund" := by
          simp only [TOOLS,List.mem_cons,List.not_mem_nil,or_false,not_not] at unknown
          exact unknown.resolve_left reads
        simp only [if_neg reads]
        cases validated : server.models.triggerRefund entries with
        | error errors => rfl
        | ok args =>
          have same := refund (server.refundCall args req.refundId req.createdAt) (by
            rw [Server.accepted,if_pos refunds,raw,Option.map_some,validated])
          dsimp only
          rw [handleTriggerRefund_congr server args req.refundId req.createdAt same]

theorem session_replies (store : BillingStore) (requests : List CallToolRequest) :
    server.session store requests = replies server.callTool store requests := by
  induction requests generalizing store with
  | nil => rfl
  | cons req rest ih => rw [Server.session,replies,ih]

/-- No key is used for customers of both sides. -/
def Server.KeysApart (own : String → Bool) (requests : List CallToolRequest) : Prop :=
  ∀ call ∈ requests.filterMap server.accepted, ∀ call' ∈ requests.filterMap server.accepted,
    call.key? = call'.key? → call.key? ≠ none → own call.customerId = own call'.customerId

instance (own : String → Bool) (requests : List CallToolRequest) :
    Decidable (server.KeysApart own requests) :=
  inferInstanceAs (Decidable (∀ call ∈ requests.filterMap server.accepted,
    ∀ call' ∈ requests.filterMap server.accepted, call.key? = call'.key? → call.key? ≠ none →
      own call.customerId = own call'.customerId))

/-- The keys that the requests use for these customers only. -/
def Server.ownKeys (own : String → Bool) (requests : List CallToolRequest) (key : String) : Prop :=
  ∀ call ∈ requests.filterMap server.accepted, call.key? = some key → own call.customerId = true

theorem accepted_subject {req : CallToolRequest} {call : RefundCall}
    (accepted : server.accepted req = some call) : server.subject req = some call.customerId := by
  have refunds := (accepted_some server accepted).1
  rw [Server.subject,if_neg (by rw [refunds]; decide),accepted,Option.map_some]

theorem callTool_other_customer {own : String → Bool} {requests : List CallToolRequest}
    {store other : BillingStore} {req : CallToolRequest} (member : req ∈ requests)
    (alike : Alike own (server.ownKeys own requests) store other)
    (foreign : server.concerns own req = false) :
    Alike own (server.ownKeys own requests) (server.callTool store req).2 other := by
  obtain ⟨_,same,_⟩ | ⟨call,accepted,same,_⟩ := callTool_cases server store req
  · rw [same]
    exact alike
  · rw [Server.concerns,accepted_subject server accepted,Option.all_some] at foreign
    rw [same]
    refine createRefund_other server.sha256 server.repr alike foreign fun key given used => ?_
    cases foreign.symm.trans
      (used call (List.mem_filterMap.mpr ⟨req,member,accepted⟩) given)

theorem callTool_own_customer {own : String → Bool} {requests : List CallToolRequest}
    (apart : server.KeysApart own requests) {store other : BillingStore} {req : CallToolRequest}
    (member : req ∈ requests) (alike : Alike own (server.ownKeys own requests) store other)
    (mine : server.concerns own req = true) :
    (server.callTool store req).1 = (server.callTool other req).1 ∧
      Alike own (server.ownKeys own requests) (server.callTool store req).2
        (server.callTool other req).2 := by
  have named (id : String) (subject : server.subject req = some id) : own id = true := by
    rwa [Server.concerns,subject,Option.all_some] at mine
  have keyed {call : RefundCall} (accepted : server.accepted req = some call) {key : String}
      (given : call.key? = some key) : server.ownKeys own requests key := by
    intro call' asked given'
    rw [← apart call (List.mem_filterMap.mpr ⟨req,member,accepted⟩) call' asked
      (given.trans given'.symm) (by simp [given])]
    exact named call.customerId (accepted_subject server accepted)
  have step (call : RefundCall) (accepted : server.accepted req = some call) :=
    createRefund_own server.sha256 server.repr alike
      (named call.customerId (accepted_subject server accepted)) fun _ => keyed accepted
  refine ⟨callTool_congr server (fun id subject => alike.customers id (named id subject))
    fun call accepted => (step call accepted).1,?_⟩
  obtain ⟨refused,same,_⟩ | ⟨call,accepted,same,_⟩ := callTool_cases server store req
  · obtain ⟨_,same',_⟩ | ⟨call,accepted,_⟩ := callTool_cases server other req
    · rw [same,same']
      exact alike
    · cases refused.symm.trans accepted
  · rw [same,(callTool_accepted server other accepted).1]
    exact (step call accepted).2

/-- In every session, whatever is sent: the requests that concern some customers are answered as
if the others had sent nothing, and leave these customers' records as they then would, provided
that nobody uses another's key. -/
theorem customers_isolated (own : String → Bool) (store : BillingStore)
    (requests : List CallToolRequest) (apart : server.KeysApart own requests) :
    (server.session store requests).filter (fun entry => server.concerns own entry.1) =
        server.session store (requests.filter (server.concerns own)) ∧
      ∀ id, own id = true → (server.served store requests).customers id =
        (server.served store (requests.filter (server.concerns own))).customers id := by
  have start : Alike own (server.ownKeys own requests) store store :=
    ⟨fun _ _ => rfl,fun _ _ => rfl⟩
  obtain ⟨same,alike⟩ := replies_isolated server.callTool (server.concerns own) _
    (fun _ _ _ member alike foreign => callTool_other_customer server member alike foreign)
    (fun _ _ _ member alike mine => callTool_own_customer server apart member alike mine) start
  rw [session_replies,session_replies]
  exact ⟨same,alike.customers⟩

def graceRequest : CallToolRequest :=
  ⟨"trigger_refund",.obj [("customer_id",.str "CUST-10043"),("amount",.float ⟨10000,-1⟩),
    ("reason",.str " Duplicate charge "),("idempotency_key",.str "retry-key-0002")],"RF-5","t5"⟩

def graceAndAda (id : String) : Option Customer :=
  if id = "CUST-10043" then some ⟨"active",150000⟩ else ada id

/-- Both customers are paid 1000.00, and Ada's request is sent again. -/
theorem customers_isolated_two :
    let requests := [adaRequest "RF-1" "t1",graceRequest,adaRequest "RF-2" "t2"]
    let store := BillingStore.opening graceAndAda
    let own := fun id => id == "CUST-10042"
    paid (adaServer.session store requests) = [("CUST-10042",100000),("CUST-10043",100000)] ∧
      (adaServer.session store requests).filter (fun entry => adaServer.concerns own entry.1) =
        adaServer.session store (requests.filter (adaServer.concerns own)) :=
  ⟨by decide +kernel,(customers_isolated adaServer _ _ _ (by decide +kernel)).1⟩

end GatewaySuite.Billing
