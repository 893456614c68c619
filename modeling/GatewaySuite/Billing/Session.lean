import GatewaySuite.Billing.Server

/-! Whole sessions of the billing server, whatever the client sends: the ledger is what the
replies say, it holds valid refunds only, and a request that is sent again is not paid again. -/
namespace GatewaySuite.Billing
open Python
variable (server : Server)

theorem served_append (store : BillingStore) (first second : List CallToolRequest) :
    server.served store (first ++ second) = server.served (server.served store first) second := by
  simp [Server.served]

/-- The store sees the accepted refund calls only. -/
theorem served_final (store : BillingStore) (requests : List CallToolRequest) :
    server.served store requests =
      final server.sha256 server.repr store (requests.filterMap server.accepted) := by
  induction requests generalizing store with
  | nil => rfl
  | cons req rest ih =>
    have next : server.served store (req::rest) =
        server.served (server.callTool store req).2 rest := rfl
    rw [next,ih]
    obtain ⟨refused,same,_⟩ | ⟨call,accepted,same,_⟩ := callTool_cases server store req
    · rw [same,List.filterMap_cons_none refused]
    · rw [same,List.filterMap_cons_some accepted]
      rfl

/-- One request adds to the refunds what its reply says, and leaves the store if it says nothing. -/
theorem callTool_paid (store : BillingStore) (req : CallToolRequest) :
    (server.callTool store req).2.refunds.map (fun refund => (refund.customerId,refund.amountUsd)) =
        store.refunds.map (fun refund => (refund.customerId,refund.amountUsd)) ++
          (Reply.paid? (server.callTool store req).1).toList ∧
      (Reply.paid? (server.callTool store req).1 = none → (server.callTool store req).2 = store) := by
  obtain ⟨_,same,silent⟩ | ⟨call,_,same,answers⟩ := callTool_cases server store req
  · rw [same,Reply.paid?,silent]
    exact ⟨(List.append_nil _).symm,fun _ => rfl⟩
  · have taken := createRefund_taken server.sha256 server.repr store call
    rw [same]
    generalize (store.createRefund server.sha256 server.repr call).2 = next at taken
    generalize (store.createRefund server.sha256 server.repr call).1 = result at taken answers
    cases taken with
    | raised error =>
      have silent : Reply.refund? (server.callTool store req).1 = none := answers
      rw [Reply.paid?,silent]
      exact ⟨(List.append_nil _).symm,fun _ => rfl⟩
    | replayed key refund mine issued printed =>
      rw [show (server.callTool store req).1 = _ from answers,Reply.paid?,toolOk_refund]
      exact ⟨(List.append_nil _).symm,fun _ => rfl⟩
    | created customer fresh known active covered =>
      rw [show (server.callTool store req).1 = _ from answers,Reply.paid?,toolOk_refund]
      refine ⟨?_,fun absent => by cases absent⟩
      simp [BillingStore.booked,RefundCall.refund]

/-- What the client was told is paid, in the order of the replies. -/
def paid (session : List (CallToolRequest × Reply)) : List (String × Int) :=
  session.filterMap fun entry => entry.2.paid?

theorem session_paid (store : BillingStore) (requests : List CallToolRequest) :
    (server.served store requests).refunds.map (fun refund => (refund.customerId,refund.amountUsd)) =
      store.refunds.map (fun refund => (refund.customerId,refund.amountUsd)) ++
        paid (server.session store requests) := by
  induction requests generalizing store with
  | nil => exact (List.append_nil _).symm
  | cons req rest ih =>
    have next : server.served store (req::rest) =
        server.served (server.callTool store req).2 rest := rfl
    rw [next,ih,(callTool_paid server store req).1,List.append_assoc,Server.session,paid,paid]
    congr 1
    rw [List.filterMap_cons]
    cases Reply.paid? (server.callTool store req).1 <;> rfl

theorem refunded_paid (refunds : List Refund) (id : String) :
    refunded refunds id =
      (((refunds.map fun refund => (refund.customerId,refund.amountUsd)).filter
        fun entry => entry.1 = id).map Prod.snd).sum := by
  rw [refunded,List.filter_map,List.map_map]
  rfl

/-- In every session from a store without refunds: the ledger is what the replies say is paid,
each balance is the initial one less what its customer was paid, and not negative; and a
request whose reply does not say that it paid leaves the store. -/
theorem session_conserves_money (customers : String → Option Customer)
    (funded : ∀ id customer, customers id = some customer → 0 ≤ customer.refundableBalanceUsd)
    (requests : List CallToolRequest) :
    let start := BillingStore.opening customers
    let store := server.served start requests
    let payments := paid (server.session start requests)
    store.refunds.map (fun refund => (refund.customerId,refund.amountUsd)) = payments ∧
    (∀ id, (store.customers id).map Customer.refundableBalanceUsd =
      (customers id).map fun customer => customer.refundableBalanceUsd -
        ((payments.filter fun entry => entry.1 = id).map Prod.snd).sum) ∧
    (∀ id customer, store.customers id = some customer → 0 ≤ customer.refundableBalanceUsd) ∧
    ∀ before req after, requests = before ++ req::after →
      Reply.paid? (server.callTool (server.served start before) req).1 = none →
      server.served start (before ++ [req]) = server.served start before := by
  intro start store payments
  have ledger : store.refunds.map (fun refund => (refund.customerId,refund.amountUsd)) = payments :=
    session_paid server start requests
  have conserved : Conserved customers store := by
    rw [show store = _ from served_final server start requests]
    exact final_invariant server.sha256 server.repr (Conserved customers)
      (taken_conserved server.sha256) (opening_conserved funded) _
  refine ⟨ledger,?_,conserved.covered,?_⟩
  · intro id
    rw [conserved.balances id,Option.map_map,refunded_paid,ledger]
    rfl
  · intro before req after _ silent
    rw [served_append]
    exact (callTool_paid server _ req).2 silent

/-- The checks of a keyed refund, for texts in ASCII. -/
def checkedRefund (customerId : String) (amount : Decimal) (reason key : String) :
    Except (List ErrorDetails) (TriggerRefundInput asciiUnicode) :=
  match passed : reasonIsSubstantive asciiUnicode reason with
  | .error message =>
    .error [⟨["reason"],"value_error","Value error, " ++ message,.str reason⟩]
  | .ok stripped =>
    if formed : isCustomerId customerId = true then
      if fits : (0 < amount.value ∧ amount.value ≤ MAX_REFUND_AMOUNT) ∧
          -2 ≤ amount.normalize.exponent ∧
          (MIN_REASON_LENGTH ≤ reason.length ∧ reason.length ≤ MAX_REASON_LENGTH) ∧
          8 ≤ key.length ∧ key.length ≤ 64 then
        .ok ⟨customerId,amount,stripped,some key,formed,fits.1.1,fits.1.2,
          if_neg (not_lt.mpr fits.2.1),⟨reason,fits.2.2.1.1,fits.2.2.1.2,passed⟩,by
            rintro _ ⟨⟩
            exact fits.2.2.2⟩
      else .error [⟨["amount"],"value_error","Value error",.float amount⟩]
    else .error [⟨["customer_id"],"string_pattern_mismatch","String should match pattern",
      .str customerId⟩]

def checkedModels : Models asciiUnicode where
  getCustomerRecord := fun _ => .error []
  triggerRefund := fun raw =>
    match raw.lookup "customer_id",raw.lookup "amount",raw.lookup "reason",
      raw.lookup "idempotency_key" with
    | some (.str customerId),some (.float amount),some (.str reason),some (.str key) =>
      checkedRefund customerId amount reason key
    | _,_,_,_ => .error [⟨["amount"],"missing","Field required",.obj raw⟩]

def adaServer : Server :=
  ⟨sampleSha256,id,fun _ => "",asciiUnicode,checkedModels,fun _ => ⟨"Ada","ada","enterprise",4825000⟩⟩

def adaRequest (refundId createdAt : String) : CallToolRequest :=
  ⟨"trigger_refund",.obj [("customer_id",.str "CUST-10042"),("amount",.float ⟨10000,-1⟩),
    ("reason",.str " Duplicate charge "),("idempotency_key",.str "retry-key-0001")],refundId,createdAt⟩

/-- A refund of 1000.00, the same again, a tool that is not there, and a list for an object. -/
def adaRequests : List CallToolRequest :=
  [adaRequest "RF-1" "t1",adaRequest "RF-2" "t2",⟨"close_account",.null,"RF-3","t3"⟩,
    ⟨"trigger_refund",.arr [],"RF-4","t4"⟩]

theorem ada_funded (id : String) (customer : Customer) (known : ada id = some customer) :
    0 ≤ customer.refundableBalanceUsd := by
  unfold ada at known
  split_ifs at known
  cases known
  decide

theorem session_conserves_money_ada :
    paid (adaServer.session (BillingStore.opening ada) adaRequests) = [("CUST-10042",100000)] ∧
      ∀ id, ((adaServer.served (BillingStore.opening ada) adaRequests).customers id).map
          Customer.refundableBalanceUsd =
        (ada id).map fun customer => customer.refundableBalanceUsd -
          (((paid (adaServer.session (BillingStore.opening ada) adaRequests)).filter
            fun entry => entry.1 = id).map Prod.snd).sum :=
  ⟨by decide +kernel,(session_conserves_money adaServer ada ada_funded adaRequests).2.1⟩

def CallToolRequest.Resends (again first : CallToolRequest) : Prop :=
  again.name = first.name ∧ again.arguments = first.arguments

theorem accepted_some {req : CallToolRequest} {call : RefundCall}
    (accepted : server.accepted req = some call) :
    req.name = "trigger_refund" ∧ ∃ raw args, rawArguments req.arguments = some raw ∧
      server.models.triggerRefund raw = .ok args ∧
      call = server.refundCall args req.refundId req.createdAt := by
  unfold Server.accepted at accepted
  split_ifs at accepted with refunds
  cases raw : rawArguments req.arguments with
  | none =>
    rw [raw] at accepted
    cases accepted
  | some entries =>
    rw [raw,Option.map_some] at accepted
    cases validated : server.models.triggerRefund entries with
    | error errors =>
      rw [validated] at accepted
      cases accepted
    | ok args =>
      rw [validated] at accepted
      cases accepted
      exact ⟨refunds,entries,args,rfl,validated,rfl⟩

theorem accepted_resends {first again : CallToolRequest} {call : RefundCall}
    (resends : again.Resends first) (accepted : server.accepted first = some call) :
    ∃ call', server.accepted again = some call' ∧ call'.Repeats call := by
  obtain ⟨refunds,raw,args,same,validated,rfl⟩ := accepted_some server accepted
  refine ⟨server.refundCall args again.refundId again.createdAt,?_,rfl,rfl,rfl,rfl⟩
  rw [Server.accepted,resends.1,resends.2,if_pos refunds,same,Option.map_some,validated]

theorem callTool_accepted (store : BillingStore) {req : CallToolRequest} {call : RefundCall}
    (accepted : server.accepted req = some call) :
    (server.callTool store req).2 = (store.createRefund server.sha256 server.repr call).2 ∧
      Answers server (store.createRefund server.sha256 server.repr call).1
        (server.callTool store req).1 := by
  obtain ⟨refused,_⟩ | ⟨other,same,result⟩ := callTool_cases server store req
  · rw [accepted] at refused
    cases refused
  · cases accepted.symm.trans same
    exact result

/-- A keyed refund whose request is sent again, at any later time of any session, is answered
with the same refund as a replay, and the store stays as it is. -/
theorem retry_replays {store : BillingStore} {before between : List CallToolRequest}
    {first again : CallToolRequest} {call : RefundCall} {key : String} {seen : Bool × String × Int}
    (accepted : server.accepted first = some call) (keyed : call.key? = some key)
    (paid : Reply.refund? (server.callTool (server.served store before) first).1 = some seen)
    (resends : again.Resends first) :
    let now := server.served store (before ++ first::between)
    ∃ refund replayed,
      (server.callTool (server.served store before) first).1 =
        .ok (server.toolOk (refundPayload refund replayed)) ∧
      server.callTool now again = (.ok (server.toolOk (refundPayload refund true)),now) := by
  intro now
  obtain ⟨next,answers⟩ := callTool_accepted server (server.served store before) accepted
  obtain ⟨call',accepted',customer,amount,reason,same⟩ := accepted_resends server resends accepted
  have taken := createRefund_taken server.sha256 server.repr (server.served store before) call
  rw [← next] at taken
  cases outcome : ((server.served store before).createRefund server.sha256 server.repr call).1 with
  | error error =>
    rw [outcome] at answers
    rw [show Reply.refund? _ = none from answers] at paid
    cases paid
  | ok result =>
    obtain ⟨refund,replayed⟩ := result
    rw [outcome] at answers taken
    obtain ⟨issued,printed⟩ := taken_issues server.sha256 keyed taken
    have kept : now.byIdempotencyKey key = some refund := by
      rw [show now = server.served (server.callTool (server.served store before) first).2 between by
        rw [show now = _ from served_append server store before (first::between)]
        rfl,served_final]
      exact final_keeps server.sha256 server.repr _ issued
    have keyed' : call'.key? = some key := by rwa [RefundCall.key?,same]
    have printed' : refund.requestFingerprint = some (call'.fingerprint server.sha256) := by
      rw [printed,RefundCall.fingerprint,RefundCall.fingerprint,customer,amount,reason]
    have replay := createRefund_replay server.sha256 server.repr keyed' kept printed'
    obtain ⟨stays,replies⟩ := callTool_accepted server now accepted'
    rw [replay] at stays replies
    exact ⟨refund,replayed,answers,Prod.ext replies stays⟩

theorem retry_replays_ada :
    let now := adaServer.served (BillingStore.opening ada)
      (adaRequest "RF-1" "t1"::[⟨"close_account",.null,"RF-3","t3"⟩])
    ∃ refund, adaServer.callTool now (adaRequest "RF-2" "t2") =
      (.ok (adaServer.toolOk (refundPayload refund true)),now) := by
  have answered : (adaServer.accepted (adaRequest "RF-1" "t1")).any
      (fun call => call.key? = some "retry-key-0001") = true ∧
      Reply.refund? (adaServer.callTool (BillingStore.opening ada) (adaRequest "RF-1" "t1")).1 =
        some (false,"CUST-10042",100000) := by decide +kernel
  obtain ⟨call,accepted,keyed⟩ := (Option.any_eq_true ..).mp answered.1
  obtain ⟨refund,_,_,again⟩ := @retry_replays adaServer _ [] _ _ (adaRequest "RF-2" "t2") _ _ _
    accepted (of_decide_eq_true keyed) answered.2 ⟨rfl,rfl⟩
  exact ⟨refund,again⟩

/-- A refund with what its request was checked for. -/
structure Refund.Valid (refund : Refund) : Prop where
  customer : isCustomerId refund.customerId = true
  positive : 0 < refund.amountUsd
  capped : refund.amountUsd ≤ 1000000
  reason : MIN_REASON_LENGTH ≤ refund.reason.length ∧ refund.reason.length ≤ MAX_REASON_LENGTH ∧
    strip server.unicode refund.reason = refund.reason
  key : ∀ key ∈ refund.idempotencyKey, 8 ≤ key.length ∧ key.length ≤ 64
  status : refund.status = "pending_settlement"
  fingerprint : refund.requestFingerprint =
    some (Billing.fingerprint server.sha256 refund.customerId refund.amountUsd refund.reason)

theorem accepted_valid {req : CallToolRequest} {call : RefundCall}
    (accepted : server.accepted req = some call) :
    Refund.Valid server (call.refund server.sha256) := by
  obtain ⟨_,raw,args,_,_,rfl⟩ := accepted_some server accepted
  obtain ⟨_,positive,capped⟩ := input_cents args
  exact ⟨args.pattern,positive,capped,input_reason args,args.keyLength,rfl,rfl⟩

theorem callTool_valid {store : BillingStore} (req : CallToolRequest)
    (valid : ∀ refund ∈ store.refunds, refund.Valid server) :
    ∀ refund ∈ (server.callTool store req).2.refunds, refund.Valid server := by
  obtain ⟨_,same,_⟩ | ⟨call,accepted,same,_⟩ := callTool_cases server store req
  · rwa [same]
  · rw [same]
    have taken := createRefund_taken server.sha256 server.repr store call
    generalize (store.createRefund server.sha256 server.repr call).2 = next at taken
    generalize (store.createRefund server.sha256 server.repr call).1 = result at taken
    cases taken with
    | raised error => exact valid
    | replayed key refund mine issued printed => exact valid
    | created customer fresh known active covered =>
      intro refund member
      obtain old | new := List.mem_append.mp member
      · exact valid refund old
      · rw [List.mem_singleton.mp new]
        exact accepted_valid server accepted

theorem served_valid {store : BillingStore} (requests : List CallToolRequest)
    (valid : ∀ refund ∈ store.refunds, refund.Valid server) :
    ∀ refund ∈ (server.served store requests).refunds, refund.Valid server := by
  induction requests generalizing store with
  | nil => exact valid
  | cons req rest ih => exact ih (callTool_valid server req valid)

/-- Whatever was sent, the ledger holds valid refunds only, and a key at most one of them. -/
theorem ledger_valid (customers : String → Option Customer) (requests : List CallToolRequest) :
    let store := server.served (BillingStore.opening customers) requests
    (∀ refund ∈ store.refunds, refund.Valid server) ∧
    ∀ key, (store.refunds.filter fun refund => refund.idempotencyKey = some key).length ≤ 1 := by
  intro store
  have valid : ∀ refund ∈ store.refunds, refund.Valid server :=
    served_valid server requests (by simp [BillingStore.opening])
  refine ⟨valid,fun key => ?_⟩
  by_cases empty : key = ""
  · subst key
    rw [List.filter_eq_nil_iff.mpr]
    · exact Nat.zero_le 1
    · intro refund member keyed
      have long := ((valid refund member).key "" (by simpa using keyed)).1
      exact absurd long (by decide)
  · have indexed : Indexed store := by
      rw [show store = _ from served_final server _ requests]
      exact final_invariant server.sha256 server.repr Indexed (taken_indexed server.sha256)
        (fun _ _ => rfl) _
    rw [indexed key empty]
    exact Option.length_toList_le

end GatewaySuite.Billing
