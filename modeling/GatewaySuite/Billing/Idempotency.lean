import GatewaySuite.Billing.Ledger

/-! An idempotency key is a promise about one request: the key gives one refund to the calls
that repeat the request, an error to the others, and repeats leave no trace. -/
namespace GatewaySuite.Billing
variable (sha256 : ByteArray → String) (repr : String → String)

/-- The index holds the one refund that carries a key. -/
def Indexed (store : BillingStore) : Prop :=
  ∀ key, key ≠ "" →
    (store.refunds.filter fun refund => refund.idempotencyKey = some key) =
      (store.byIdempotencyKey key).toList

theorem existing_none {store : BillingStore} {call : RefundCall} {key : String}
    (fresh : store.existing call = none) (given : call.key? = some key) :
    store.byIdempotencyKey key = none := by
  rw [BillingStore.existing,given] at fresh
  simpa using fresh

theorem taken_indexed {store next : BillingStore} {call : RefundCall} {result : Result}
    (indexed : Indexed store) (taken : Taken sha256 store call result next) : Indexed next := by
  cases taken with
  | raised error => exact indexed
  | replayed key refund mine issued same => exact indexed
  | created customer fresh known active covered =>
    intro key nonempty
    have ledger : (store.booked sha256 call customer).refunds =
        store.refunds ++ [call.refund sha256] := rfl
    rw [ledger,List.filter_append,indexed key nonempty,booked_byIdempotencyKey]
    by_cases given : call.key? = some key
    · rw [existing_none fresh given,if_pos given]
      simp [RefundCall.refund,(RefundCall.key?_iff.mp given).1]
    · have other : call.idempotencyKey ≠ some key := fun same => given (RefundCall.key?_iff.mpr ⟨same,nonempty⟩)
      rw [if_neg given]
      simp [RefundCall.refund,other]

theorem taken_keeps {store next : BillingStore} {call : RefundCall} {result : Result}
    {key : String} {refund : Refund} (taken : Taken sha256 store call result next)
    (issued : store.byIdempotencyKey key = some refund) :
    next.byIdempotencyKey key = some refund := by
  cases taken with
  | raised error => exact issued
  | replayed key refund mine issued' same => exact issued
  | created customer fresh known active covered =>
    rw [booked_byIdempotencyKey]
    split_ifs with given
    · cases (existing_none fresh given).symm.trans issued
    · exact issued

theorem taken_issues {store next : BillingStore} {call : RefundCall} {refund : Refund}
    {replayed : Bool} {key : String} (given : call.key? = some key)
    (taken : Taken sha256 store call (.ok (refund,replayed)) next) :
    next.byIdempotencyKey key = some refund ∧
      refund.requestFingerprint = some (call.fingerprint sha256) := by
  cases taken with
  | replayed own refund mine issued same =>
    cases given.symm.trans mine
    exact ⟨issued,same⟩
  | created customer fresh known active covered =>
    rw [booked_byIdempotencyKey,if_pos given]
    exact ⟨rfl,rfl⟩

theorem final_keeps {store : BillingStore} (calls : List RefundCall) {key : String}
    {refund : Refund} (issued : store.byIdempotencyKey key = some refund) :
    (final sha256 repr store calls).byIdempotencyKey key = some refund :=
  final_invariant sha256 repr (fun after => after.byIdempotencyKey key = some refund)
    (fun held taken => taken_keeps sha256 taken held) issued calls

theorem transcript_issues {store : BillingStore} {calls : List RefundCall} {call : RefundCall}
    {refund : Refund} {replayed : Bool} {key : String} (given : call.key? = some key)
    (succeeded : (call,.ok (refund,replayed)) ∈ transcript sha256 repr store calls) :
    (final sha256 repr store calls).byIdempotencyKey key = some refund ∧
      refund.requestFingerprint = some (call.fingerprint sha256) := by
  induction calls generalizing store with
  | nil => cases succeeded
  | cons first rest ih =>
    rcases List.mem_cons.mp succeeded with here | later
    · rw [Prod.mk.injEq] at here
      obtain ⟨rfl,result⟩ := here
      have taken := createRefund_taken sha256 repr store call
      rw [← result] at taken
      obtain ⟨issued,same⟩ := taken_issues sha256 given taken
      exact ⟨final_keeps sha256 repr rest issued,same⟩
    · exact ih later

theorem createRefund_conflict {store : BillingStore} {call : RefundCall} {key : String}
    {refund : Refund} (given : call.key? = some key)
    (issued : store.byIdempotencyKey key = some refund)
    (other : refund.requestFingerprint ≠ some (call.fingerprint sha256)) :
    ∃ message, (store.createRefund sha256 repr call).1 = .error (.IdempotencyKeyConflict message) := by
  have found : store.existing call = some (key,refund) := by simp [BillingStore.existing,given,issued]
  simp [BillingStore.createRefund,found,other]

theorem createRefund_replay {store : BillingStore} {call : RefundCall} {key : String}
    {refund : Refund} (given : call.key? = some key)
    (issued : store.byIdempotencyKey key = some refund)
    (same : refund.requestFingerprint = some (call.fingerprint sha256)) :
    store.createRefund sha256 repr call = (.ok (refund,true),store) := by
  have found : store.existing call = some (key,refund) := by simp [BillingStore.existing,given,issued]
  simp [BillingStore.createRefund,found,same]

theorem createRefund_raised {store : BillingStore} {call : RefundCall} {error : BillingError}
    (raised : (store.createRefund sha256 repr call).1 = .error error) :
    (store.createRefund sha256 repr call).2 = store := by
  have taken := createRefund_taken sha256 repr store call
  rw [raised] at taken
  generalize (store.createRefund sha256 repr call).2 = next at taken
  cases taken
  rfl

/-- The same request under the same key. -/
def RefundCall.Repeats (again first : RefundCall) : Prop :=
  again.customerId = first.customerId ∧ again.amountUsd = first.amountUsd ∧
    again.reason = first.reason ∧ again.idempotencyKey = first.idempotencyKey

/-- Calls among which the marked ones repeat a keyed call that succeeded before them. -/
inductive Padded (store : BillingStore) : List (Bool × RefundCall) → Prop
  | nil : Padded store []
  | call (front : List (Bool × RefundCall)) (call : RefundCall) (before : Padded store front) :
      Padded store (front ++ [(false,call)])
  | again (front : List (Bool × RefundCall)) (first again : RefundCall) (key : String)
      (refund : Refund) (replayed : Bool) (before : Padded store front)
      (given : first.key? = some key)
      (succeeded : (first,.ok (refund,replayed)) ∈
        transcript sha256 repr store (front.map Prod.snd))
      (repeats : again.Repeats first) : Padded store (front ++ [(true,again)])

def unmarked {α : Type} (entries : List (Bool × α)) : List α :=
  (entries.filter fun entry => !entry.1).map Prod.snd

theorem unmarked_append {α : Type} (first second : List (Bool × α)) :
    unmarked (first ++ second) = unmarked first ++ unmarked second := by simp [unmarked]

theorem transcript_length (store : BillingStore) (calls : List RefundCall) :
    (transcript sha256 repr store calls).length = calls.length := by
  induction calls generalizing store with
  | nil => rfl
  | cons call rest ih => rw [transcript,List.length_cons,ih,List.length_cons]

def markedTranscript (store : BillingStore) (entries : List (Bool × RefundCall)) :
    List (Bool × (RefundCall × Result)) :=
  (entries.map Prod.fst).zip (transcript sha256 repr store (entries.map Prod.snd))

theorem markedTranscript_append (store : BillingStore) (front : List (Bool × RefundCall))
    (marked : Bool) (call : RefundCall) :
    markedTranscript sha256 repr store (front ++ [(marked,call)]) =
      markedTranscript sha256 repr store front ++ [(marked,call,
        ((final sha256 repr store (front.map Prod.snd)).createRefund sha256 repr call).1)] := by
  unfold markedTranscript
  rw [List.map_append,List.map_append,transcript_append,List.zip_append]
  · rfl
  · rw [transcript_length,List.length_map,List.length_map]

/-- Repeats change neither the store nor the result of any other call. -/
theorem padded_unmarked {store : BillingStore} {entries : List (Bool × RefundCall)}
    (padded : Padded sha256 repr store entries) :
    final sha256 repr store (entries.map Prod.snd) = final sha256 repr store (unmarked entries) ∧
      unmarked (markedTranscript sha256 repr store entries) =
        transcript sha256 repr store (unmarked entries) := by
  induction padded with
  | nil => exact ⟨rfl,rfl⟩
  | call front call before ih =>
    obtain ⟨same,others⟩ := ih
    have last : unmarked [(false,call)] = [call] := rfl
    rw [unmarked_append,last,List.map_append,final_append,final_append,markedTranscript_append,
      unmarked_append,transcript_append,others,same]
    exact ⟨rfl,rfl⟩
  | again front first again key refund replayed before given succeeded repeats ih =>
    obtain ⟨same,others⟩ := ih
    obtain ⟨customer,amount,reason,keyed⟩ := repeats
    obtain ⟨issued,printed⟩ := transcript_issues sha256 repr given succeeded
    have given' : again.key? = some key := by rwa [RefundCall.key?,keyed]
    have printed' : refund.requestFingerprint = some (again.fingerprint sha256) := by
      rw [printed,RefundCall.fingerprint,RefundCall.fingerprint,customer,amount,reason]
    have replay := createRefund_replay sha256 repr given' issued printed'
    have last : unmarked [(true,again)] = [] := rfl
    rw [unmarked_append,last,List.append_nil,List.map_append,final_append,markedTranscript_append,
      unmarked_append,others]
    constructor
    · rw [← same]
      exact congrArg Prod.snd replay
    · exact List.append_nil _

theorem transcript_split {store : BillingStore} {calls : List RefundCall}
    {before after : List (RefundCall × Result)} {call : RefundCall} {result : Result}
    (split : transcript sha256 repr store calls = before ++ (call,result)::after) :
    ∃ front back, calls = front ++ call::back ∧ before = transcript sha256 repr store front ∧
      result = ((final sha256 repr store front).createRefund sha256 repr call).1 := by
  induction calls generalizing store before with
  | nil => simp [transcript] at split
  | cons first rest ih =>
    rw [transcript] at split
    cases before with
    | nil =>
      obtain ⟨here,_⟩ := List.cons_eq_cons.mp split
      rw [Prod.mk.injEq] at here
      obtain ⟨rfl,rfl⟩ := here
      exact ⟨[],rest,rfl,rfl,rfl⟩
    | cons entry before =>
      obtain ⟨rfl,later⟩ := List.cons_eq_cons.mp split
      obtain ⟨front,back,rfl,rfl,rfl⟩ := ih later
      exact ⟨first::front,back,rfl,rfl,rfl⟩

theorem same_request {sha256 : ByteArray → String} (collisionFree : Function.Injective sha256)
    {call call' : RefundCall} (formed : isCustomerId call.customerId = true)
    (formed' : isCustomerId call'.customerId = true)
    (same : call.fingerprint sha256 = call'.fingerprint sha256) :
    call.customerId = call'.customerId ∧ call.amountUsd = call'.amountUsd ∧
      call.reason = call'.reason :=
  fingerprint_injective collisionFree (customerId_no_bar formed) (customerId_no_bar formed') same

theorem transcript_calls {store : BillingStore} {calls : List RefundCall} {call : RefundCall}
    {result : Result} (member : (call,result) ∈ transcript sha256 repr store calls) :
    call ∈ calls := by
  obtain ⟨before,after,split⟩ := List.append_of_mem member
  obtain ⟨front,back,rfl,_⟩ := transcript_split sha256 repr split
  simp

/-- In every sequence of calls from a store without refunds: a key has at most one refund; the
calls that succeed with it make the same request and return that refund; a later call with
it that makes another request raises a conflict; a call that raises leaves the store; and
repeats of keyed calls that have succeeded change neither the store nor any other result. -/
theorem key_promises_one_request (collisionFree : Function.Injective sha256)
    (customers : String → Option Customer) (calls : List RefundCall)
    (formed : ∀ call ∈ calls, isCustomerId call.customerId = true) :
    let start := BillingStore.opening customers
    let store := final sha256 repr start calls
    let entries := transcript sha256 repr start calls
    (∀ key, key ≠ "" →
      (store.refunds.filter fun refund => refund.idempotencyKey = some key).length ≤ 1) ∧
    (∀ key call call' refund refund' replayed replayed', call.key? = some key →
      call'.key? = some key → (call,.ok (refund,replayed)) ∈ entries →
      (call',.ok (refund',replayed')) ∈ entries →
      (call.customerId = call'.customerId ∧ call.amountUsd = call'.amountUsd ∧
        call.reason = call'.reason) ∧ refund = refund' ∧
        (store.refunds.filter fun refund => refund.idempotencyKey = some key) = [refund]) ∧
    (∀ key before call after call' result refund replayed,
      entries = before ++ (call',result)::after → (call,.ok (refund,replayed)) ∈ before →
      call.key? = some key → call'.key? = some key →
      ¬(call.customerId = call'.customerId ∧ call.amountUsd = call'.amountUsd ∧
        call.reason = call'.reason) →
      ∃ message, result = .error (.IdempotencyKeyConflict message)) ∧
    (∀ front call back error, calls = front ++ call::back →
      ((final sha256 repr start front).createRefund sha256 repr call).1 = .error error →
      final sha256 repr start (front ++ [call]) = final sha256 repr start front) ∧
    ∀ padded, Padded sha256 repr start padded → unmarked padded = calls →
      final sha256 repr start (padded.map Prod.snd) = store ∧
        unmarked (markedTranscript sha256 repr start padded) = entries := by
  intro start store entries
  have indexed : Indexed store := by
    apply final_invariant sha256 repr Indexed (taken_indexed sha256) _ calls
    intro key _
    rfl
  refine ⟨?_,?_,?_,?_,?_⟩
  · intro key nonempty
    rw [indexed key nonempty]
    exact Option.length_toList_le
  · intro key call call' refund refund' replayed replayed' given given' member member'
    obtain ⟨issued,printed⟩ := transcript_issues sha256 repr given member
    obtain ⟨issued',printed'⟩ := transcript_issues sha256 repr given' member'
    cases issued.symm.trans issued'
    have same : call.fingerprint sha256 = call'.fingerprint sha256 :=
      Option.some.inj (printed.symm.trans printed')
    refine ⟨same_request collisionFree (formed call (transcript_calls sha256 repr member))
      (formed call' (transcript_calls sha256 repr member')) same,rfl,?_⟩
    rw [indexed key (RefundCall.key?_iff.mp given).2,show store.byIdempotencyKey key = _ from issued]
    rfl
  · intro key before call after call' result refund replayed split member given given' other
    obtain ⟨front,back,whole,rfl,rfl⟩ := transcript_split sha256 repr split
    obtain ⟨issued,printed⟩ := transcript_issues sha256 repr given member
    apply createRefund_conflict sha256 repr given' issued
    intro same
    apply other
    have first : call ∈ calls := by
      rw [whole]
      exact List.mem_append_left _ (transcript_calls sha256 repr member)
    exact same_request collisionFree (formed call first) (formed call' (by simp [whole]))
      (Option.some.inj (printed.symm.trans same))
  · intro front call back error _ raised
    rw [final_append]
    exact createRefund_raised sha256 repr raised
  · rintro padded inserted rfl
    exact padded_unmarked sha256 repr inserted

def adaCall (amountUsd : Int) (refundId : String) : RefundCall :=
  ⟨"CUST-10042",amountUsd,"Duplicate charge on the invoice",some "retry-key-0001",refundId,"t1"⟩

/-- A keyed refund, its replay, and another amount under the key. -/
theorem key_promises_one_request_ada :
    ∃ refund message, transcript sampleSha256 id (BillingStore.opening ada)
        [adaCall 100000 "RF-1",adaCall 100000 "RF-2",adaCall 5000 "RF-3"] =
      [(adaCall 100000 "RF-1",.ok (refund,false)),(adaCall 100000 "RF-2",.ok (refund,true)),
        (adaCall 5000 "RF-3",.error (.IdempotencyKeyConflict message))] := by
  obtain ⟨_,same,conflict,_⟩ := key_promises_one_request sampleSha256 id sampleSha256_injective ada
    [adaCall 100000 "RF-1",adaCall 100000 "RF-2",adaCall 5000 "RF-3"] (by decide)
  have shape : (transcript sampleSha256 id (BillingStore.opening ada)
      [adaCall 100000 "RF-1",adaCall 100000 "RF-2",adaCall 5000 "RF-3"]).map
        (fun entry => (entry.1,entry.2.toOption.map Prod.snd)) =
      [(adaCall 100000 "RF-1",some false),(adaCall 100000 "RF-2",some true),
        (adaCall 5000 "RF-3",none)] := by decide +kernel
  generalize transcript sampleSha256 id (BillingStore.opening ada)
    [adaCall 100000 "RF-1",adaCall 100000 "RF-2",adaCall 5000 "RF-3"] = entries at *
  obtain ⟨⟨_,first⟩,_,rfl,one,shape⟩ := List.map_eq_cons_iff.mp shape
  obtain ⟨⟨_,second⟩,_,rfl,two,shape⟩ := List.map_eq_cons_iff.mp shape
  obtain ⟨⟨_,third⟩,rest,rfl,three,shape⟩ := List.map_eq_cons_iff.mp shape
  obtain rfl := List.map_eq_nil_iff.mp shape
  rcases first with _ | ⟨refund,replayed⟩
  · simp [Except.toOption] at one
  rcases second with _ | ⟨refund',replayed'⟩
  · simp [Except.toOption] at two
  simp only [Except.toOption,Option.map_some,Prod.mk.injEq,Option.some.injEq] at one two three
  obtain ⟨rfl,rfl⟩ := one
  obtain ⟨rfl,rfl⟩ := two
  obtain ⟨rfl,_⟩ := three
  obtain ⟨_,rfl,_⟩ := same "retry-key-0001" (adaCall 100000 "RF-1") (adaCall 100000 "RF-2") refund
    refund' false true (by decide) (by decide) (by simp) (by simp)
  obtain ⟨message,rfl⟩ := conflict "retry-key-0001" [_,_] _ [] _ third refund false rfl
    List.mem_cons_self (by decide) (by decide) (by decide)
  exact ⟨refund,message,rfl⟩

end GatewaySuite.Billing
