import Mathlib.Data.List.Basic
import Mathlib.Logic.Function.Basic
import Mathlib.Tactic.Common

/-! The billing store. Amounts are whole cents, which `round(·, 2)` leaves alone; texts are
Unicode strings, as the schema admits no lone surrogates. `sha256` gives the hex digest of
some bytes, and `repr` is Python's for strings. -/
namespace GatewaySuite.Billing

inductive BillingError where
  | CustomerNotFoundError (message : String)
  | RefundNotPermittedError (message : String)
  | IdempotencyKeyConflict (message : String)
deriving DecidableEq

/-- The parts of a customer that `create_refund` reads. -/
structure Customer where
  status : String
  refundableBalanceUsd : Int
deriving DecidableEq

structure Refund where
  refundId : String
  customerId : String
  amountUsd : Int
  reason : String
  status : String
  createdAt : String
  idempotencyKey : Option String
  requestFingerprint : Option String
deriving DecidableEq

structure BillingStore where
  customers : String → Option Customer
  refunds : List Refund
  byIdempotencyKey : String → Option Refund

/-- The arguments of a call, with the `uuid4` and the time that it would draw. -/
structure RefundCall where
  customerId : String
  amountUsd : Int
  reason : String
  idempotencyKey : Option String
  refundId : String
  createdAt : String
deriving DecidableEq

abbrev Result := Except BillingError (Refund × Bool)

/-- `f"{amount:.2f}"` -/
def format2 (cents : Int) : String :=
  String.ofList ((if cents < 0 then ['-'] else []) ++ Nat.toDigits 10 (cents.natAbs / 100) ++
    ['.',Nat.digitChar (cents.natAbs / 10 % 10),Nat.digitChar (cents.natAbs % 10)])

example : format2 120005 = "1200.05" := by decide

namespace RefundCall

/-- The key, if there is one and it is not empty. -/
def key? (call : RefundCall) : Option String := call.idempotencyKey.filter fun key => key ≠ ""

theorem key?_iff {call : RefundCall} {key : String} :
    call.key? = some key ↔ call.idempotencyKey = some key ∧ key ≠ "" := by
  simp [key?,Option.filter_eq_some_iff]

end RefundCall

def BillingStore.opening (customers : String → Option Customer) : BillingStore :=
  ⟨customers,[],fun _ => none⟩

section
variable (sha256 : ByteArray → String) (repr : String → String)

def fingerprint (customerId : String) (amountUsd : Int) (reason : String) : String :=
  sha256 (customerId ++ "|" ++ format2 amountUsd ++ "|" ++ reason).toUTF8

def RefundCall.fingerprint (call : RefundCall) : String :=
  Billing.fingerprint sha256 call.customerId call.amountUsd call.reason

namespace BillingStore

def getCustomer (self : BillingStore) (customerId : String) : Except BillingError Customer :=
  match self.customers customerId with
  | some customer => .ok customer
  | none => .error (.CustomerNotFoundError ("No customer record for " ++ customerId))

/-- The refund that the key was issued for, with the key. -/
def existing (self : BillingStore) (call : RefundCall) : Option (String × Refund) :=
  call.key?.bind fun key => (self.byIdempotencyKey key).map fun refund => (key,refund)

/-- The part under the lock, which makes each call one step. -/
def createRefund (self : BillingStore) (call : RefundCall) : Result × BillingStore :=
  match self.existing call with
  | some (key,existing) =>
    if existing.requestFingerprint ≠ some (call.fingerprint sha256) then
      (.error (.IdempotencyKeyConflict ("idempotency_key " ++ repr key ++
        " was already used for a different refund request; use a new key or resend the " ++
        "original arguments")),self)
    else (.ok (existing,true),self)
  | none =>
    match self.getCustomer call.customerId with
    | .error error => (.error error,self)
    | .ok customer =>
      if customer.status ≠ "active" then
        (.error (.RefundNotPermittedError ("Customer " ++ call.customerId ++ " has status '" ++
          customer.status ++ "'; refunds are only permitted for active customers")),self)
      else if customer.refundableBalanceUsd < call.amountUsd then
        (.error (.RefundNotPermittedError ("Refund of " ++ format2 call.amountUsd ++
          " USD exceeds the refundable balance of " ++ format2 customer.refundableBalanceUsd ++
          " USD for " ++ call.customerId)),self)
      else
        let refund : Refund :=
          ⟨call.refundId,call.customerId,call.amountUsd,call.reason,"pending_settlement",
            call.createdAt,call.idempotencyKey,some (call.fingerprint sha256)⟩
        (.ok (refund,false),
          { customers := Function.update self.customers call.customerId
              (some {customer with
                refundableBalanceUsd := customer.refundableBalanceUsd - refund.amountUsd})
            refunds := self.refunds ++ [refund]
            byIdempotencyKey :=
              match call.key? with
              | some key => Function.update self.byIdempotencyKey key (some refund)
              | none => self.byIdempotencyKey })

end BillingStore

/-- The store after some calls, in the order in which they took the lock. -/
def final (store : BillingStore) (calls : List RefundCall) : BillingStore :=
  calls.foldl (fun store call => (store.createRefund sha256 repr call).2) store

def transcript (store : BillingStore) : List RefundCall → List (RefundCall × Result)
  | [] => []
  | call::rest =>
    (call,(store.createRefund sha256 repr call).1) ::
      transcript (store.createRefund sha256 repr call).2 rest

theorem final_append (store : BillingStore) (first second : List RefundCall) :
    final sha256 repr store (first ++ second) =
      final sha256 repr (final sha256 repr store first) second := by
  simp [final]

theorem transcript_append (store : BillingStore) (first second : List RefundCall) :
    transcript sha256 repr store (first ++ second) =
      transcript sha256 repr store first ++
        transcript sha256 repr (final sha256 repr store first) second := by
  induction first generalizing store with
  | nil => rfl
  | cons call rest ih =>
    rw [List.cons_append,transcript,ih]
    rfl

def RefundCall.refund (call : RefundCall) : Refund :=
  ⟨call.refundId,call.customerId,call.amountUsd,call.reason,"pending_settlement",call.createdAt,
    call.idempotencyKey,some (call.fingerprint sha256)⟩

def BillingStore.booked (store : BillingStore) (call : RefundCall) (customer : Customer) :
    BillingStore where
  customers := Function.update store.customers call.customerId
    (some {customer with refundableBalanceUsd := customer.refundableBalanceUsd - call.amountUsd})
  refunds := store.refunds ++ [call.refund sha256]
  byIdempotencyKey :=
    match call.key? with
    | some key => Function.update store.byIdempotencyKey key (some (call.refund sha256))
    | none => store.byIdempotencyKey

theorem booked_customers (store : BillingStore) (call : RefundCall) (customer : Customer)
    (id : String) : (store.booked sha256 call customer).customers id =
      if id = call.customerId then
        some {customer with
          refundableBalanceUsd := customer.refundableBalanceUsd - call.amountUsd}
      else store.customers id := by
  simp [BillingStore.booked,Function.update_apply]

theorem booked_byIdempotencyKey (store : BillingStore) (call : RefundCall) (customer : Customer)
    (key : String) : (store.booked sha256 call customer).byIdempotencyKey key =
      if call.key? = some key then some (call.refund sha256) else store.byIdempotencyKey key := by
  unfold BillingStore.booked
  cases given : call.key? with
  | none => simp
  | some own => simp [Function.update_apply,eq_comm]

/-- What a call can do: raise, replay the refund of its key, or create one. -/
inductive Taken (store : BillingStore) (call : RefundCall) : Result → BillingStore → Prop
  | raised (error : BillingError) : Taken store call (.error error) store
  | replayed (key : String) (refund : Refund) (mine : call.key? = some key)
      (issued : store.byIdempotencyKey key = some refund)
      (same : refund.requestFingerprint = some (call.fingerprint sha256)) :
      Taken store call (.ok (refund,true)) store
  | created (customer : Customer) (fresh : store.existing call = none)
      (known : store.customers call.customerId = some customer) (active : customer.status = "active")
      (covered : call.amountUsd ≤ customer.refundableBalanceUsd) :
      Taken store call (.ok (call.refund sha256,false)) (store.booked sha256 call customer)

theorem existing_some {store : BillingStore} {call : RefundCall} {key : String} {refund : Refund}
    (found : store.existing call = some (key,refund)) :
    call.key? = some key ∧ store.byIdempotencyKey key = some refund := by
  obtain ⟨key',mine,rest⟩ := Option.bind_eq_some_iff.mp found
  obtain ⟨refund',issued,same⟩ := Option.map_eq_some_iff.mp rest
  cases same
  exact ⟨mine,issued⟩

theorem createRefund_taken (store : BillingStore) (call : RefundCall) :
    Taken sha256 store call (store.createRefund sha256 repr call).1
      (store.createRefund sha256 repr call).2 := by
  unfold BillingStore.createRefund BillingStore.getCustomer
  cases found : store.existing call with
  | some entry =>
    obtain ⟨key,refund⟩ := entry
    obtain ⟨mine,issued⟩ := existing_some found
    dsimp only
    split_ifs with same
    · exact Taken.raised _
    · exact Taken.replayed key refund mine issued (not_not.mp same)
  | none =>
    cases known : store.customers call.customerId with
    | none => exact Taken.raised _
    | some customer =>
      dsimp only
      split_ifs with status short
      · exact Taken.raised _
      · exact Taken.raised _
      · exact Taken.created customer found known (not_not.mp status) (Int.not_lt.mp short)

theorem final_invariant (holds : BillingStore → Prop)
    (kept : ∀ {store next call result}, holds store → Taken sha256 store call result next →
      holds next)
    {store : BillingStore} (start : holds store) (calls : List RefundCall) :
    holds (final sha256 repr store calls) := by
  induction calls generalizing store with
  | nil => exact start
  | cons call rest ih => exact ih (kept start (createRefund_taken sha256 repr store call))

end
end GatewaySuite.Billing
