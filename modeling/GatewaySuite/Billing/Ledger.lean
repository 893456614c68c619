import GatewaySuite.Billing.Fingerprint
import Mathlib.Algebra.Ring.Int.Defs

/-! The refund ledger conserves money: what has left a balance is what the refunds name, and
the index of the keys points into the refunds. -/
namespace GatewaySuite.Billing
variable (sha256 : ByteArray → String) (repr : String → String)

def refunded (refunds : List Refund) (customerId : String) : Int :=
  ((refunds.filter fun refund => refund.customerId = customerId).map Refund.amountUsd).sum

theorem refunded_append (refunds : List Refund) (refund : Refund) (customerId : String) :
    refunded (refunds ++ [refund]) customerId =
      refunded refunds customerId + if refund.customerId = customerId then refund.amountUsd else 0 := by
  unfold refunded
  by_cases own : refund.customerId = customerId <;> simp [own]

/-- What the calls keep, for the customers of the start. -/
structure Conserved (customers : String → Option Customer) (store : BillingStore) : Prop where
  balances : ∀ id, store.customers id = (customers id).map fun customer =>
    {customer with
      refundableBalanceUsd := customer.refundableBalanceUsd - refunded store.refunds id}
  covered : ∀ id customer, store.customers id = some customer → 0 ≤ customer.refundableBalanceUsd
  named : ∀ refund ∈ store.refunds, ∃ customer, customers refund.customerId = some customer ∧
    customer.status = "active"
  indexed : ∀ key refund, store.byIdempotencyKey key = some refund →
    refund ∈ store.refunds ∧ refund.idempotencyKey = some key

theorem opening_conserved {customers : String → Option Customer}
    (funded : ∀ id customer, customers id = some customer → 0 ≤ customer.refundableBalanceUsd) :
    Conserved customers (BillingStore.opening customers) where
  balances := by
    intro id
    cases known : customers id <;> simp [BillingStore.opening,known,refunded]
  covered := funded
  named := by simp [BillingStore.opening]
  indexed := by simp [BillingStore.opening]

theorem taken_conserved {customers : String → Option Customer} {store next : BillingStore}
    {call : RefundCall} {result : Result} (conserved : Conserved customers store)
    (taken : Taken sha256 store call result next) : Conserved customers next := by
  cases taken with
  | raised error => exact conserved
  | replayed key refund mine issued same => exact conserved
  | created customer fresh known active covered =>
    have start := conserved.balances call.customerId
    rw [known] at start
    obtain ⟨first,there,same⟩ := Option.map_eq_some_iff.mp start.symm
    have ledger : (store.booked sha256 call customer).refunds =
        store.refunds ++ [call.refund sha256] := rfl
    refine ⟨?_,?_,?_,?_⟩
    · intro id
      rw [booked_customers,ledger,refunded_append]
      split_ifs with own new old
      · rw [own,there,← same]
        simp [RefundCall.refund,Int.sub_sub]
      · exact absurd own.symm new
      · exact absurd old.symm own
      · rw [conserved.balances id,Int.add_zero]
    · intro id other found
      rw [booked_customers] at found
      split_ifs at found
      · rw [Option.some.injEq] at found
        subst other
        exact Int.sub_nonneg_of_le covered
      · exact conserved.covered id other found
    · intro refund member
      rcases List.mem_append.mp member with old | new
      · exact conserved.named refund old
      · rw [List.mem_singleton.mp new]
        exact ⟨first,there,by rw [← active,← same]⟩
    · intro key refund found
      rw [booked_byIdempotencyKey] at found
      rw [ledger]
      split_ifs at found with given
      · rw [Option.some.injEq] at found
        subst refund
        exact ⟨List.mem_append_right _ (List.mem_singleton_self _),(RefundCall.key?_iff.mp given).1⟩
      · exact (conserved.indexed key refund found).imp_left (List.mem_append_left _)

theorem taken_appends {store next : BillingStore} {call : RefundCall} {result : Result}
    (taken : Taken sha256 store call result next) : store.refunds <+: next.refunds := by
  cases taken with
  | raised error => exact List.prefix_rfl
  | replayed key refund mine issued same => exact List.prefix_rfl
  | created customer fresh known active covered => exact List.prefix_append _ _

theorem final_appends (store : BillingStore) (calls : List RefundCall) :
    store.refunds <+: (final sha256 repr store calls).refunds :=
  final_invariant sha256 repr (fun after => store.refunds <+: after.refunds)
    (fun front taken => front.trans (taken_appends sha256 taken)) List.prefix_rfl calls

/-- After any calls from a store without refunds: each balance is the initial one less the
refunds of that customer, and not negative; the refunds only grow, and name customers that
are there and active; and each entry of the index is a refund with that key. -/
theorem ledger_conserves_money (customers : String → Option Customer)
    (funded : ∀ id customer, customers id = some customer → 0 ≤ customer.refundableBalanceUsd)
    (calls : List RefundCall) :
    let store := final sha256 repr (BillingStore.opening customers) calls
    (∀ id, (store.customers id).map Customer.refundableBalanceUsd =
      (customers id).map fun customer =>
        customer.refundableBalanceUsd - refunded store.refunds id) ∧
    (∀ id customer, store.customers id = some customer → 0 ≤ customer.refundableBalanceUsd) ∧
    (∀ before after, calls = before ++ after →
      (final sha256 repr (BillingStore.opening customers) before).refunds <+: store.refunds) ∧
    (∀ refund ∈ store.refunds, ∃ customer, customers refund.customerId = some customer ∧
      customer.status = "active") ∧
    ∀ key refund, store.byIdempotencyKey key = some refund →
      refund ∈ store.refunds ∧ refund.idempotencyKey = some key := by
  intro store
  have conserved : Conserved customers store :=
    final_invariant sha256 repr (Conserved customers) (taken_conserved sha256) (opening_conserved funded) calls
  refine ⟨?_,conserved.covered,?_,conserved.named,conserved.indexed⟩
  · intro id
    rw [conserved.balances id,Option.map_map]
    rfl
  · rintro before after rfl
    rw [show store = _ from final_append sha256 repr _ before after]
    exact final_appends sha256 repr _ after

def ada : String → Option Customer :=
  fun id => if id = "CUST-10042" then some ⟨"active",120000⟩ else none

/-- A keyed refund, its replay, and the same without a key, which the balance does not cover. -/
def adaCalls : List RefundCall :=
  [⟨"CUST-10042",100000,"Duplicate charge on the invoice",some "retry-key-0001","RF-1","t1"⟩,
    ⟨"CUST-10042",100000,"Duplicate charge on the invoice",some "retry-key-0001","RF-2","t2"⟩,
    ⟨"CUST-10042",100000,"Duplicate charge on the invoice",none,"RF-3","t3"⟩]

theorem ledger_conserves_money_ada :
    (final sampleSha256 id (BillingStore.opening ada) adaCalls).customers "CUST-10042" =
        some ⟨"active",20000⟩ ∧
      ∀ id', ((final sampleSha256 id (BillingStore.opening ada) adaCalls).customers id').map
          Customer.refundableBalanceUsd =
        (ada id').map fun customer => customer.refundableBalanceUsd -
          refunded (final sampleSha256 id (BillingStore.opening ada) adaCalls).refunds id' := by
  refine ⟨by decide +kernel,(ledger_conserves_money sampleSha256 id ada ?_ adaCalls).1⟩
  intro id' customer known
  unfold ada at known
  split_ifs at known
  cases known
  decide

end GatewaySuite.Billing
