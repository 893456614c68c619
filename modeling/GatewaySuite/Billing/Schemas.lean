import GatewaySuite.Billing.Fingerprint
import GatewaySuite.Python.Text
import Mathlib.Algebra.Order.Ring.Rat
import Mathlib.Algebra.Field.Rat
import Mathlib.Algebra.GroupWithZero.Basic
import Mathlib.Tactic.Ring
import Mathlib.Tactic.Linarith
import Mathlib.Tactic.FieldSimp
import Mathlib.Tactic.NormNum

/-! The arguments of the tools. An input exists only with what its schema declares; a float is
the decimal that `str` writes for it. -/
namespace GatewaySuite.Billing
open Python

structure Decimal where
  coefficient : Int
  exponent : Int
deriving DecidableEq

/-- A JSON value. `nonFinite` is `NaN` or an infinity, which `json.loads` reads as well. -/
inductive Value where
  | null
  | bool (value : Bool)
  | int (value : Int)
  | float (value : Decimal)
  | nonFinite
  | str (value : String)
  | arr (items : List Value)
  | obj (entries : List (String × Value))

/-- `type(value).__name__` -/
def Value.typeName : Value → String
  | .null => "NoneType"
  | .bool _ => "bool"
  | .int _ => "int"
  | .float _ => "float"
  | .nonFinite => "float"
  | .str _ => "str"
  | .arr _ => "list"
  | .obj _ => "dict"

namespace Decimal

def value (d : Decimal) : ℚ := d.coefficient * 10 ^ d.exponent

/-- As many factors of ten as there are, at most `fuel`. -/
def stripZeros : Nat → Int → Int → Decimal
  | 0,c,e => ⟨c,e⟩
  | fuel+1,c,e => if c % 10 = 0 then stripZeros fuel (c/10) (e+1) else ⟨c,e⟩

def normalize (d : Decimal) : Decimal :=
  if d.coefficient = 0 then ⟨0,0⟩ else stripZeros d.coefficient.natAbs d.coefficient d.exponent

/-- The amount in cents, for an amount of whole cents. -/
def cents (d : Decimal) : Int := (d.value * 100).num

def ofCents (cents : Int) : Decimal := ⟨cents,-2⟩

theorem stripZeros_value (fuel : Nat) (c e : Int) : (stripZeros fuel c e).value = value ⟨c,e⟩ := by
  induction fuel generalizing c e with
  | zero => rfl
  | succ fuel ih =>
    unfold stripZeros
    split_ifs with tens
    · have shift : (10:ℚ) ^ (e+1) = 10 ^ e * 10 := zpow_add_one₀ (by norm_num) e
      have whole : ((c/10 : Int) : ℚ) * 10 = c := by
        exact_mod_cast Int.ediv_mul_cancel (Int.dvd_of_emod_eq_zero tens)
      rw [ih,value,value,shift,← whole]
      ring
    · rfl

theorem stripZeros_units (fuel : Nat) (c e : Int) (some : c ≠ 0) (enough : c.natAbs ≤ fuel) :
    (stripZeros fuel c e).coefficient % 10 ≠ 0 := by
  induction fuel generalizing c e with
  | zero => omega
  | succ fuel ih =>
    unfold stripZeros
    split_ifs with tens
    · apply ih <;> omega
    · exact tens

theorem normalize_value (d : Decimal) : d.normalize.value = d.value := by
  unfold normalize
  split_ifs with zero
  · simp [value,zero]
  · exact stripZeros_value _ _ _

theorem value_hundred (d : Decimal) : d.value * 100 = d.coefficient * 10 ^ (d.exponent+2) := by
  rw [value,zpow_add₀ (by norm_num),mul_assoc]
  norm_num

/-- An amount is whole cents exactly if its normal form has at most two places. -/
theorem normalize_places (d : Decimal) :
    -2 ≤ d.normalize.exponent ↔ ∃ cents : Int, d.value * 100 = cents := by
  rw [← normalize_value,value_hundred]
  constructor
  · intro places
    obtain ⟨k,shift⟩ := Int.eq_ofNat_of_zero_le (by omega : 0 ≤ d.normalize.exponent+2)
    refine ⟨d.normalize.coefficient * 10 ^ k,?_⟩
    rw [shift]
    push_cast
    rfl
  · rintro ⟨cents,whole⟩
    by_contra fine
    have deep : d.normalize.exponent + 2 < 0 := by omega
    obtain ⟨k,shift⟩ := Int.eq_ofNat_of_zero_le (by omega : 0 ≤ -(d.normalize.exponent+2) - 1)
    have nonzero : d.coefficient ≠ 0 := by
      intro zero
      rw [normalize,if_pos zero] at deep
      cases deep
    have units : d.normalize.coefficient % 10 ≠ 0 := by
      rw [normalize,if_neg nonzero]
      exact stripZeros_units _ _ _ nonzero le_rfl
    apply units
    -- The coefficient is the cents followed by zeros.
    have scaled : d.normalize.coefficient = cents * 10 ^ k * 10 := by
      have power : (10:ℚ) ^ (d.normalize.exponent+2) * 10 ^ (k+1) = 1 := by
        rw [← zpow_natCast,← zpow_add₀ (by norm_num),show d.normalize.exponent + 2 + (k+1 : ℕ) = 0 by
          push_cast
          omega,zpow_zero]
      have exact_ : (d.normalize.coefficient : ℚ) = cents * 10 ^ (k+1) := by
        rw [← whole,mul_assoc,power,mul_one]
      rw [pow_succ,← mul_assoc] at exact_
      exact_mod_cast exact_
    rw [scaled]
    exact Int.mul_emod_left _ _

theorem cents_value (d : Decimal) (places : -2 ≤ d.normalize.exponent) :
    (d.cents : ℚ) = d.value * 100 := by
  obtain ⟨cents,whole⟩ := (normalize_places d).mp places
  rw [Decimal.cents,whole,Rat.num_intCast]

theorem ofCents_cents (cents : Int) : (ofCents cents).cents = cents := by
  have whole : (ofCents cents).value * 100 = cents := by
    rw [value_hundred]
    simp [ofCents]
  rw [Decimal.cents,whole,Rat.num_intCast]

end Decimal

def MAX_REFUND_AMOUNT : ℚ := 10000

def MIN_REASON_LENGTH : Nat := 10

def MAX_REASON_LENGTH : Nat := 500

def twoDecimalPlaces (value : Decimal) : Except String Decimal :=
  if value.normalize.exponent < -2 then
    .error "amount must have at most 2 decimal places (currency precision)"
  else .ok value

variable (unicode : Unicode)

/-- `value.strip()` -/
def strip (value : String) : String :=
  let space := fun c : Char => unicode.isspace (ordinal c)
  String.ofList ((value.toList.dropWhile space).rdropWhile space)

def reasonIsSubstantive (value : String) : Except String String :=
  let stripped := strip unicode value
  if stripped.length < MIN_REASON_LENGTH then
    .error ("reason must contain at least " ++ toString MIN_REASON_LENGTH ++
      " non-whitespace characters")
  else .ok stripped

structure GetCustomerRecordInput where
  customerId : String
  pattern : isCustomerId customerId = true

structure TriggerRefundInput where
  customerId : String
  amount : Decimal
  reason : String
  idempotencyKey : Option String
  pattern : isCustomerId customerId = true
  gt : 0 < amount.value
  le : amount.value ≤ MAX_REFUND_AMOUNT
  places : twoDecimalPlaces amount = .ok amount
  substantive : ∃ given : String, MIN_REASON_LENGTH ≤ given.length ∧
    given.length ≤ MAX_REASON_LENGTH ∧ reasonIsSubstantive unicode given = .ok reason
  keyLength : ∀ key ∈ idempotencyKey, 8 ≤ key.length ∧ key.length ≤ 64

structure ErrorDetails where
  loc : List String
  type : String
  msg : String
  input : Value

abbrev Arguments := List (String × Value)

/-- `model_validate` of the two models. -/
structure Models where
  getCustomerRecord : Arguments → Except (List ErrorDetails) GetCustomerRecordInput
  triggerRefund : Arguments → Except (List ErrorDetails) (TriggerRefundInput unicode)

variable {unicode}

theorem strip_length (value : String) : (strip unicode value).length ≤ value.length := by
  unfold strip
  simp only [String.length_ofList]
  apply (List.rdropWhile_prefix _ _).length_le.trans
  rw [← String.length_toList]
  exact (List.dropWhile_suffix _).length_le

/-- What a refund is whose arguments were validated. -/
theorem input_cents (args : TriggerRefundInput unicode) :
    (args.amount.cents : ℚ) = args.amount.value * 100 ∧ 0 < args.amount.cents ∧
      args.amount.cents ≤ 1000000 := by
  have places : -2 ≤ args.amount.normalize.exponent := by
    have passed := args.places
    unfold twoDecimalPlaces at passed
    split_ifs at passed
    omega
  have exact_ := args.amount.cents_value places
  refine ⟨exact_,?_,?_⟩
  · have positive := args.gt
    have scaled : (0:ℚ) < args.amount.cents := by
      rw [exact_]
      linarith
    exact_mod_cast scaled
  · have capped : args.amount.value ≤ 10000 := args.le
    have scaled : (args.amount.cents : ℚ) ≤ 1000000 := by
      rw [exact_]
      linarith
    exact_mod_cast scaled

theorem strip_strip (value : String) : strip unicode (strip unicode value) = strip unicode value := by
  unfold strip
  simp only [String.toList_ofList]
  generalize (fun c : Char => unicode.isspace (ordinal c)) = space
  congr 1
  have front : ((value.toList.dropWhile space).rdropWhile space).dropWhile space =
      (value.toList.dropWhile space).rdropWhile space := by
    rw [List.dropWhile_eq_self_iff]
    intro some
    obtain ⟨rest,whole⟩ := List.rdropWhile_prefix space (value.toList.dropWhile space)
    have solid := List.head?_dropWhile_not space value.toList
    generalize (value.toList.dropWhile space).rdropWhile space = kept at some whole
    cases kept with
    | nil => cases some
    | cons c more =>
      rw [← whole] at solid
      simpa using solid
  rw [front,List.rdropWhile_idempotent]

theorem input_reason (args : TriggerRefundInput unicode) :
    MIN_REASON_LENGTH ≤ args.reason.length ∧ args.reason.length ≤ MAX_REASON_LENGTH ∧
      strip unicode args.reason = args.reason := by
  obtain ⟨given,_,short,passed⟩ := args.substantive
  unfold reasonIsSubstantive at passed
  dsimp only at passed
  split_ifs at passed with thin
  rw [Except.ok.injEq] at passed
  rw [← passed]
  exact ⟨Nat.le_of_not_lt thin,(strip_length given).trans short,strip_strip given⟩

end GatewaySuite.Billing
