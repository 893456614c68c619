import GatewaySuite.Guardrail.Redactor
import GatewaySuite.Lib.Checksum
import Mathlib.Data.ZMod.Basic

/-! `luhn_ok` is a check sum modulo ten. Every digit shows in it at every place, and two
neighbours are told apart from their swap unless they are 0 and 9. -/
namespace GatewaySuite.Guardrail
open Lib Python
variable (u : Unicode)

/-- What a digit adds to the total, `index` places from the right. -/
def luhnValue (index value : Nat) : Nat :=
  if index % 2 = 1 then
    let doubled := value * 2
    if doubled > 9 then doubled - 9 else doubled
  else value

def luhnWeight (index : Nat) (char : CodePoint) : ZMod 10 := (luhnValue index (intOf u char) : Nat)

theorem luhnOk_iff (digits : Str) :
    luhnOk u digits = true ↔ checksum (luhnWeight u) 0 digits.reverse = 0 := by
  have total : luhnOk u digits =
      (checksum (fun index char => luhnValue index (intOf u char)) 0 digits.reverse % 10 == 0) := by
    have folded := foldl_checksum (fun index char => luhnValue index (intOf u char)) 0 digits.reverse 0
    rw [Nat.zero_add] at folded
    rw [← folded]
    rfl
  rw [total,beq_iff_eq,← Nat.dvd_iff_mod_eq_zero,← ZMod.natCast_eq_zero_iff]
  exact Eq.congr_left (map_checksum (Nat.castAddMonoidHom (ZMod 10)) _ 0 digits.reverse)

private theorem luhnValue_parity (index value : Nat) : luhnValue index value = luhnValue (index % 2) value := by
  simp only [luhnValue,Nat.mod_mod]

/-- Doubling a digit, less nine where it has two, permutes the digits. -/
theorem luhnValue_injective (index : Nat) {x y : Fin 10}
    (same : (luhnValue index x : ZMod 10) = (luhnValue index y : Nat)) : x = y := by
  have single : ∀ x y : Fin 10, ((luhnValue 0 x : Nat) : ZMod 10) = (luhnValue 0 y : Nat) → x = y := by
    decide
  have double : ∀ x y : Fin 10, ((luhnValue 1 x : Nat) : ZMod 10) = (luhnValue 1 y : Nat) → x = y := by
    decide
  rw [luhnValue_parity index x,luhnValue_parity index y] at same
  rcases Nat.mod_two_eq_zero_or_one index with even | odd
  · rw [even] at same
    exact single x y same
  · rw [odd] at same
    exact double x y same

theorem luhnValue_swap (index : Nat) (x y : Fin 10) :
    ((luhnValue index x : Nat) : ZMod 10) + (luhnValue (index+1) y : Nat) =
        (luhnValue index y : Nat) + (luhnValue (index+1) x : Nat) ↔
      x = y ∨ x = 0 ∧ y = 9 ∨ x = 9 ∧ y = 0 := by
  have first : ∀ x y : Fin 10, ((luhnValue 0 x : Nat) : ZMod 10) + (luhnValue 1 y : Nat) =
      (luhnValue 0 y : Nat) + (luhnValue 1 x : Nat) ↔ x = y ∨ x = 0 ∧ y = 9 ∨ x = 9 ∧ y = 0 := by
    decide
  rw [luhnValue_parity index x,luhnValue_parity index y,luhnValue_parity (index+1) x,
    luhnValue_parity (index+1) y]
  rcases Nat.mod_two_eq_zero_or_one index with even | odd
  · have next : (index+1) % 2 = 1 := by omega
    rw [even,next]
    exact first x y
  · have next : (index+1) % 2 = 0 := by omega
    rw [odd,next,add_comm,eq_comm,add_comm]
    exact first x y

/-- Two of the digits `0` to `9` have one value only if they are one character. -/
theorem decimal_ascii_injective {a b : CodePoint} (first : asciiDigit a = true)
    (second : asciiDigit b = true) (same : u.decimal a = u.decimal b) : a = b := by
  have low : '0'.toNat = 48 := rfl
  have high : '9'.toNat = 57 := rfl
  have bounds {c : CodePoint} (digit : asciiDigit c = true) : 48 ≤ c.val ∧ c.val ≤ 57 := by
    simpa only [asciiDigit,between,low,high,Bool.and_eq_true,decide_eq_true_eq] using digit
  have lower := bounds first
  have upper := bounds second
  have plain {c : CodePoint} (digit : asciiDigit c = true) : isAscii c = true := by
    have inside := bounds digit
    simp only [isAscii,decide_eq_true_eq]
    omega
  rw [u.decimal_ascii a (plain first),u.decimal_ascii b (plain second),asciiDecimal,asciiDecimal,
    if_pos first,if_pos second,Option.some.injEq] at same
  have values := congrArg Fin.val same
  simp only [Fin.val_ofNat] at values
  apply Fin.ext
  omega

private theorem intOf_decimal {c : CodePoint} {x : Fin 10} (digit : u.decimal c = some x) :
    intOf u c = x := by
  simp [intOf,digit]

section Errors
variable {front back : Str} {a b : CodePoint} {x y : Fin 10}

theorem luhnOk_replace (was : u.decimal a = some x) (now : u.decimal b = some y)
    (accepted : luhnOk u (front ++ a::back) = true) :
    luhnOk u (front ++ b::back) = true ↔ y = x := by
  rw [luhnOk_iff,List.reverse_append,List.reverse_cons,List.append_assoc,List.singleton_append] at accepted ⊢
  rw [← accepted,checksum_replace]
  simp only [luhnWeight,intOf_decimal u was,intOf_decimal u now]
  exact ⟨luhnValue_injective _,by rintro rfl; rfl⟩

theorem luhnOk_swap (left : u.decimal a = some x) (right : u.decimal b = some y)
    (accepted : luhnOk u (front ++ a::b::back) = true) :
    luhnOk u (front ++ b::a::back) = true ↔ x = y ∨ x = 0 ∧ y = 9 ∨ x = 9 ∧ y = 0 := by
  rw [luhnOk_iff] at accepted ⊢
  simp only [List.reverse_append,List.reverse_cons,List.append_assoc,List.cons_append,
    List.nil_append] at accepted ⊢
  rw [← accepted,checksum_swap]
  simp only [luhnWeight,intOf_decimal u left,intOf_decimal u right]
  exact luhnValue_swap _ x y

end Errors

/-- A string of digits that `luhn_ok` accepts is rejected with any one digit changed, and with any
two unequal neighbours swapped that are not 0 and 9. Digits are told apart by their values:
Unicode has characters for one digit in many scripts. -/
theorem luhn_detects {digits : Str} (decimal : ∀ c ∈ digits, u.isDecimal c = true)
    (accepted : luhnOk u digits = true) :
    (∀ front old back new, digits = front ++ old::back → u.isDecimal new = true →
      u.decimal new ≠ u.decimal old → luhnOk u (front ++ new::back) = false) ∧
    ∀ front a b back, digits = front ++ a::b::back → u.decimal a ≠ u.decimal b →
      ¬(u.decimal a = some 0 ∧ u.decimal b = some 9) →
      ¬(u.decimal a = some 9 ∧ u.decimal b = some 0) → luhnOk u (front ++ b::a::back) = false := by
  constructor
  · rintro front old back new rfl digit other
    obtain ⟨x,was⟩ := Option.isSome_iff_exists.mp (decimal old (by simp))
    obtain ⟨y,now⟩ := Option.isSome_iff_exists.mp digit
    rw [← Bool.not_eq_true,luhnOk_replace u was now accepted]
    rintro rfl
    exact other (now.trans was.symm)
  · rintro front a b back rfl other first second
    obtain ⟨x,left⟩ := Option.isSome_iff_exists.mp (decimal a (by simp))
    obtain ⟨y,right⟩ := Option.isSome_iff_exists.mp (decimal b (by simp))
    rw [← Bool.not_eq_true,luhnOk_swap u left right accepted]
    rintro (rfl | ⟨rfl,rfl⟩ | ⟨rfl,rfl⟩)
    · exact other (left.trans right.symm)
    · exact first ⟨left,right⟩
    · exact second ⟨left,right⟩

theorem luhn_detects_visa :
    luhnOk asciiUnicode (lit "4111111111111111") = true ∧
      luhnOk asciiUnicode (lit "4111111117111111") = false ∧
      luhnOk asciiUnicode (lit "1411111111111111") = false := by
  have accepted : luhnOk asciiUnicode (lit "4111111111111111") = true := by decide +kernel
  have detects := luhn_detects asciiUnicode
    (List.all_eq_true.mp (by decide : (lit "4111111111111111").all asciiUnicode.isDecimal = true)) accepted
  have apart {a b : CodePoint} (first : asciiDigit a = true) (second : asciiDigit b = true)
      (other : a ≠ b) : asciiUnicode.decimal a ≠ asciiUnicode.decimal b := fun same =>
    other (decimal_ascii_injective asciiUnicode first second same)
  exact ⟨accepted,
    detects.1 (lit "411111111") 49 (lit "111111") 55 (by decide) (by decide)
      (apart (by decide) (by decide) (by decide)),
    detects.2 [] 52 49 (lit "11111111111111") (by decide)
      (apart (by decide) (by decide) (by decide)) (by decide) (by decide)⟩

end GatewaySuite.Guardrail
