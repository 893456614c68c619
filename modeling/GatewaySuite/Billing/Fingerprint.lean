import GatewaySuite.Billing.Store

/-! What a fingerprint is a promise about: the bar-joined text determines the customer, the
amount and the reason, although the reason may contain bars itself. -/
namespace GatewaySuite.Billing

/-- `^CUST-[0-9]{5}$` -/
def isCustomerId (customerId : String) : Bool :=
  match customerId.toList with
  | 'C' :: 'U' :: 'S' :: 'T' :: '-' :: digits => decide (digits.length = 5) && digits.all Char.isDigit
  | _ => false

theorem customerId_no_bar {customerId : String} (formed : isCustomerId customerId = true) :
    '|' ∉ customerId.toList := by
  unfold isCustomerId at formed
  split at formed
  next digits chars =>
    rw [Bool.and_eq_true,List.all_eq_true] at formed
    have plain : '|' ∉ digits := fun bar => absurd (formed.2 '|' bar) (by decide)
    simp [chars,plain]
  next => cases formed

theorem digit_not {c : Char} {n : Nat} (other : c.isDigit = false) : c ∉ Nat.toDigits 10 n := by
  intro member
  rw [Nat.isDigit_of_mem_toDigits (by decide) (by decide) member] at other
  cases other

theorem digitChar_isDigit {n : Nat} (small : n < 10) : (Nat.digitChar n).isDigit = true := by
  have member : Nat.digitChar n ∈ Nat.toDigits 10 n := by
    rw [Nat.toDigits_of_lt_base small]
    exact List.mem_singleton_self _
  exact Nat.isDigit_of_mem_toDigits (by decide) (by decide) member

def centDigits (cents : Nat) : List Char :=
  Nat.toDigits 10 (cents / 100) ++ [Nat.digitChar (cents / 10 % 10),Nat.digitChar (cents % 10)]

theorem centDigits_value (cents : Nat) : Nat.ofDigitChars 10 (centDigits cents) 0 = cents := by
  have tens : cents / 10 % 10 < 10 := Nat.mod_lt _ (by decide)
  have ones : cents % 10 < 10 := Nat.mod_lt _ (by decide)
  rw [centDigits,Nat.ofDigitChars_append,Nat.ofDigitChars_ten_toDigits,
    Nat.ofDigitChars_cons_digitChar_of_lt_ten tens,Nat.ofDigitChars_cons_digitChar_of_lt_ten ones,
    Nat.ofDigitChars_nil]
  omega

theorem format2_digits (cents : Int) :
    (format2 cents).toList.filter Char.isDigit = centDigits cents.natAbs := by
  have whole : (Nat.toDigits 10 (cents.natAbs / 100)).filter Char.isDigit =
      Nat.toDigits 10 (cents.natAbs / 100) :=
    List.filter_eq_self.mpr fun c member =>
      Nat.isDigit_of_mem_toDigits (by decide) (by decide) member
  have sign : (if cents < 0 then ['-'] else []).filter Char.isDigit = [] := by
    split_ifs <;> decide
  have tens := digitChar_isDigit (Nat.mod_lt (cents.natAbs / 10) (by decide : 0 < 10))
  have ones := digitChar_isDigit (Nat.mod_lt cents.natAbs (by decide : 0 < 10))
  rw [format2,String.toList_ofList,List.filter_append,List.filter_append,sign,whole]
  simp [tens,ones,centDigits]

theorem format2_mem (cents : Int) {c : Char} (other : c.isDigit = false) :
    c ∈ (format2 cents).toList ↔ (cents < 0 ∧ c = '-') ∨ c = '.' := by
  have whole : c ∉ Nat.toDigits 10 (cents.natAbs / 100) := digit_not other
  have last (n : Nat) : c ≠ Nat.digitChar (n % 10) := by
    intro same
    rw [same,digitChar_isDigit (Nat.mod_lt n (by decide))] at other
    cases other
  rw [format2,String.toList_ofList,List.mem_append,List.mem_append,or_iff_left whole]
  by_cases negative : cents < 0
  · simp [negative,last]
  · simp [negative,last]

theorem format2_no_bar (cents : Int) : '|' ∉ (format2 cents).toList := by
  rw [format2_mem cents (by decide)]
  simp

theorem format2_injective : Function.Injective format2 := by
  intro first second same
  have digits := (format2_digits first).symm.trans (same ▸ format2_digits second)
  have sizes : first.natAbs = second.natAbs := by
    rw [← centDigits_value first.natAbs,digits,centDigits_value]
  have signs : first < 0 ↔ second < 0 := by
    have first' := format2_mem first (c := '-') (by decide)
    have second' := format2_mem second (c := '-') (by decide)
    rw [same] at first'
    simpa using first'.symm.trans second'
  omega

theorem split_at_bar {a a' b b' : List Char} (same : a ++ '|'::b = a' ++ '|'::b') (clean : '|' ∉ a)
    (clean' : '|' ∉ a') : a = a' ∧ b = b' := by
  induction a generalizing a' with
  | nil =>
    cases a' with
    | nil => exact ⟨rfl,(List.cons_eq_cons.mp same).2⟩
    | cons c rest =>
      rw [List.nil_append,List.cons_append] at same
      exact absurd ((List.cons_eq_cons.mp same).1 ▸ List.mem_cons_self) clean'
  | cons c rest ih =>
    cases a' with
    | nil =>
      rw [List.nil_append,List.cons_append] at same
      exact absurd ((List.cons_eq_cons.mp same).1 ▸ List.mem_cons_self) clean
    | cons c' rest' =>
      obtain ⟨rfl,tail⟩ := List.cons_eq_cons.mp same
      obtain ⟨rfl,rfl⟩ := ih tail (fun member => clean (List.mem_cons_of_mem c member))
        (fun member => clean' (List.mem_cons_of_mem c member))
      exact ⟨rfl,rfl⟩

theorem fingerprint_injective {sha256 : ByteArray → String} (collisionFree : Function.Injective sha256)
    {customerId customerId' : String} {amountUsd amountUsd' : Int} {reason reason' : String}
    (plain : '|' ∉ customerId.toList) (plain' : '|' ∉ customerId'.toList)
    (same : fingerprint sha256 customerId amountUsd reason =
      fingerprint sha256 customerId' amountUsd' reason') :
    customerId = customerId' ∧ amountUsd = amountUsd' ∧ reason = reason' := by
  have texts := congrArg String.toList (String.toByteArray_inj.mp (collisionFree same))
  have bar : "|".toList = ['|'] := by decide
  simp only [String.toList_append,bar,List.append_assoc,List.singleton_append] at texts
  obtain ⟨customers,rest⟩ := split_at_bar texts plain plain'
  obtain ⟨amounts,reasons⟩ := split_at_bar rest (format2_no_bar _) (format2_no_bar _)
  exact ⟨String.toList_inj.mp customers,format2_injective (String.toList_inj.mp amounts),
    String.toList_inj.mp reasons⟩

/-- The text of the sample request, and its SHA-256. -/
def sampleText : String := "CUST-10042|1000.00|Duplicate charge on the invoice"

def sampleDigest : String := "8e139ec988ab6a702b98f08f8e1431be574863f3d360b5f1247022c10a0e0265"

/-- A stand-in that agrees with SHA-256 on the sample text and collides nowhere. -/
def sampleSha256 (bytes : ByteArray) : String :=
  if bytes.data = sampleText.toUTF8.data then sampleDigest
  else String.ofList (bytes.data.toList.map fun byte => Char.ofNat (256 + byte.toNat))

theorem sampleSha256_injective : Function.Injective sampleSha256 := by
  have code (byte : UInt8) : (Char.ofNat (256 + byte.toNat)).toNat = 256 + byte.toNat := by
    have small := byte.toNat_lt
    have valid : (256 + byte.toNat).isValidChar := Or.inl (by omega)
    rw [Char.ofNat,dif_pos valid]
    rfl
  -- the digest starts with a digit, and no coded text does
  have apart (bytes : ByteArray) : sampleDigest ≠
      String.ofList (bytes.data.toList.map fun byte => Char.ofNat (256 + byte.toNat)) := by
    intro same
    have chars := congrArg String.toList same
    rw [String.toList_ofList] at chars
    have member : '8' ∈ bytes.data.toList.map fun byte => Char.ofNat (256 + byte.toNat) := by
      rw [← chars]
      decide
    obtain ⟨byte,_,coded⟩ := List.mem_map.mp member
    have size := code byte
    rw [coded] at size
    have : Char.toNat '8' = 56 := rfl
    omega
  intro first second same
  unfold sampleSha256 at same
  split_ifs at same with left right right
  · exact ByteArray.ext (left.trans right.symm)
  · exact absurd same (apart second)
  · exact absurd same.symm (apart first)
  · have chars := congrArg String.toList same
    rw [String.toList_ofList,String.toList_ofList] at chars
    have bytes : first.data.toList = second.data.toList := by
      refine List.map_injective_iff.mpr ?_ chars
      intro byte other equal
      have size := (code byte).symm.trans ((congrArg Char.toNat equal).trans (code other))
      exact UInt8.toNat_inj.mp (by omega)
    exact ByteArray.ext (Array.toList_inj.mp bytes)

end GatewaySuite.Billing
