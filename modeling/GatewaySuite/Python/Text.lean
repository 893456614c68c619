import Mathlib.Data.List.Basic
import Mathlib.Data.List.DropRight
import Mathlib.Tactic.Common

/-! Python strings: sequences of code points, surrogates included, with the parts of the
Unicode database that `str` and `re` read. Outside ASCII the database depends on the
interpreter's version, so it is a parameter; on ASCII its values are fixed. -/
namespace GatewaySuite.Python

abbrev CodePoint := Fin 0x110000

abbrev Str := List CodePoint

def lit (s : String) : Str := s.toList.map (fun c => Fin.ofNat 0x110000 c.toNat)

def ordinal (c : Char) : CodePoint := Fin.ofNat 0x110000 c.toNat

def isAscii (c : CodePoint) : Bool := c.val < 128

/-- UTF-8 encodes a text without lone surrogates. -/
def encodes (s : Str) : Bool := s.all fun c => c.val < 0xD800 || 0xDFFF < c.val

theorem lit_encodes (s : String) : encodes (lit s) = true := by
  simp only [encodes,lit,List.all_map,List.all_eq_true,Function.comp_apply,Bool.or_eq_true,
    decide_eq_true_eq]
  intro c _
  have range : c.toNat < 0x110000 := by
    obtain low | ⟨_,high⟩ := c.valid
    · exact lt_trans low (by decide)
    · exact high
  have value : (Fin.ofNat 0x110000 c.toNat).val = c.toNat := Nat.mod_eq_of_lt range
  rw [value]
  obtain low | ⟨low,_⟩ := c.valid
  · exact Or.inl low
  · exact Or.inr low

/-- `lo-hi` in a character class. -/
def between (lo hi : Char) (c : CodePoint) : Bool := lo.toNat ≤ c.val && c.val ≤ hi.toNat

def oneOf (s : String) (c : CodePoint) : Bool := (lit s).contains c

def asciiDigit (c : CodePoint) : Bool := between '0' '9' c

def asciiLetter (c : CodePoint) : Bool := between 'A' 'Z' c || between 'a' 'z' c

def asciiAlnum (c : CodePoint) : Bool := asciiLetter c || asciiDigit c

/-- Tab to carriage return, the four separators, and the blank. -/
def asciiSpace (c : CodePoint) : Bool :=
  (9 ≤ c.val && c.val ≤ 13) || (28 ≤ c.val && c.val ≤ 32)

def asciiLower (c : CodePoint) : CodePoint :=
  if between 'A' 'Z' c then Fin.ofNat 0x110000 (c.val+32) else c

def asciiDecimal (c : CodePoint) : Option (Fin 10) :=
  if asciiDigit c then some (Fin.ofNat 10 (c.val-48)) else none

/-- The Unicode database behind `\d` and `int()`, `str.isdigit`, `str.isalnum`,
`str.isspace`, `unicodedata.normalize("NFKC", ·)`, `str.casefold` and `str.lower`. -/
structure Unicode where
  decimal : CodePoint → Option (Fin 10)
  isdigit : CodePoint → Bool
  isalnum : CodePoint → Bool
  isspace : CodePoint → Bool
  nfkc : Str → Str
  casefold : Str → Str
  lower : Str → Str
  decimal_ascii : ∀ c, isAscii c → decimal c = asciiDecimal c
  isdigit_ascii : ∀ c, isAscii c → isdigit c = asciiDigit c
  isalnum_ascii : ∀ c, isAscii c → isalnum c = asciiAlnum c
  isspace_ascii : ∀ c, isAscii c → isspace c = asciiSpace c
  nfkc_ascii : ∀ s, s.all isAscii → nfkc s = s
  casefold_ascii : ∀ s, s.all isAscii → casefold s = s.map asciiLower
  lower_ascii : ∀ s, s.all isAscii → lower s = s.map asciiLower
  isdigit_decimal : ∀ c, (decimal c).isSome → isdigit c

def asciiUnicode : Unicode where
  decimal := asciiDecimal
  isdigit := asciiDigit
  isalnum := asciiAlnum
  isspace := asciiSpace
  nfkc := id
  casefold := List.map asciiLower
  lower := List.map asciiLower
  decimal_ascii := fun _ _ => rfl
  isdigit_ascii := fun _ _ => rfl
  isalnum_ascii := fun _ _ => rfl
  isspace_ascii := fun _ _ => rfl
  nfkc_ascii := fun _ _ => rfl
  casefold_ascii := fun _ _ => rfl
  lower_ascii := fun _ _ => rfl
  isdigit_decimal := by
    intro c some
    unfold asciiDecimal at some
    split at some
    · assumption
    · simp at some

namespace Unicode

/-- `\d` -/
def isDecimal (u : Unicode) (c : CodePoint) : Bool := (u.decimal c).isSome

/-- `\w` -/
def isWord (u : Unicode) (c : CodePoint) : Bool := u.isalnum c || oneOf "_" c

/-- `str.strip()` -/
def strip (u : Unicode) (s : Str) : Str := (s.dropWhile u.isspace).rdropWhile u.isspace

theorem isDecimal_ascii (u : Unicode) (c : CodePoint) (plain : isAscii c) :
    u.isDecimal c = asciiDigit c := by
  rw [isDecimal,u.decimal_ascii c plain,asciiDecimal]
  split <;> simp_all

theorem strip_ascii (u : Unicode) {s : Str} (plain : s.all isAscii = true)
    (solid : s.all (fun c => !asciiSpace c) = true) : u.strip s = s := by
  have full : ∀ c ∈ s, u.isspace c = false := by
    intro c member
    rw [u.isspace_ascii c (List.all_eq_true.mp plain c member)]
    simpa using List.all_eq_true.mp solid c member
  have front : s.dropWhile u.isspace = s := by
    cases s with
    | nil => rfl
    | cons c rest => rw [List.dropWhile_cons_of_neg (by simp [full c])]
  rw [strip,front,List.rdropWhile_eq_self_iff]
  intro some
  simp [full _ (List.getLast_mem some)]

end Unicode

/-- `s[-n:]`, which is the whole string for `n = 0`. -/
def lastChars (n : Nat) (s : Str) : Str := if n = 0 then s else s.drop (s.length-n)

theorem lastChars_suffix (n : Nat) (s : Str) : lastChars n s <:+ s := by
  unfold lastChars
  split
  · exact List.suffix_rfl
  · exact List.drop_suffix _ _

theorem lastChars_length (n : Nat) (s : Str) (positive : n ≠ 0) :
    (lastChars n s).length = min n s.length := by
  simp only [lastChars,positive,if_false,List.length_drop]
  omega

private theorem lastChars_front (n : Nat) (front s : Str) (enough : n ≤ s.length ∨ front = []) :
    lastChars n (front ++ s) = lastChars n s ∨ n = 0 := by
  rcases enough with long | rfl
  · by_cases zero : n = 0
    · exact Or.inr zero
    · have count : (front++s).length-n = front.length+(s.length-n) := by
        rw [List.length_append]
        omega
      left
      simp only [lastChars,zero,if_false,count]
      rw [← List.drop_drop,List.drop_left]
  · exact Or.inl rfl

theorem lastChars_append (n : Nat) (s more : Str) (positive : n ≠ 0) :
    lastChars n (lastChars n s ++ more) = lastChars n (s ++ more) := by
  have front : s.take (s.length-n) ++ (lastChars n s ++ more) = s ++ more := by
    simp only [lastChars,positive,if_false,← List.append_assoc,List.take_append_drop]
  have enough : n ≤ (lastChars n s ++ more).length ∨ s.take (s.length-n) = [] := by
    rw [List.length_append,lastChars_length n s positive]
    by_cases short : s.length ≤ n
    · exact Or.inr (by simp [Nat.sub_eq_zero_of_le short])
    · exact Or.inl (by omega)
  rw [← front]
  exact ((lastChars_front n _ _ enough).resolve_right positive).symm

end GatewaySuite.Python
