import GatewaySuite.Lib.RegexLocality
import GatewaySuite.Python.Text

/-! The five patterns of the redactor and its two hold-back rules, character by
character as the source writes them. -/
namespace GatewaySuite.Guardrail
open Lib Python

inductive Label where
  | EMAIL
  | API_KEY
  | CREDIT_CARD
  | SSN
  | PHONE
deriving DecidableEq, Repr

def word (s : String) : Regex CodePoint :=
  (lit s).foldr (fun c rest => .seq (.chars (· == c)) rest) .empty

/-- `[A-Za-z0-9._%+\-]` -/
def emailLocal (c : CodePoint) : Bool := asciiAlnum c || oneOf "._%+-" c

/-- `[A-Za-z0-9.\-]` -/
def emailDomain (c : CodePoint) : Bool := asciiAlnum c || oneOf ".-" c

/-- `[ \-]` -/
def separator (c : CodePoint) : Bool := oneOf " -" c

/-- `\d` -/
def digit (u : Unicode) : Regex CodePoint := .chars u.isDecimal

/-- `[\d\-]` -/
def fence (u : Unicode) (c : CodePoint) : Bool := u.isDecimal c || oneOf "-" c

/-- `[A-Za-z0-9._%+\-]{1,64}@[A-Za-z0-9.\-]{1,255}\.[A-Za-z]{2,24}` -/
def email : Regex CodePoint :=
  .seq (.rep (.chars emailLocal) 1 63) <| .seq (.chars (oneOf "@")) <|
  .seq (.rep (.chars emailDomain) 1 254) <| .seq (.chars (oneOf ".")) <|
  .rep (.chars asciiLetter) 2 22

/-- `\b(?:sk|pk|rk)-(?:live|test|proj|ant)?-?[A-Za-z0-9]{16,64}\b` -/
def apiKey (u : Unicode) : Regex CodePoint :=
  .seq (.boundary u.isWord) <|
  .seq (.alt (word "sk") (.alt (word "pk") (word "rk"))) <| .seq (.chars (oneOf "-")) <|
  .seq (.opt (.alt (word "live") (.alt (word "test") (.alt (word "proj") (word "ant"))))) <|
  .seq (.opt (.chars (oneOf "-"))) <| .seq (.rep (.chars asciiAlnum) 16 48) <|
  .boundary u.isWord

/-- `(?<![\d\-])(?:\d[ \-]?){12,18}\d(?![\d\-])` -/
def creditCard (u : Unicode) : Regex CodePoint :=
  .seq (.notBehind (fence u)) <|
  .seq (.rep (.seq (digit u) (.opt (.chars separator))) 12 6) <| .seq (digit u) <|
  .notAhead (.chars (fence u))

/-- `(?<![\d\-])(?!000|666|9\d\d)\d{3}[- ]?(?!00)\d{2}[- ]?(?!0000)\d{4}(?![\d\-])` -/
def ssn (u : Unicode) : Regex CodePoint :=
  .seq (.notBehind (fence u)) <|
  .seq (.notAhead (.alt (word "000") (.alt (word "666")
    (.seq (.chars (oneOf "9")) (.seq (digit u) (digit u)))))) <|
  .seq (.rep (digit u) 3 0) <| .seq (.opt (.chars separator)) <|
  .seq (.notAhead (word "00")) <|
  .seq (.rep (digit u) 2 0) <| .seq (.opt (.chars separator)) <|
  .seq (.notAhead (word "0000")) <|
  .seq (.rep (digit u) 4 0) <| .notAhead (.chars (fence u))

/-- `(?<![\d\-])(?:\+1[ \-]?)?\(?\d{3}\)?[ \-]\d{3}[ \-]\d{4}(?![\d\-])` -/
def phone (u : Unicode) : Regex CodePoint :=
  .seq (.notBehind (fence u)) <|
  .seq (.opt (.seq (word "+1") (.opt (.chars separator)))) <|
  .seq (.opt (.chars (oneOf "("))) <| .seq (.rep (digit u) 3 0) <|
  .seq (.opt (.chars (oneOf ")"))) <| .seq (.chars separator) <|
  .seq (.rep (digit u) 3 0) <| .seq (.chars separator) <|
  .seq (.rep (digit u) 4 0) <| .notAhead (.chars (fence u))

/-- Ordered: the first pattern to match at a position wins. -/
def PATTERNS (u : Unicode) : List (Label × Regex CodePoint) :=
  [(.EMAIL,email),(.API_KEY,apiKey u),(.CREDIT_CARD,creditCard u),(.SSN,ssn u),(.PHONE,phone u)]

/-- `[A-Za-z0-9@._%+\-]` -/
def tokenChar (c : CodePoint) : Bool := asciiAlnum c || oneOf "@._%+-" c

/-- `[\d ()\-]` -/
def numberChar (u : Unicode) (c : CodePoint) : Bool := u.isDecimal c || oneOf " ()-" c

/-- `[A-Za-z0-9@._%+\-]+\Z` -/
def TAIL_TOKEN : Regex CodePoint :=
  .seq (.seq (.chars tokenChar) (.run tokenChar)) .eos

/-- `(?:[+(][\d ()\-]*|\d[\d ()\-]*)\Z` -/
def TAIL_DIGITS (u : Unicode) : Regex CodePoint :=
  .seq (.alt (.seq (.chars (oneOf "+(")) (.run (numberChar u)))
    (.seq (digit u) (.run (numberChar u)))) .eos

def numberStart (u : Unicode) (c : CodePoint) : Bool := oneOf "+(" c || u.isDecimal c

private theorem word_reads (s : String) (c : CodePoint) :
    ((word s).first c = true → c ∈ lit s) ∧ ((word s).follow c = true → c ∈ lit s) := by
  unfold word
  generalize lit s = cs
  induction cs with
  | nil => simp [Regex.first,Regex.follow]
  | cons d cs ih =>
    simp only [List.foldr_cons,Regex.first,Regex.follow,Regex.nullable,Regex.still,Bool.or_eq_true,
      Bool.and_eq_true,beq_iff_eq,List.mem_cons]
    grind

private theorem word_token (s : String) (plain : (lit s).all tokenChar = true) (c : CodePoint) :
    ((word s).first c = true → tokenChar c = true) ∧
      ((word s).follow c = true → tokenChar c = true) := by
  have all := List.all_eq_true.mp plain c
  exact ⟨fun read => all ((word_reads s c).1 read),fun read => all ((word_reads s c).2 read)⟩

theorem isDecimal_digit (u : Unicode) (c : CodePoint) (plain : asciiDigit c = true) :
    u.isDecimal c = true := by
  rw [u.isDecimal_ascii c]
  · exact plain
  · have top : '9'.toNat = 57 := rfl
    simp only [asciiDigit,between,isAscii,Bool.and_eq_true,decide_eq_true_eq] at plain ⊢
    omega

theorem email_token (c : CodePoint) :
    (email.first c = true → tokenChar c = true) ∧ (email.follow c = true → tokenChar c = true) := by
  have letters : asciiLetter c = true → tokenChar c = true := by
    simp only [tokenChar,asciiAlnum]
    grind
  simp only [email,Regex.first,Regex.follow,Regex.still,Regex.nullable]
  simp [emailLocal,emailDomain,tokenChar,oneOf,lit] at letters ⊢
  grind

theorem apiKey_token (u : Unicode) (c : CodePoint) :
    ((apiKey u).first c = true → tokenChar c = true) ∧
      ((apiKey u).follow c = true → tokenChar c = true) := by
  have sk := word_token "sk" (by decide) c
  have pk := word_token "pk" (by decide) c
  have rk := word_token "rk" (by decide) c
  have live := word_token "live" (by decide) c
  have test := word_token "test" (by decide) c
  have proj := word_token "proj" (by decide) c
  have ant := word_token "ant" (by decide) c
  have alnum : asciiAlnum c = true → tokenChar c = true := by
    simp only [tokenChar]
    grind
  have dash : oneOf "-" c = true → tokenChar c = true := by
    simp [tokenChar,oneOf,lit]
    grind
  simp only [apiKey,Regex.opt,Regex.first,Regex.follow,Regex.still,Regex.nullable]
  grind

def Numeric (u : Unicode) (r : Regex CodePoint) : Prop :=
  ∀ c, (r.first c = true → numberStart u c = true) ∧ (r.follow c = true → numberChar u c = true)

theorem creditCard_numeric (u : Unicode) : Numeric u (creditCard u) := by
  intro c
  simp [creditCard,digit,numberStart,numberChar,separator,fence,oneOf,lit,Regex.opt,Regex.first,
    Regex.follow,Regex.still,Regex.nullable]
  grind

theorem ssn_numeric (u : Unicode) : Numeric u (ssn u) := by
  intro c
  have zero := isDecimal_digit u 48 (by decide)
  have six := isDecimal_digit u 54 (by decide)
  have nine := isDecimal_digit u 57 (by decide)
  simp [ssn,digit,word,numberStart,numberChar,separator,fence,oneOf,lit,Regex.opt,Regex.first,
    Regex.follow,Regex.still,Regex.nullable]
  grind

theorem phone_numeric (u : Unicode) : Numeric u (phone u) := by
  intro c
  have one := isDecimal_digit u 49 (by decide)
  simp [phone,digit,word,numberStart,numberChar,separator,fence,oneOf,lit,Regex.opt,Regex.first,
    Regex.follow,Regex.still,Regex.nullable]
  grind

/-- Every character an attempt can read is in the class of one of the hold-back rules. -/
theorem patterns_covered (u : Unicode) : ∀ x ∈ PATTERNS u,
    (∀ c, (x.2.first c = true → tokenChar c = true) ∧ (x.2.follow c = true → tokenChar c = true)) ∨
      Numeric u x.2 := by
  simp only [PATTERNS,List.mem_cons,List.not_mem_nil,or_false]
  rintro p (rfl | rfl | rfl | rfl | rfl)
  · exact Or.inl email_token
  · exact Or.inl (apiKey_token u)
  · exact Or.inr (creditCard_numeric u)
  · exact Or.inr (ssn_numeric u)
  · exact Or.inr (phone_numeric u)

theorem patterns_nonempty (u : Unicode) : ∀ p ∈ PATTERNS u, p.2.nullable = false := by
  simp only [PATTERNS,List.mem_cons,List.not_mem_nil,or_false]
  rintro p (rfl | rfl | rfl | rfl | rfl) <;> rfl

theorem patterns_move (u : Unicode) {x : Label × Regex CodePoint} (member : x ∈ PATTERNS u) {t : Str}
    {p q : Nat} (matched : x.2.Matches t p q) : p < q := by
  have forward := matched.bounds
  have moved : q ≠ p := by
    intro same
    subst q
    have empty := matched.nullable
    rw [patterns_nonempty u x member] at empty
    cases empty
  omega

theorem patterns_bounded (u : Unicode) : ∀ p ∈ PATTERNS u, p.2.bounded = true := by
  simp only [PATTERNS,List.mem_cons,List.not_mem_nil,or_false]
  rintro p (rfl | rfl | rfl | rfl | rfl) <;> rfl

/-- The longest attempt is that of the email pattern: 64 + 1 + 255 + 1 + 24. -/
theorem patterns_width (u : Unicode) : ∀ p ∈ PATTERNS u, p.2.width ≤ 345 := by
  simp only [PATTERNS,List.mem_cons,List.not_mem_nil,or_false]
  rintro p (rfl | rfl | rfl | rfl | rfl)
  · exact (by decide : email.width ≤ 345)
  · exact (by decide : (apiKey asciiUnicode).width ≤ 345)
  · exact (by decide : (creditCard asciiUnicode).width ≤ 345)
  · exact (by decide : (ssn asciiUnicode).width ≤ 345)
  · exact (by decide : (phone asciiUnicode).width ≤ 345)

end GatewaySuite.Guardrail
