import GatewaySuite.Guardrail.Context
import GatewaySuite.Guardrail.Coverage
import GatewaySuite.Lib.RegexContext

/-! A second pass over a redacted text. No pattern reads a bracket, so a second pass judges
each published stretch as if it stood alone; what it still finds there is what the first
pass judged by a neighbour that is now replaced, or gave up with a rejected card. -/
namespace GatewaySuite.Guardrail
open Lib Python
variable (u : Unicode)

/-- `iter_matches` finds nothing in the text. -/
def Silent (text : Str) : Prop := ∀ p, acceptedAt u text p = none

theorem silent_iff (text : Str) : iterMatches u text 0 = [] ↔ Silent u text := by
  rw [iterMatches_eq]
  constructor
  · intro none p
    by_contra some
    obtain ⟨⟨label,stop⟩,taken⟩ := Option.ne_none_iff_exists'.mp some
    have inside := combinedAt_bounds u ((acceptedAt_some u).mp taken).1
    have size : p ≤ (scanner u text).top := by
      change p ≤ text.length
      omega
    rcases (scanner u text).visited_or_covered (Nat.zero_le p) size with seen | ⟨h,member,_⟩
    · have member := ((scanner u text).mem_hits_iff 0 ⟨p,stop,label⟩).mpr ⟨seen,taken⟩
      simp [none] at member
    · simp [none] at member
  · exact fun silent => (scanner u text).hits_nil fun p _ => silent p

theorem bracket_inert : ∀ x ∈ PATTERNS u, x.2.inert 91 = true := by
  have decimal : u.isDecimal 91 = false := u.isDecimal_ascii 91 (by decide)
  have letter : u.isalnum 91 = false := u.isalnum_ascii 91 (by decide)
  simp [PATTERNS,email,apiKey,creditCard,ssn,phone,digit,word,fence,separator,emailLocal,emailDomain,
    Regex.opt,Regex.inert,Unicode.isWord,decimal,letter]
  decide

theorem bracket_first : ∀ x ∈ PATTERNS u, x.2.first 91 = false := by
  have decimal : u.isDecimal 91 = false := u.isDecimal_ascii 91 (by decide)
  have plain : tokenChar 91 = false ∧ numberStart u 91 = false := by
    simp only [numberStart,decimal]
    decide
  intro x member
  by_contra begins
  rcases patterns_covered u x member with token | number
  · simp [(token 91).1 (by simpa using begins)] at plain
  · simp [(number 91).1 (by simpa using begins)] at plain

private theorem placeholder_number {c : CodePoint} (inside : c ∈ DEFAULT_PLACEHOLDER) :
    numberStart u c = false := by
  have plain : DEFAULT_PLACEHOLDER.all
      (fun c => isAscii c && !oneOf "+(" c && !asciiDigit c) = true := by decide
  have here := List.all_eq_true.mp plain c inside
  simp only [Bool.and_eq_true,Bool.not_eq_true'] at here
  obtain ⟨⟨ascii,sign⟩,digit⟩ := here
  rw [numberStart,sign,u.isDecimal_ascii c ascii,digit,Bool.or_false]

theorem placeholder_first : ∀ x ∈ PATTERNS u, x.1 ≠ .EMAIL →
    ∀ c ∈ DEFAULT_PLACEHOLDER, x.2.first c = false := by
  have numeric {r : Regex CodePoint} (number : Numeric u r) {c : CodePoint}
      (inside : c ∈ DEFAULT_PLACEHOLDER) : r.first c = false := by
    by_contra begins
    have opens := (number c).1 (by simpa using begins)
    simp [placeholder_number u inside] at opens
  have key : DEFAULT_PLACEHOLDER.all (fun c => !(apiKey asciiUnicode).first c) = true := by decide
  simp only [PATTERNS,List.mem_cons,List.not_mem_nil,or_false]
  rintro x (rfl | rfl | rfl | rfl | rfl) kind c inside
  · exact absurd rfl kind
  · have plain := List.all_eq_true.mp key c inside
    simp only [Bool.not_eq_true'] at plain
    exact plain
  · exact numeric (creditCard_numeric u) inside
  · exact numeric (ssn_numeric u) inside
  · exact numeric (phone_numeric u) inside

theorem email_silent (front rest : Str) {k : Nat} (inside : k < DEFAULT_PLACEHOLDER.length) :
    email.ends (front ++ (DEFAULT_PLACEHOLDER ++ rest)) (front.length+k) = [] := by
  have split : front ++ (DEFAULT_PLACEHOLDER ++ rest) = front ++ lit "[REDACTED" ++ 93 :: rest := by
    rw [List.append_assoc]
    rfl
  have short : k ≤ (lit "[REDACTED").length := by
    have size : DEFAULT_PLACEHOLDER.length = (lit "[REDACTED").length + 1 := rfl
    omega
  have alone : ∀ k, k ≤ (lit "[REDACTED").length → email.ends (lit "[REDACTED") k = [] := by decide
  rw [split,Regex.ends_barrier _ _ _ _ _ (by rw [List.length_append]; omega) (by decide),
    Regex.ends_shift_free _ _ _ ⟨rfl,rfl⟩,alone k short]
  rfl

theorem matches_first {x : Label × Regex CodePoint} (member : x ∈ PATTERNS u) {t : Str} {p q : Nat}
    (matched : x.2.Matches t p q) : Regex.holds t x.2.first p = true := by
  have forward := patterns_move u member matched
  simpa using matched.spelled.2 p le_rfl forward

theorem pattern_of_email {x : Label × Regex CodePoint} (member : x ∈ PATTERNS u) (mail : x.1 = .EMAIL) :
    x.2 = email := by
  simp only [PATTERNS,List.mem_cons,List.not_mem_nil,or_false] at member
  rcases member with rfl | rfl | rfl | rfl | rfl
  · rfl
  all_goals cases mail

theorem combinedAt_placeholder (front rest : Str) {k : Nat} (inside : k < DEFAULT_PLACEHOLDER.length) :
    combinedAt u (front ++ (DEFAULT_PLACEHOLDER ++ rest)) (front.length+k) = none := by
  rw [combinedAt_none]
  intro x member stop matched
  by_cases mail : x.1 = .EMAIL
  · rw [← Regex.mem_ends,pattern_of_email u member mail,email_silent front rest inside] at matched
    cases matched
  · have begins := matches_first u member matched
    obtain ⟨c,here⟩ : ∃ c, DEFAULT_PLACEHOLDER[k]? = some c := ⟨_,List.getElem?_eq_getElem inside⟩
    have place : (front ++ (DEFAULT_PLACEHOLDER ++ rest))[front.length+k]? = some c := by
      rw [List.getElem?_append_right (Nat.le_add_right _ _),Nat.add_sub_cancel_left,
        List.getElem?_append_left inside,here]
    simp [Regex.holds,place,placeholder_first u x member mail c (List.mem_of_getElem? here)] at begins

/-- In front of a placeholder the text looks as if it ended there. -/
theorem acceptedAt_before (w rest : Str) (q : Nat) (inside : q ≤ w.length) :
    acceptedAt u (w ++ (DEFAULT_PLACEHOLDER ++ rest)) q = acceptedAt u w q := by
  apply acceptedAt_left
  unfold combinedAt
  apply findSome_congr
  intro x member
  have cut : DEFAULT_PLACEHOLDER ++ rest = 91 :: (lit "REDACTED]" ++ rest) := rfl
  simp only [cut,Regex.ends_barrier w _ 91 x.2 q inside (bracket_inert u x member)]

/-- Behind a placeholder the text looks as if it started there. -/
theorem acceptedAt_behind (w rest : Str) (q : Nat) :
    acceptedAt u (w ++ DEFAULT_PLACEHOLDER ++ rest) ((w ++ DEFAULT_PLACEHOLDER).length+q) = none ↔
      acceptedAt u rest q = none := by
  have decimal : u.isDecimal 93 = false := u.isDecimal_ascii 93 (by decide)
  have letter : u.isalnum 93 = false := u.isalnum_ascii 93 (by decide)
  have last (admits : CodePoint → Bool) : behind (w ++ DEFAULT_PLACEHOLDER) admits = admits 93 := by
    rw [behind_append w DEFAULT_PLACEHOLDER admits (by decide)]
    rfl
  have alike : Alike u (w ++ DEFAULT_PLACEHOLDER) [] rest := by
    refine ⟨?_,Or.inl ?_⟩
    · rw [last,fence,decimal]
      rfl
    · rw [last,Unicode.isWord,letter]
      rfl
  have start := acceptedAt_window u [] rest q
  rw [List.nil_append,List.length_nil,Nat.zero_add] at start
  rw [acceptedAt_window,windowAt_alike u alike,start,Option.map_eq_none_iff,Option.map_eq_none_iff]

theorem silent_append (w rest : Str) :
    Silent u (w ++ (DEFAULT_PLACEHOLDER ++ rest)) ↔ Silent u w ∧ Silent u rest := by
  constructor
  · intro silent
    refine ⟨fun p => ?_,fun p => ?_⟩
    · by_cases inside : p ≤ w.length
      · rw [← acceptedAt_before u w rest p inside]
        exact silent p
      · cases found : acceptedAt u w p with
        | none => rfl
        | some pair =>
          have bounds := combinedAt_bounds u ((acceptedAt_some u).mp found).1
          omega
    · rw [← acceptedAt_behind u w rest p,List.append_assoc]
      exact silent _
  · rintro ⟨first,second⟩ p
    by_cases before : p ≤ w.length
    · rw [acceptedAt_before u w rest p before]
      exact first p
    · by_cases inside : p < w.length+DEFAULT_PLACEHOLDER.length
      · obtain ⟨k,rfl⟩ := Nat.exists_eq_add_of_le (by omega : w.length ≤ p)
        simp only [acceptedAt,combinedAt_placeholder u w rest (by omega : k < DEFAULT_PLACEHOLDER.length)]
      · obtain ⟨k,rfl⟩ := Nat.exists_eq_add_of_le (by omega : w.length+DEFAULT_PLACEHOLDER.length ≤ p)
        rw [← List.length_append,← List.append_assoc,acceptedAt_behind]
        exact second k

theorem silent_intercalate (parts : List Str) :
    Silent u (DEFAULT_PLACEHOLDER.intercalate parts) ↔ ∀ part ∈ parts, Silent u part := by
  induction parts with
  | nil =>
    simp only [List.not_mem_nil,false_implies,implies_true,iff_true]
    exact (silent_iff u []).mp rfl
  | cons w rest ih =>
    by_cases more : rest = []
    · simp [more]
    · rw [List.intercalate_cons_of_ne_nil more,List.append_assoc,silent_append,ih,List.forall_mem_cons]

/-- A pass leaves a text alone only if it finds nothing: a placeholder starts with a
bracket, and no match does. -/
theorem redactComplete_fixed (text : Str) :
    redactComplete u text DEFAULT_PLACEHOLDER = text ↔ iterMatches u text 0 = [] := by
  rw [redactComplete_eq,iterMatches_eq]
  cases shape : (scanner u text).hits 0 with
  | nil => simp [splice,slice_zero]
  | cons h rest =>
    simp only [reduceCtorEq,iff_false]
    intro same
    obtain ⟨_,forward,fits,chosen⟩ := (scanner u text).hit_bounds 0 h (by simp [shape])
    obtain ⟨pattern,member,matched⟩ := combinedAt_some u ((acceptedAt_some u).mp chosen).1
    have begins := matches_first u member matched
    have low : h.start ≤ text.length := by
      change h.stop ≤ text.length at fits
      omega
    have bracket : text[h.start]? = some 91 := by
      have short : ¬ text.length < h.stop := Nat.not_lt.mpr fits
      have size : (slice text 0 h.start).length = h.start := slice_length text low
      rw [← same,splice,if_neg short,List.append_assoc,List.getElem?_append_right (by omega),size,
        Nat.sub_self]
      rfl
    simp [Regex.holds,bracket,bracket_first u _ member] at begins

theorem published_nothing {text : Str} {piece : Nat × Nat} (written : piece ∈ published u text)
    {p : Nat} (low : piece.1 ≤ p) (high : p < piece.2) : acceptedAt u text p = none := by
  have inside := published_inside u written
  have size : p ≤ (scanner u text).top := by
    change p ≤ text.length
    omega
  cases taken : acceptedAt u text p with
  | none => rfl
  | some pair =>
    exfalso
    have forward := combinedAt_bounds u ((acceptedAt_some u).mp taken).1
    rcases (scanner u text).visited_or_covered (Nat.zero_le p) size with seen | ⟨h,member,torn⟩
    · have member := ((scanner u text).mem_hits_iff 0 ⟨p,pair.2,pair.1⟩).mpr ⟨seen,taken⟩
      have apart := published_avoid u written member
      dsimp only at apart
      omega
    · have left := torn.1
      have right := torn.2
      have apart := published_avoid u written member
      omega

theorem patterns_ahead : ∀ x ∈ PATTERNS u, x.2.ahead ≤ 1 := by
  simp only [PATTERNS,List.mem_cons,List.not_mem_nil,or_false]
  rintro x (rfl | rfl | rfl | rfl | rfl)
  · exact (by decide : email.ahead ≤ 1)
  · exact (by decide : (apiKey asciiUnicode).ahead ≤ 1)
  · exact (by decide : (creditCard asciiUnicode).ahead ≤ 1)
  · exact (by decide : (ssn asciiUnicode).ahead ≤ 1)
  · exact (by decide : (phone asciiUnicode).ahead ≤ 1)

/-- The e-mail pattern is the first alternative and is never turned down. -/
theorem email_accepted {text : Str} {p q : Nat} (matched : email.Matches text p q) :
    acceptedAt u text p ≠ none := by
  have some : email.ends text p ≠ [] := by
    rw [ne_eq,Regex.ends_nil_iff]
    exact fun none => none q matched
  obtain ⟨stop,others,ends⟩ := List.exists_cons_of_ne_nil some
  have found : combinedAt u text p = .some (.EMAIL,stop) := by simp [combinedAt,PATTERNS,ends]
  simp [acceptedAt,found,isRejected]

/-- A match in a stretch is one in the text, unless a lookaround of it sees over the end of
the stretch. The e-mail pattern has none. -/
theorem matches_within {text : Str} {a b i j : Nat} (order : a ≤ b ∧ b ≤ text.length)
    {x : Label × Regex CodePoint} (member : x ∈ PATTERNS u)
    (matched : x.2.Matches (slice text a b) i j)
    (clear : x.1 = .EMAIL ∨ (0 < i ∨ a = 0) ∧ (a+j < b ∨ b = text.length)) :
    x.2.Matches text (a+i) (a+j) := by
  have whole : text.take a ++ slice text a b ++ text.drop b = text := by
    rw [← slice_zero text a,slice_append text (Nat.zero_le a) order.1,slice_zero,
      List.take_append_drop]
  have front : (text.take a).length = a := List.length_take_of_le (by omega)
  have size : (slice text a b).length = b-a := slice_length text order.2
  have moved : x.2.Matches (text.take a ++ slice text a b ++ text.drop b)
      ((text.take a).length+i) ((text.take a).length+j) := by
    apply matched.surround (patterns_bounded u x member)
    · rcases clear with mail | ⟨inner | start,_⟩
      · rw [pattern_of_email u member mail]
        exact Or.inr (Or.inr ⟨rfl,rfl⟩)
      · exact Or.inl inner
      · exact Or.inr (Or.inl (by rw [start,List.take_zero]))
    · rcases clear with mail | ⟨_,inner | stop⟩
      · have forward := patterns_move u member matched
        have bounds := matched.bounds
        have near : x.2.ahead = 0 := by
          rw [pattern_of_email u member mail]
          rfl
        exact Or.inl (by omega)
      · have near := patterns_ahead u x member
        exact Or.inl (by omega)
      · exact Or.inr (by rw [stop,List.drop_length])
  rwa [whole,front] at moved

/-- What a second pass finds in a published stretch: no e-mail address, and it touches a
replaced neighbour, or starts where the first pass turned a card down. -/
def Exposed (text : Str) (a b : Nat) : Prop :=
  ∃ i label j, acceptedAt u (slice text a b) i = some (label,j) ∧ label ≠ .EMAIL ∧
    (i = 0 ∧ 0 < a ∨ a+j = b ∧ b < text.length ∨ RejectedAt u text (a+i))

theorem exposed_of_accepted {text : Str} {piece : Nat × Nat} (written : piece ∈ published u text)
    {i j : Nat} {label : Label}
    (found : acceptedAt u (slice text piece.1 piece.2) i = some (label,j)) :
    Exposed u text piece.1 piece.2 := by
  obtain ⟨chosen,kept⟩ := (acceptedAt_some u).mp found
  obtain ⟨pattern,member,matched⟩ := combinedAt_some u chosen
  have order := published_inside u written
  have bounds := combinedAt_bounds u chosen
  rw [slice_length text order.2] at bounds
  have nothing : acceptedAt u text (piece.1+i) = none :=
    published_nothing u written (Nat.le_add_right _ _) (by omega)
  have other : label ≠ .EMAIL := by
    intro mail
    have here := matches_within u order member matched (Or.inl mail)
    rw [pattern_of_email u member mail] at here
    exact email_accepted u here nothing
  refine ⟨i,label,j,found,other,?_⟩
  by_contra hidden
  simp only [not_or,not_and] at hidden
  obtain ⟨front,back,rejected⟩ := hidden
  have here := matches_within u order member matched (Or.inr ⟨by omega,by omega⟩)
  have card : label = .CREDIT_CARD → isCard u (slice text (piece.1+i) (piece.1+j)) = true := by
    intro same
    rw [← slice_slice text (by omega : piece.1+j ≤ piece.2)]
    simpa [isRejected,same] using kept
  exact rejected (rejectedAt_of_none u ⟨label,pattern,member,here,card⟩ nothing)

theorem silent_published (text : Str) :
    Silent u (redactComplete u text DEFAULT_PLACEHOLDER) ↔
      ∀ piece ∈ published u text, ¬ Exposed u text piece.1 piece.2 := by
  rw [redactComplete_published,silent_intercalate,List.forall_mem_map]
  apply forall₂_congr
  intro piece written
  constructor
  · rintro silent ⟨i,label,j,found,_⟩
    simp [silent i] at found
  · intro hidden i
    cases found : acceptedAt u (slice text piece.1 piece.2) i with
    | none => rfl
    | some pair => exact absurd (exposed_of_accepted u written found) hidden

/-- A second pass changes nothing, and `iter_matches` finds nothing in the output, exactly if
no published stretch has a match that is exposed. -/
theorem second_pass (text : Str) :
    let out := redactComplete u text DEFAULT_PLACEHOLDER
    (redactComplete u out DEFAULT_PLACEHOLDER = out ↔
        ∀ piece ∈ published u text, ¬ Exposed u text piece.1 piece.2) ∧
      (iterMatches u out 0 = [] ↔ ∀ piece ∈ published u text, ¬ Exposed u text piece.1 piece.2) := by
  intro out
  have found := (silent_iff u out).trans (silent_published u text)
  exact ⟨(redactComplete_fixed u out).trans found,found⟩

/-- A key glued to a card: its word boundary fails behind a digit and holds behind a bracket. -/
theorem key_behind_card :
    let text := lit "4111111111111111sk-live-0123456789abcdef"
    let out := redactComplete asciiUnicode text DEFAULT_PLACEHOLDER
    out = lit "[REDACTED]sk-live-0123456789abcdef" ∧
      redactComplete asciiUnicode out DEFAULT_PLACEHOLDER = lit "[REDACTED][REDACTED]" ∧
      redactComplete asciiUnicode out DEFAULT_PLACEHOLDER ≠ out := by
  decide +kernel

end GatewaySuite.Guardrail
