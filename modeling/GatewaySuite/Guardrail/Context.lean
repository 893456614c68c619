import GatewaySuite.Guardrail.Streaming

/-! What the text before the buffer decides. A pattern sees only whether the character
before its start is a digit or a dash, or a word character, so two redactors with the same
buffer behave alike if their contexts agree on that. -/
namespace GatewaySuite.Guardrail
open Lib Python
variable (u : Unicode)

/-- Whether a context ends with a character of a class. -/
def behind (context : Str) (admits : CodePoint → Bool) : Bool := context.getLast?.any admits

theorem holdsBehind_context (context w : Str) (admits : CodePoint → Bool) :
    Regex.holdsBehind (context++w) admits context.length = behind context admits := by
  rcases List.eq_nil_or_concat context with rfl | ⟨front,c,rfl⟩
  · rfl
  · simp [Regex.holdsBehind,Regex.holds,behind]

theorem behind_append (context more : Str) (admits : CodePoint → Bool) (some : more ≠ []) :
    behind (context++more) admits = behind more admits := by
  simp only [behind,List.getLast?_append_of_ne_nil _ some]

/-- The patterns cannot tell two contexts apart in front of a text. -/
structure Alike (first second w : Str) : Prop where
  fenced : behind first (fence u) = behind second (fence u)
  worded : behind first u.isWord = behind second u.isWord ∨ Regex.holds w u.isWord 0 = false ∧ w ≠ []

theorem Alike.symm {u : Unicode} {first second w : Str} (alike : Alike u first second w) :
    Alike u second first w :=
  ⟨alike.fenced.symm,alike.worded.imp_left Eq.symm⟩

theorem patterns_looks : ∀ x ∈ PATTERNS u, x.2.anchored = false ∧
    ∀ admits ∈ x.2.looks, admits = fence u ∨ admits = u.isWord ∧ x.2 = apiKey u := by
  simp [PATTERNS,email,apiKey,creditCard,ssn,phone,digit,word,lit,Regex.anchored,Regex.looks,
    Regex.opt]

/-- A key starts with one of three letters. -/
theorem apiKey_letter {t : Str} {p : Nat} (other : Regex.holds t (oneOf "spr") p = false) :
    (apiKey u).ends t p = [] := by
  rw [Regex.ends_nil_iff]
  rintro q ⟨m,⟨rfl,_⟩,m',letters,_⟩
  have first (c : CodePoint) (letter : oneOf "spr" c = true)
      (here : Regex.holds t (· == c) m = true) : False := by
    have read : Regex.holds t (oneOf "spr") m = true :=
      Regex.holds_mono (fun d same => by rwa [eq_of_beq same]) here
    rw [other] at read
    cases read
  rcases letters with s | p | r
  · obtain ⟨_,⟨rfl,here⟩,_⟩ := s
    exact first _ (by decide) here
  · obtain ⟨_,⟨rfl,here⟩,_⟩ := p
    exact first _ (by decide) here
  · obtain ⟨_,⟨rfl,here⟩,_⟩ := r
    exact first _ (by decide) here

theorem letter_word (c : CodePoint) (letter : oneOf "spr" c = true) :
    u.isWord c = true ∧ numberStart u c = false := by
  have plain : isAscii c = true ∧ asciiAlnum c = true ∧ oneOf "+(" c = false ∧
      asciiDigit c = false := by
    simp [oneOf,lit] at letter
    rcases letter with rfl | rfl | rfl <;> decide
  obtain ⟨low,alnum,unopened,undigital⟩ := plain
  simp only [Unicode.isWord,u.isalnum_ascii c low,alnum,Bool.true_or,numberStart,unopened,
    u.isDecimal_ascii c low,undigital,Bool.or_self,and_self]

theorem holds_context (context w : Str) (admits : CodePoint → Bool) (q : Nat) :
    Regex.holds (context++w) admits (context.length+q) = Regex.holds w admits q := by
  simp [Regex.holds,List.getElem?_append_right]

private theorem ends_behind {first second w : Str} (longer : second.length ≤ first.length)
    (r : Regex CodePoint) (plain : r.anchored = false) (q : Nat)
    (seen : 0 < q ∨ ∀ admits ∈ r.looks, behind first admits = behind second admits) :
    r.ends (first++w) (first.length-second.length+(second.length+q)) =
      (r.ends (second++w) (second.length+q)).map (first.length-second.length + ·) := by
  have back : first.length-second.length+second.length = first.length := by omega
  refine Regex.ends_tail (by rw [back]; simp) (by simp; omega) r _ (by omega) ?_
    (Or.inr (Or.inr plain))
  refine seen.imp (fun inner => by omega) fun alike admits looked => ?_
  rw [back,holdsBehind_context,holdsBehind_context]
  exact alike admits looked

private theorem ends_fenced {first second w : Str}
    (fenced : behind first (fence u) = behind second (fence u)) (longer : second.length ≤ first.length)
    (x : Label × Regex CodePoint) (member : x ∈ PATTERNS u) (other : x.2 ≠ apiKey u) (q : Nat) :
    x.2.ends (first++w) (first.length-second.length+(second.length+q)) =
      (x.2.ends (second++w) (second.length+q)).map (first.length-second.length + ·) := by
  obtain ⟨plain,looks⟩ := patterns_looks u x member
  refine ends_behind longer x.2 plain q (Or.inr fun admits seen => ?_)
  rcases looks admits seen with rfl | ⟨_,key⟩
  · exact fenced
  · exact absurd key other

private theorem ends_alike {first second w : Str} (alike : Alike u first second w)
    (longer : second.length ≤ first.length) (x : Label × Regex CodePoint) (member : x ∈ PATTERNS u)
    (q : Nat) :
    x.2.ends (first++w) (first.length-second.length+(second.length+q)) =
      (x.2.ends (second++w) (second.length+q)).map (first.length-second.length + ·) := by
  obtain ⟨plain,looks⟩ := patterns_looks u x member
  by_cases hidden : q = 0 ∧ x.2 = apiKey u ∧ Regex.holds w u.isWord 0 = false
  · obtain ⟨rfl,key,dull⟩ := hidden
    have back : first.length-second.length+second.length = first.length := by omega
    have held (context : Str) : Regex.holds (context++w) (oneOf "spr") context.length = false := by
      rw [← Nat.add_zero context.length,holds_context]
      by_contra letter
      have word := Regex.holds_mono (fun c good => (letter_word u c good).1) (by simpa using letter)
      rw [dull] at word
      cases word
    rw [Nat.add_zero,back,key,apiKey_letter u (held first),apiKey_letter u (held second)]
    rfl
  · refine ends_behind longer x.2 plain q ?_
    by_cases start : q = 0
    · right
      intro admits seen
      rcases looks admits seen with rfl | ⟨rfl,key⟩
      · exact alike.fenced
      · exact alike.worded.resolve_right fun dull => hidden ⟨start,key,dull.1⟩
    · exact Or.inl (by omega)

/-- The decision at a position of the window behind a context, in positions of the window. -/
def windowAt (context w : Str) (q : Nat) : Option (Label × Nat) :=
  (acceptedAt u (context++w) (context.length+q)).map fun found => (found.1,found.2-context.length)

theorem acceptedAt_window (context w : Str) (q : Nat) :
    acceptedAt u (context++w) (context.length+q) =
      (windowAt u context w q).map fun found => (found.1,context.length+found.2) := by
  unfold windowAt
  cases found : acceptedAt u (context++w) (context.length+q) with
  | none => rfl
  | some pair =>
    have forward := (scanner u (context++w)).advances _ pair.1 pair.2 found
    have back : context.length+(pair.2-context.length) = pair.2 := by omega
    simp [back]

private theorem windowAt_combined {first second w : Str} (longer : second.length ≤ first.length) (q : Nat)
    (combined : combinedAt u (first++w) (first.length+q) =
      (combinedAt u (second++w) (second.length+q)).map fun found =>
        (found.1,first.length-second.length+found.2)) :
    windowAt u first w q = windowAt u second w q := by
  unfold windowAt acceptedAt
  rw [combined]
  cases found : combinedAt u (second++w) (second.length+q) with
  | none => rfl
  | some pair =>
    obtain ⟨label,stop⟩ := pair
    have bounds := combinedAt_bounds u found
    have back : first.length-second.length+stop-first.length = stop-second.length := by omega
    have kept : isRejected u (first++w) ⟨first.length+q,first.length-second.length+stop,label⟩ =
        isRejected u (second++w) ⟨second.length+q,stop,label⟩ := by
      have tail : stop = second.length+(stop-second.length) := by omega
      have tail' : first.length-second.length+stop = first.length+(stop-second.length) := by omega
      simp only [isRejected]
      rw [tail',tail,slice_shift,slice_shift]
      simp
    simp only [Option.map_some,kept]
    split_ifs
    · rfl
    · simp [back]

private theorem windowAt_ends {first second w : Str} (longer : second.length ≤ first.length) (q : Nat)
    (same : ∀ x ∈ PATTERNS u,
      x.2.ends (first++w) (first.length-second.length+(second.length+q)) =
        (x.2.ends (second++w) (second.length+q)).map (first.length-second.length + ·)) :
    windowAt u first w q = windowAt u second w q := by
  refine windowAt_combined u longer q ?_
  have place : first.length+q = first.length-second.length+(second.length+q) := by omega
  unfold combinedAt
  rw [List.map_findSome?]
  apply findSome_congr
  intro x member
  rw [place]
  simp only [same x member,Function.comp_apply,List.head?_map,Option.map_map]
  rfl

private theorem windowAt_longer {first second w : Str} (alike : Alike u first second w)
    (longer : second.length ≤ first.length) (q : Nat) :
    windowAt u first w q = windowAt u second w q :=
  windowAt_ends u longer q fun x member => ends_alike u alike longer x member q

theorem windowAt_alike {first second w : Str} (alike : Alike u first second w) (q : Nat) :
    windowAt u first w q = windowAt u second w q := by
  rcases Nat.le_total second.length first.length with longer | longer
  · exact windowAt_longer u alike longer q
  · exact (windowAt_longer u alike.symm longer q).symm

private theorem numeric_silent {t : Str} {p : Nat} (letter : Regex.holds t (numberStart u) p = false)
    {x : Label × Regex CodePoint} (member : x ∈ PATTERNS u) (numeric : Numeric u x.2) :
    x.2.ends t p = [] := by
  rw [Regex.ends_nil_iff]
  intro q matched
  have moved := patterns_move u member matched
  have read := (matched.spelled.mono (fun c => (numeric c).1) fun c => (numeric c).2).2 p le_rfl moved
  rw [if_pos rfl,letter] at read
  cases read

private theorem combinedAt_letter {t : Str} {p : Nat} (letter : Regex.holds t (numberStart u) p = false) :
    combinedAt u t p =
      ((email.ends t p).head?.map fun stop => (Label.EMAIL,stop)).or
        (((apiKey u).ends t p).head?.map fun stop => (Label.API_KEY,stop)) := by
  have card := numeric_silent u letter (x := (.CREDIT_CARD,creditCard u)) (by simp [PATTERNS])
    (creditCard_numeric u)
  have social := numeric_silent u letter (x := (.SSN,ssn u)) (by simp [PATTERNS]) (ssn_numeric u)
  have phone := numeric_silent u letter (x := (.PHONE,phone u)) (by simp [PATTERNS]) (phone_numeric u)
  simp only [combinedAt,PATTERNS,List.findSome?_cons,card,social,phone,List.head?_nil,Option.map_none,
    List.findSome?_nil]
  cases email.ends t p <;> cases (apiKey u).ends t p <;> rfl

private theorem apiKey_boundary {context w : Str} (found : (apiKey u).ends (context++w) context.length ≠ []) :
    behind context u.isWord ≠ Regex.holds w u.isWord 0 := by
  obtain ⟨stop,member⟩ := List.exists_mem_of_ne_nil _ found
  obtain ⟨m,⟨rfl,edge⟩,_⟩ := (Regex.mem_ends _ _ _ _).mp member
  have here := holds_context context w u.isWord 0
  rw [Nat.add_zero] at here
  rwa [holdsBehind_context,here] at edge

private theorem windowAt_split_longer {first second w : Str}
    (fenced : behind first (fence u) = behind second (fence u)) (longer : second.length ≤ first.length)
    (differ : windowAt u first w 0 ≠ windowAt u second w 0) :
    windowAt u first w 0 = none ∨ windowAt u second w 0 = none := by
  have back : first.length-second.length+(second.length+0) = first.length := by omega
  by_cases number : Regex.holds w (numberStart u) 0 = true
  -- no key starts with a number, and the other patterns see no difference
  · have silent (context : Str) : (apiKey u).ends (context++w) (context.length+0) = [] := by
      refine apiKey_letter u ?_
      rw [holds_context]
      by_contra letter
      have plain := Regex.holds_mono (t := w) (p := 0) (f := oneOf "spr")
        (g := fun c => !numberStart u c) (fun c good => by simp [(letter_word u c good).2])
        (by simpa using letter)
      simp only [Regex.holds,Option.any_eq_true] at number plain
      obtain ⟨c,here,good⟩ := number
      obtain ⟨d,there,bad⟩ := plain
      obtain rfl := Option.some.inj (here.symm.trans there)
      simp [good] at bad
    refine absurd (windowAt_ends u longer 0 fun x member => ?_) differ
    by_cases key : x.2 = apiKey u
    · rw [key,silent second,back,← Nat.add_zero first.length,silent first]
      rfl
    · exact ends_fenced u fenced longer x member key 0
  · have letter (context : Str) : Regex.holds (context++w) (numberStart u) (context.length+0) = false := by
      rw [holds_context]
      simpa using number
    have emails := ends_fenced u (w := w) fenced longer (.EMAIL,email) (by simp [PATTERNS])
      (by simp [email,apiKey]) 0
    rw [back] at emails
    cases shape : email.ends (second++w) (second.length+0) with
    | cons stop rest =>
      refine absurd (windowAt_combined u longer 0 ?_) differ
      rw [combinedAt_letter u (letter first),combinedAt_letter u (letter second),Nat.add_zero,emails,
        shape]
      rfl
    | nil =>
      rw [shape] at emails
      have keyed (context : Str) (none : email.ends (context++w) (context.length+0) = [])
          (found : windowAt u context w 0 ≠ Option.none) :
          (apiKey u).ends (context++w) context.length ≠ [] := by
        intro unkeyed
        apply found
        rw [windowAt,acceptedAt,combinedAt_letter u (letter context),none,Nat.add_zero,unkeyed]
        rfl
      by_contra both
      obtain ⟨here,there⟩ := not_or.mp both
      have one := apiKey_boundary u (keyed first emails here)
      have other := apiKey_boundary u (keyed second shape there)
      refine differ (windowAt_alike u ⟨fenced,Or.inl ?_⟩ 0)
      rw [Bool.eq_not_of_ne one,Bool.eq_not_of_ne other]

/-- Two contexts that agree on digits and dashes are told apart by a key alone: behind one of
them no match is accepted. -/
theorem windowAt_split {first second w : Str} (fenced : behind first (fence u) = behind second (fence u))
    (differ : windowAt u first w 0 ≠ windowAt u second w 0) :
    windowAt u first w 0 = none ∨ windowAt u second w 0 = none := by
  rcases Nat.le_total second.length first.length with longer | longer
  · exact windowAt_split_longer u fenced longer differ
  · exact (windowAt_split_longer u fenced.symm longer differ.symm).symm

/-- No match starts with the bracket of the placeholder. -/
theorem windowAt_bracket {context w : Str} {found : Label × Nat} (here : windowAt u context w 0 = some found) :
    ∃ c rest, w = c::rest ∧ c ≠ ordinal '[' := by
  have accepted := acceptedAt_window u context w 0
  rw [here,Option.map_some,acceptedAt_some] at accepted
  obtain ⟨pattern,member,matched⟩ := combinedAt_some u accepted.1
  have moved := patterns_move u member matched
  have read : Regex.holds (context++w) (fun c => c != ordinal '[') (context.length+0) = true := by
    rcases patterns_spelled u member matched.spelled with token | number
    · have first := token.2 _ le_rfl moved
      rw [if_pos rfl] at first
      refine Regex.holds_mono (fun c good => ?_) first
      rw [bne_iff_ne]
      rintro rfl
      revert good
      decide
    · have first := number.2 _ le_rfl moved
      rw [if_pos rfl] at first
      refine Regex.holds_mono (fun c good => ?_) first
      rw [bne_iff_ne]
      rintro rfl
      simp only [numberStart,u.isDecimal_ascii (ordinal '[') (by decide)] at good
      revert good
      decide
  rw [holds_context] at read
  cases w with
  | nil => simp [Regex.holds] at read
  | cons c rest => exact ⟨c,rest,rfl,by simpa [Regex.holds] using read⟩

def windowScanner (context w : Str) : Scanner Label where
  top := w.length
  choose := windowAt u context w
  advances := by
    intro p l e found
    have moved := acceptedAt_window u context w p
    rw [found] at moved
    have forward := (scanner u (context++w)).advances _ _ _ moved
    omega
  inside := by
    intro p l e found
    have moved := acceptedAt_window u context w p
    rw [found] at moved
    have within : context.length+e ≤ (context++w).length :=
      (scanner u (context++w)).inside _ _ _ moved
    rw [List.length_append] at within
    omega

theorem window_hits (context w : Str) :
    (scanner u (context++w)).hits context.length =
      ((windowScanner u context w).hits 0).map (Hit.shift context.length) :=
  (windowScanner u context w).hits_shift (scanner u (context++w)) (p := 0)
    (by simp [scanner,windowScanner]) (fun q _ => acceptedAt_window u context w q)

def windowCut (context w : Str) : Nat :=
  Scanner.pull (w.length-holdback u w MAX_HOLDBACK) ((windowScanner u context w).hits 0)

theorem windowCut_le (context w : Str) :
    windowCut u context w ≤ w.length-holdback u w MAX_HOLDBACK :=
  ((windowScanner u context w).pull_spec (Nat.zero_le _)).2.1

theorem cutOf_window (context w : Str) :
    cutOf u (context++w) w context.length = context.length+windowCut u context w := by
  have held := holdback_le u w MAX_HOLDBACK
  have split : context.length+w.length-holdback u w MAX_HOLDBACK =
      context.length+(w.length-holdback u w MAX_HOLDBACK) := by omega
  rw [cutOf,pullBack_eq u _ (by omega),window_hits,split,Scanner.pull_shift]
  rfl

theorem feed_window (r : StreamRedactor) (chunk : Str) (opened : r.closed = false)
    (some : chunk ≠ []) (capped : r.maxHoldback = MAX_HOLDBACK) :
    let w := r.buffer ++ chunk
    let cut := windowCut u r.leftContext w
    ∃ next, r.feed u chunk =
        .ok (splice w r.placeholder cut 0 ((windowScanner u r.leftContext w).hits 0),next) ∧
      next.closed = false ∧ next.maxHoldback = MAX_HOLDBACK ∧ next.placeholder = r.placeholder ∧
      next.buffer = w.drop cut ∧
      next.leftContext = lastChars LOOKBEHIND_CONTEXT (r.leftContext ++ w.take cut) := by
  intro w cut
  obtain ⟨next,fed,open',capped',placed,kept,context,_⟩ := feed_eq u r chunk opened some capped
  have place : cutOf u (r.leftContext++(r.buffer++chunk)) (r.buffer++chunk) r.leftContext.length =
      r.leftContext.length+cut := cutOf_window u r.leftContext w
  rw [place,Nat.add_sub_cancel_left] at kept context
  refine ⟨next,?_,open',capped',placed,kept,context⟩
  rw [fed,place]
  simp only [redactRange_scanned,redactRange_eq,window_hits,splice_front,w]

theorem flush_window (r : StreamRedactor) (opened : r.closed = false) :
    (r.flush u).1 = splice r.buffer r.placeholder r.buffer.length 0
      ((windowScanner u r.leftContext r.buffer).hits 0) := by
  simp only [StreamRedactor.flush,opened,Bool.false_eq_true,if_false,redactCompleteFrom,
    redactRange_eq,window_hits,List.length_append,splice_front]

end GatewaySuite.Guardrail
