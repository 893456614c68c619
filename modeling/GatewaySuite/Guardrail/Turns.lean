import GatewaySuite.Guardrail.Context
import GatewaySuite.Guardrail.Delivery

/-! The turns of the choices of a stream, that is their runs of consecutive contents, and
what becomes of a turn behind a context. A text at whose end nothing is withheld is
settled: what follows changes no decision in it. Of two contexts without a digit or a dash
at their end, a turn reads one thing, the word boundary in front of an API key. -/
namespace GatewaySuite.Guardrail
open Lib Python
variable (u : Unicode)

/-- The text from a position on is the beginning of a token or of a number. -/
def OpenAt (w : Str) (p : Nat) : Prop :=
  Regex.Spelled w tokenChar tokenChar p w.length ∨
    Regex.Spelled w (numberStart u) (numberChar u) p w.length

theorem OpenAt.behind {u : Unicode} {front w : Str} {p : Nat} :
    OpenAt u (front ++ w) (front.length+p) ↔ OpenAt u w p := by
  simp only [OpenAt,List.length_append,Regex.Spelled.behind]

theorem OpenAt.left {u : Unicode} {w rest : Str} {p : Nat} (inside : p ≤ w.length)
    (opened : OpenAt u (w ++ rest) p) : OpenAt u w p :=
  opened.imp (Regex.Spelled.left inside) (Regex.Spelled.left inside)

private theorem groupLength_pos {found : Option (Nat × Nat)} (some : 0 < groupLength found) :
    ∃ start stop, found = Option.some (start,stop) ∧ start < stop := by
  cases found with
  | none => simp [groupLength] at some
  | some pair => exact ⟨pair.1,pair.2,rfl,Nat.lt_of_sub_pos some⟩

private theorem search_open {w : Str} {body : Regex CodePoint}
    (some : 0 < groupLength ((Regex.seq body .eos).search w 0)) :
    ∃ p < w.length, Regex.Spelled w body.first body.follow p w.length := by
  obtain ⟨start,stop,found,forward⟩ := groupLength_pos some
  obtain ⟨_,_,m,matched,rfl,rfl⟩ := Regex.search_some found
  exact ⟨start,forward,matched.spelled⟩

theorem holdback_open {w : Str} {maxHoldback : Nat} (held : 0 < holdback u w maxHoldback) :
    ∃ p < w.length, w.length-p ≤ maxHoldback ∧ OpenAt u w p := by
  unfold holdback at held
  split_ifs at held with empty
  · omega
  · have positive : maxHoldback ≠ 0 := by
      dsimp only at held
      omega
    have size := lastChars_length maxHoldback w positive
    obtain ⟨front,split⟩ := lastChars_suffix maxHoldback w
    obtain ⟨p,inside,opened⟩ : ∃ p < (lastChars maxHoldback w).length,
        OpenAt u (lastChars maxHoldback w) p := by
      rcases Nat.eq_zero_or_pos (groupLength (TAIL_TOKEN.search (lastChars maxHoldback w) 0)) with
        none | token
      · have digits : 0 < groupLength ((TAIL_DIGITS u).search (lastChars maxHoldback w) 0) := by
          dsimp only at held
          omega
        obtain ⟨p,inside,spelled⟩ := search_open digits
        refine ⟨p,inside,Or.inr (spelled.mono ?_ ?_)⟩
        · intro c
          simp [Regex.first,digit,numberStart,Regex.nullable]
        · intro c
          simp only [Regex.follow,Regex.first,digit]
          simp [Regex.still]
      · obtain ⟨p,inside,spelled⟩ := search_open token
        refine ⟨p,inside,Or.inl (spelled.mono ?_ ?_)⟩
        · intro c
          simp [Regex.first,Regex.nullable]
        · intro c
          simp only [Regex.follow,Regex.first]
          simp [Regex.still]
    have whole : w.length = front.length+(lastChars maxHoldback w).length := by
      rw [← split,List.length_append,split]
    refine ⟨front.length+p,by omega,by omega,?_⟩
    rw [← split]
    exact OpenAt.behind.mpr opened

theorem holdback_zero {w : Str} : holdback u w MAX_HOLDBACK = 0 ↔
    ∀ p < w.length, w.length-p ≤ MAX_HOLDBACK → ¬ OpenAt u w p := by
  constructor
  · intro ended p below fits opened
    have held := holdback_covers u below fits opened
    omega
  · intro closed
    by_contra held
    obtain ⟨p,below,fits,opened⟩ := holdback_open u (Nat.pos_of_ne_zero held)
    exact closed p below fits opened

theorem holdback_behind {front w : Str} (ended : holdback u (front ++ w) MAX_HOLDBACK = 0) :
    holdback u w MAX_HOLDBACK = 0 := by
  rw [holdback_zero] at ended ⊢
  intro p below fits opened
  have size : (front ++ w).length = front.length+w.length := List.length_append
  exact ended (front.length+p) (by omega) (by omega) (OpenAt.behind.mpr opened)

theorem holdback_pos {w : Str} (fenced : behind w (fence u) = true) :
    0 < holdback u w MAX_HOLDBACK := by
  rcases List.eq_nil_or_concat' w with rfl | ⟨front,c,rfl⟩
  · simp [behind] at fenced
  · simp only [behind,List.getLast?_concat,Option.any_some,fence,Bool.or_eq_true] at fenced
    have size : (front ++ [c]).length = front.length+1 := by simp
    have single (head tail : CodePoint → Bool) (good : head c = true) :
        Regex.Spelled (front ++ [c]) head tail front.length (front ++ [c]).length := by
      refine ⟨by omega,fun i low high => ?_⟩
      have here : i = front.length := by omega
      subst i
      simp [Regex.holds,good]
    have spelled : Regex.Spelled (front ++ [c]) tokenChar tokenChar front.length (front ++ [c]).length ∨
        Regex.Spelled (front ++ [c]) (numberStart u) (numberChar u) front.length
          (front ++ [c]).length := by
      rcases fenced with decimal | dash
      · exact Or.inr (single _ _ (by simp [numberStart,decimal]))
      · refine Or.inl (single _ _ ?_)
        simp [oneOf,lit] at dash
        simp [tokenChar,oneOf,lit,dash]
    have fits : (front ++ [c]).length-front.length ≤ MAX_HOLDBACK := by
      rw [size,Nat.add_sub_cancel_left]
      simp [MAX_HOLDBACK]
    have held := holdback_covers u (by omega) fits spelled
    omega

theorem ended_unfenced {w : Str} (ended : holdback u w MAX_HOLDBACK = 0) :
    behind w (fence u) = false := by
  by_contra fenced
  have held := holdback_pos u (by simpa using fenced)
  omega

/-- Where nothing is withheld, the cut is at the end: no match reaches over it. -/
theorem windowCut_full {w : Str} (context : Str) (ended : holdback u w MAX_HOLDBACK = 0) :
    windowCut u context w = w.length := by
  rw [windowCut,ended,Nat.sub_zero]
  obtain full | ⟨h,member,straddles,_⟩ := (windowScanner u context w).pull_moved (Nat.zero_le w.length)
  · exact full
  · have inside : h.stop ≤ w.length := ((windowScanner u context w).hit_bounds 0 h member).2.2.1
    exact absurd straddles.2 (by omega)

theorem windowAt_final {w : Str} (ended : holdback u w MAX_HOLDBACK = 0) (context more : Str) {q : Nat}
    (inside : q < w.length) : windowAt u context (w ++ more) q = windowAt u context w q := by
  have blind : ∀ x ∈ PATTERNS u, ¬ x.2.Reads (context++w) (context++w).length (context.length+q) := by
    apply blind_before_holdback u (Nat.le_add_right context.length q)
    rw [List.drop_left,ended,List.length_append]
    omega
  have final := acceptedAt_append u (context++w) more (context.length+q)
    (by rw [List.length_append]; omega) blind
  rw [List.append_assoc] at final
  rw [windowAt,windowAt,final]

theorem windowAt_behind (context front more : Str) (q : Nat) :
    windowAt u context (front ++ more) (front.length+q) =
      (windowAt u (context++front) more q).map fun found => (found.1,front.length+found.2) := by
  have place : context.length+(front.length+q) = (context++front).length+q := by
    rw [List.length_append]
    omega
  have moved := acceptedAt_window u (context++front) more q
  rw [List.append_assoc] at moved
  conv_lhs => rw [windowAt,place,moved,Option.map_map]
  congr 1
  funext found
  simp only [Function.comp_apply,List.length_append,Prod.mk.injEq,true_and]
  omega

/-- What `redact_complete` makes of a text behind a context. -/
def redactBehind (context text : Str) : Str :=
  (redactCompleteFrom u (context ++ text) context.length .zero DEFAULT_PLACEHOLDER).1

theorem redactBehind_eq (context text : Str) : redactBehind u context text =
    splice text DEFAULT_PLACEHOLDER text.length 0 ((windowScanner u context text).hits 0) := by
  simp only [redactBehind,redactCompleteFrom,redactRange_eq,window_hits,List.length_append,splice_front]

theorem redactBehind_start (text : Str) :
    redactBehind u [] text = redactComplete u text DEFAULT_PLACEHOLDER := rfl

theorem redactBehind_nil (context : Str) : redactBehind u context [] = [] := by
  rw [redactBehind_eq,(windowScanner u context []).hits_top (Nat.le_refl 0)]
  rfl

theorem windowScanner_congr {first second w : Str} (same : windowAt u first w 0 = windowAt u second w 0) :
    windowScanner u first w = windowScanner u second w := by
  have all : windowAt u first w = windowAt u second w := by
    funext q
    rcases Nat.eq_zero_or_pos q with rfl | inner
    · exact same
    · simp only [windowAt,acceptedAt_shift u _ w q (Or.inl inner),Option.map_map,Function.comp_def,
        Nat.add_sub_cancel_left]
  simp only [windowScanner,all]

theorem redactBehind_congr {first second text : Str}
    (same : windowAt u first text 0 = windowAt u second text 0) :
    redactBehind u first text = redactBehind u second text := by
  rw [redactBehind_eq,redactBehind_eq,windowScanner_congr u same]

/-- A settled text is redacted by itself, whatever follows it. -/
theorem redactBehind_append {w : Str} (ended : holdback u w MAX_HOLDBACK = 0) (context more : Str) :
    redactBehind u context (w ++ more) =
      redactBehind u context w ++ redactBehind u (context ++ w) more := by
  let s := windowScanner u context w
  let s' := windowScanner u context (w ++ more)
  have inside : ∀ h ∈ s.hits 0, h.stop ≤ w.length := fun h member => (s.hit_bounds 0 h member).2.2.1
  have top : s'.top = w.length+more.length := List.length_append
  obtain ⟨clean,taken⟩ := s.taken_congr s' (Nat.zero_le w.length) (Nat.le_refl w.length)
    (by omega) (fun q _ high => (windowAt_final u ended context more high).symm)
    (fun h member straddles => absurd straddles.2 (Nat.not_lt.mpr (inside h member)))
  rw [s.taken_all 0 (Nat.le_refl w.length)] at taken
  have rest : s'.hits (w.length+0) =
      ((windowScanner u (context ++ w) more).hits 0).map (Hit.shift w.length) :=
    (windowScanner u (context ++ w) more).hits_shift s' top
      (fun q _ => windowAt_behind u context w more q)
  have front : splice (w ++ more) DEFAULT_PLACEHOLDER w.length 0 (s'.hits 0) =
      splice w DEFAULT_PLACEHOLDER w.length 0 (s.hits 0) := by
    rw [← splice_taken]
    change splice (w ++ more) DEFAULT_PLACEHOLDER w.length 0 (s'.taken 0 w.length) = _
    rw [taken]
    exact splice_left w more DEFAULT_PLACEHOLDER (s.hits 0) (Nat.le_refl _)
      fun h member => (s.hit_bounds 0 h member).2.1
  rw [redactBehind_eq,redactBehind_eq,redactBehind_eq,
    splice_cut s' (w ++ more) DEFAULT_PLACEHOLDER (Nat.le_refl 0) (Nat.zero_le w.length)
      (by rw [List.length_append]; omega) clean,front]
  rw [Nat.add_zero] at rest
  rw [rest,List.length_append,splice_front]

theorem redactBehind_kept {context rest : Str} {c : CodePoint}
    (nothing : windowAt u context (c::rest) 0 = none) :
    ∃ tail, redactBehind u context (c::rest) = c::tail := by
  let s := windowScanner u context (c::rest)
  have skipped : s.hits 0 = s.hits 1 := s.hits_none (Nat.succ_pos rest.length) nothing
  rw [redactBehind_eq,skipped,splice_lead (c::rest) DEFAULT_PLACEHOLDER (s.hits 1) (Nat.zero_le 1)
    (by simp : 1 ≤ (c::rest).length) fun h member => (s.hit_bounds 1 h member).1]
  exact ⟨_,rfl⟩

theorem redactBehind_masked {context w : Str} {found : Label × Nat}
    (here : windowAt u context w 0 = some found) :
    ∃ tail, redactBehind u context w = ordinal '['::tail := by
  let s := windowScanner u context w
  have inside : found.2 ≤ w.length := s.inside 0 found.1 found.2 here
  have fits : ¬ w.length < found.2 := by omega
  rw [redactBehind_eq,s.hits_some (p := 0) here]
  simp only [splice,fits,if_false,slice_self,List.nil_append]
  exact ⟨_,rfl⟩

/-- Where two contexts are told apart, the redactions differ in their first character. -/
theorem redactBehind_differs {first second text : Str}
    (fenced : behind first (fence u) = behind second (fence u))
    (differ : windowAt u first text 0 ≠ windowAt u second text 0) (x y : Str) :
    redactBehind u first text ++ x ≠ redactBehind u second text ++ y := by
  have apart {one other : Str} (nothing : windowAt u one text 0 = none)
      (some : windowAt u other text 0 ≠ none) (x y : Str) :
      redactBehind u one text ++ x ≠ redactBehind u other text ++ y := by
    obtain ⟨found,here⟩ := Option.ne_none_iff_exists'.mp some
    obtain ⟨c,rest,rfl,plain⟩ := windowAt_bracket u here
    obtain ⟨tail,kept⟩ := redactBehind_kept u nothing
    obtain ⟨tail',masked⟩ := redactBehind_masked u here
    intro same
    rw [kept,masked] at same
    exact plain (List.cons.inj same).1
  rcases windowAt_split u fenced differ with none | none
  · exact apart none (fun other => differ (none.trans other.symm)) x y
  · exact (apart none (fun other => differ (other.trans none.symm)) y x).symm

theorem under_own (i owner : Option Int) (text : Str) (rest : List (Option Int × Str)) :
    under (· == i) ((owner,text)::rest) = (if i = owner then text else []) ++ under (· == i) rest := by
  by_cases mine : i = owner <;> simp [mine,Ne.symm]

/-- The contents of a stream joined to turns, from a turn of `holder` on that has `text` so far. -/
def turns : Option Int → Str → List (Option Int × Str) → List (Option Int × Str)
  | holder,text,[] => [(holder,text)]
  | holder,text,(owner,content)::rest =>
    if content = [] ∨ owner = holder then turns holder (text ++ content) rest
    else (holder,text)::turns owner content rest

theorem turns_some (holder : Option Int) (text : Str) (fed : List (Option Int × Str)) :
    turns holder text fed ≠ [] := by
  induction fed generalizing holder text with
  | nil => simp [turns]
  | cons x rest ih =>
    rw [turns]
    split_ifs
    · exact ih holder (text ++ x.2)
    · simp

theorem turns_under (keep : Option Int → Bool) (holder : Option Int) (text : Str)
    (fed : List (Option Int × Str)) :
    under keep (turns holder text fed) = (if keep holder then text else []) ++ under keep fed := by
  induction fed generalizing holder text with
  | nil => simp [turns]
  | cons x rest ih =>
    obtain ⟨owner,content⟩ := x
    rw [turns,under_cons]
    by_cases joins : content = [] ∨ owner = holder
    · rw [if_pos joins,ih]
      rcases joins with rfl | rfl
      · simp
      · by_cases kept : keep owner <;> simp [kept]
    · rw [if_neg joins,under_cons,ih]

/-- A turn with the text of the stream and the text of its own choice that came before it. -/
structure Turn where
  owner : Option Int
  stream : Str
  own : Str
  text : Str

def placed : Str → (Option Int → Str) → List (Option Int × Str) → List Turn
  | _,_,[] => []
  | stream,own,(owner,text)::rest => ⟨owner,stream,own owner,text⟩ ::
      placed (stream ++ text) (Function.update own owner (own owner ++ text)) rest

/-- At the end of a turn nothing is withheld, or the turn is the last one and the flush is
written under its index. -/
def Settled (flushed : Option Int) : List (Option Int × Str) → Prop
  | [] => True
  | (owner,text)::rest =>
    (holdback u text MAX_HOLDBACK = 0 ∨ rest = [] ∧ owner = flushed) ∧ Settled flushed rest

instance decSettled (flushed : Option Int) : ∀ turns, Decidable (Settled u flushed turns)
  | [] => isTrue trivial
  | _::rest =>
    have := decSettled flushed rest
    inferInstanceAs (Decidable (_ ∧ _))

theorem Settled.owned {u : Unicode} {flushed : Option Int} {rest : List (Option Int × Str)}
    (settled : Settled u flushed rest) (stream : Str) (own : Option Int → Str) (i : Option Int) :
    redactBehind u (own i) (under (· == i) rest) = under (· == i)
      ((placed stream own rest).map fun turn => (turn.owner,redactBehind u turn.own turn.text)) := by
  induction rest generalizing stream own with
  | nil => exact redactBehind_nil u (own i)
  | cons x rest ih =>
    obtain ⟨owner,text⟩ := x
    obtain ⟨ends,after⟩ := settled
    have tail := ih after (stream ++ text) (Function.update own owner (own owner ++ text))
    rw [placed,List.map_cons,under_cons,under_cons]
    by_cases mine : i = owner
    · subst i
      rw [Function.update_self] at tail
      simp only [beq_self_eq_true,if_true,← tail]
      rcases ends with ended | ⟨rfl,_⟩
      · exact redactBehind_append u ended (own owner) _
      · rw [under_nil,redactBehind_nil,List.append_nil,List.append_nil]
    · rw [Function.update_of_ne mine] at tail
      simpa [Ne.symm mine] using tail

theorem holdback_append {front w : Str} (first : holdback u front MAX_HOLDBACK = 0)
    (second : holdback u w MAX_HOLDBACK = 0) : holdback u (front ++ w) MAX_HOLDBACK = 0 := by
  rw [holdback_zero] at first second ⊢
  intro p below fits opened
  rw [List.length_append] at below fits
  rcases Nat.lt_or_ge p front.length with early | late
  · exact first p early (by omega) (opened.left early.le)
  · obtain ⟨q,rfl⟩ := Nat.exists_eq_add_of_le late
    exact second q (by omega) (by omega) (OpenAt.behind.mp opened)

/-- In front of a turn both texts are settled, so neither ends with a digit or a dash. -/
theorem Settled.fenced {u : Unicode} {flushed : Option Int} {rest : List (Option Int × Str)}
    (settled : Settled u flushed rest) {stream : Str} {own : Option Int → Str}
    (ended : holdback u stream MAX_HOLDBACK = 0) (owned : ∀ i, holdback u (own i) MAX_HOLDBACK = 0) :
    ∀ turn ∈ placed stream own rest,
      behind turn.stream (fence u) = behind turn.own (fence u) := by
  induction rest generalizing stream own with
  | nil => simp [placed]
  | cons x rest ih =>
    obtain ⟨owner,text⟩ := x
    obtain ⟨ends,after⟩ := settled
    intro turn member
    rcases List.mem_cons.mp member with rfl | later
    · rw [ended_unfenced u ended,ended_unfenced u (owned owner)]
    · rcases ends with closed | ⟨rfl,_⟩
      · refine ih after (holdback_append u ended closed) (fun i => ?_) turn later
        by_cases mine : i = owner
        · subst i
          rw [Function.update_self]
          exact holdback_append u (owned owner) closed
        · rw [Function.update_of_ne mine]
          exact owned i
      · simp [placed] at later

/-- The match accepted at the start of a turn is the same behind the stream's text and behind
the text of its own choice. -/
def Turn.Alike (turn : Turn) : Prop :=
  windowAt u turn.stream turn.text 0 = windowAt u turn.own turn.text 0

instance (turn : Turn) : Decidable (turn.Alike u) := inferInstanceAs (Decidable (_ = _))

/-- Redacted behind the stream and behind the own texts the turns give every choice the same
text exactly if they start alike. -/
theorem turns_agree (all : List Turn)
    (fenced : ∀ turn ∈ all, behind turn.stream (fence u) = behind turn.own (fence u)) :
    (∀ i, under (· == i) (all.map fun turn => (turn.owner,redactBehind u turn.stream turn.text)) =
      under (· == i) (all.map fun turn => (turn.owner,redactBehind u turn.own turn.text))) ↔
    ∀ turn ∈ all, turn.Alike u := by
  constructor
  · intro same
    induction all with
    | nil => simp
    | cons turn rest ih =>
      have first := same turn.owner
      simp only [List.map_cons,under_cons,beq_self_eq_true,if_true] at first
      have alike : turn.Alike u := by
        by_contra differ
        exact redactBehind_differs u (fenced turn List.mem_cons_self) differ _ _ first
      rw [List.forall_mem_cons]
      refine ⟨alike,ih (fun x member => fenced x (List.mem_cons_of_mem _ member)) fun i => ?_⟩
      have whole := same i
      simp only [List.map_cons,under_cons,redactBehind_congr u alike] at whole
      exact List.append_cancel_left whole
  · intro alike i
    congr 1
    refine List.map_congr_left fun turn member => ?_
    rw [redactBehind_congr u (alike turn member)]

end GatewaySuite.Guardrail
