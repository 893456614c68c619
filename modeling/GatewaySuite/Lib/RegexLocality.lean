import GatewaySuite.Lib.Regex
import Mathlib.Order.Basic
import Mathlib.Order.Lattice

/-! What a match attempt depends on. An attempt that never looks past the end of the
text it is given finds the same results in every longer text, and an attempt is blind
to everything more than one character before its start. `first` and `follow` bound
the characters an attempt can look at before it reaches a given position. -/
namespace GatewaySuite.Lib.Regex
variable {α : Type}

/-- Some attempt of the expression at `p` looks at position `n`. -/
def Reads (t : List α) (n : Nat) : Regex α → Nat → Prop
  | .empty,_ => False
  | .chars _,p => p = n
  | .seq first second,p =>
      first.Reads t n p ∨ ∃ m, first.Matches t p m ∧ second.Reads t n m
  | .alt first second,p => first.Reads t n p ∨ second.Reads t n p
  | .rep body least extra,p =>
      ∃ k m, k < least+extra ∧ Steps (body.Matches t) k p m ∧ body.Reads t n m
  | .run admits,p => p ≤ n ∧ ∀ i, p ≤ i → i < n → holds t admits i
  | .notBehind _,_ => False
  | .notAhead body,p => body.Reads t n p
  | .boundary _,p => p = n
  | .bos,_ => False
  | .eos,p => p = n

def still : Regex α → Bool
  | .empty => true
  | .chars _ => false
  | .seq first second => first.still && second.still
  | .alt first second => first.still && second.still
  | .rep body _ _ => body.still
  | .run _ => false
  | .notBehind _ | .notAhead _ | .boundary _ | .bos | .eos => true

def nullable : Regex α → Bool
  | .empty => true
  | .chars _ => false
  | .seq first second => first.nullable && second.nullable
  | .alt first second => first.nullable || second.nullable
  | .rep body least _ => least == 0 || body.nullable
  | .run _ => true
  | .notBehind _ | .notAhead _ | .boundary _ | .bos | .eos => true

/-- The characters an attempt can read at its start. -/
def first : Regex α → α → Bool
  | .empty,_ => false
  | .chars admits,c => admits c
  | .seq a b,c => a.first c || (a.nullable && b.first c)
  | .alt a b,c => a.first c || b.first c
  | .rep body _ _,c => body.first c
  | .run admits,c => admits c
  | .notAhead body,c => body.first c
  | .notBehind _,_ | .boundary _,_ | .bos,_ | .eos,_ => false

/-- The characters an attempt can read after its first character. -/
def follow : Regex α → α → Bool
  | .empty,_ => false
  | .chars _,_ => false
  | .seq a b,c => a.follow c || b.follow c || (!a.still && b.first c)
  | .alt a b,c => a.follow c || b.follow c
  | .rep body _ _,c => body.follow c || body.first c
  | .run admits,c => admits c
  | .notAhead body,c => body.follow c
  | .notBehind _,_ | .boundary _,_ | .bos,_ | .eos,_ => false

def bounded : Regex α → Bool
  | .run _ => false
  | .seq a b | .alt a b => a.bounded && b.bounded
  | .rep body _ _ | .notAhead body => body.bounded
  | .empty | .chars _ | .notBehind _ | .boundary _ | .bos | .eos => true

/-- The longest distance an attempt of a bounded expression looks ahead. -/
def width : Regex α → Nat
  | .chars _ => 1
  | .seq a b => a.width + b.width
  | .alt a b => max a.width b.width
  | .rep body least extra => (least+extra) * body.width
  | .notAhead body => body.width
  | .empty | .run _ | .notBehind _ | .boundary _ | .bos | .eos => 0

/-- How many characters from its start on an attempt of a bounded expression can read. -/
def sight : Regex α → Nat
  | .chars _ | .boundary _ | .eos => 1
  | .seq a b => max a.sight (a.width + b.sight)
  | .alt a b => max a.sight b.sight
  | .rep body least extra =>
      if least+extra = 0 then 0 else (least+extra-1) * body.width + body.sight
  | .notAhead body => body.sight
  | .empty | .run _ | .notBehind _ | .bos => 0

private theorem steps_bounds {step : Nat → Nat → Prop} {top : Nat}
    (bounds : ∀ p q, step p q → p ≤ q ∧ (q = p ∨ q ≤ top)) {n p q : Nat}
    (all : Steps step n p q) : p ≤ q ∧ (q = p ∨ q ≤ top) := by
  induction n generalizing p with
  | zero =>
    have same : q = p := all
    exact ⟨by omega,Or.inl same⟩
  | succ n ih =>
    obtain ⟨m,head,rest⟩ := all
    have one := bounds p m head
    have more := ih rest
    constructor <;> omega

theorem Matches.bounds {t : List α} {r : Regex α} {p q : Nat} (found : r.Matches t p q) :
    p ≤ q ∧ (q = p ∨ q ≤ t.length) := by
  induction r generalizing p q with
  | empty => exact ⟨Nat.le_of_eq (Eq.symm found),Or.inl found⟩
  | chars admits =>
    obtain ⟨rfl,held⟩ := found
    have inside := holds_lt held
    exact ⟨by omega,Or.inr inside⟩
  | seq a b ihA ihB =>
    obtain ⟨m,left,right⟩ := found
    have before := ihA left
    have after := ihB right
    constructor <;> omega
  | alt a b ihA ihB =>
    rcases found with left | right
    · exact ihA left
    · exact ihB right
  | rep body least extra ih =>
    obtain ⟨n,_,_,all⟩ := found
    exact steps_bounds (fun _ _ => ih) all
  | run admits =>
    obtain ⟨order,all⟩ := found
    refine ⟨order,?_⟩
    by_cases same : q = p
    · exact Or.inl same
    · have inside := holds_lt (all (q-1) (by omega) (by omega))
      exact Or.inr (by omega)
  | notBehind | notAhead | boundary | bos | eos =>
    have same := found.1
    exact ⟨by omega,Or.inl same⟩

theorem steps_forward {t : List α} {r : Regex α} {n p q : Nat}
    (all : Steps (r.Matches t) n p q) : p ≤ q ∧ (q = p ∨ q ≤ t.length) :=
  steps_bounds (fun _ _ => Matches.bounds) all

theorem Matches.still {t : List α} {r : Regex α} {p q : Nat} (found : r.Matches t p q)
    (idle : r.still = true) : q = p := by
  induction r generalizing p q with
  | empty => exact found
  | chars | run => simp [Regex.still] at idle
  | seq a b ihA ihB =>
    simp only [Regex.still,Bool.and_eq_true] at idle
    obtain ⟨m,left,right⟩ := found
    exact (ihB right idle.2).trans (ihA left idle.1)
  | alt a b ihA ihB =>
    simp only [Regex.still,Bool.and_eq_true] at idle
    rcases found with left | right
    · exact ihA left idle.1
    · exact ihB right idle.2
  | rep body least extra ih =>
    obtain ⟨n,_,_,all⟩ := found
    clear * - all ih idle
    induction n generalizing p with
    | zero => exact all
    | succ n step =>
      obtain ⟨m,head,rest⟩ := all
      exact (step rest).trans (ih head idle)
  | notBehind | notAhead | boundary | bos | eos => exact found.1

theorem Matches.active {t : List α} {r : Regex α} {p q : Nat} (found : r.Matches t p q)
    (moved : q ≠ p) : r.still = false := by
  cases idle : r.still with
  | false => rfl
  | true => exact absurd (found.still idle) moved

theorem Matches.nullable {t : List α} {r : Regex α} {p : Nat} (found : r.Matches t p p) :
    r.nullable = true := by
  induction r generalizing p with
  | empty | run | notBehind | notAhead | boundary | bos | eos => rfl
  | chars admits =>
    have moved := found.1
    omega
  | seq a b ihA ihB =>
    obtain ⟨m,left,right⟩ := found
    have same : m = p := by
      have low := left.bounds
      have high := right.bounds
      omega
    subst m
    simp [Regex.nullable,ihA left,ihB right]
  | alt a b ihA ihB =>
    rcases found with left | right
    · simp [Regex.nullable,ihA left]
    · simp [Regex.nullable,ihB right]
  | rep body least extra ih =>
    obtain ⟨n,low,_,all⟩ := found
    cases n with
    | zero =>
      have none : least = 0 := by omega
      simp [Regex.nullable,none]
    | succ n =>
      obtain ⟨m,head,rest⟩ := all
      have same : m = p := by
        have front := head.bounds
        have back := steps_forward rest
        omega
      subst m
      simp [Regex.nullable,ih head]

/-- Every character between two positions is there; the one at the start passes
`head`, every later one `tail`. -/
def Spelled (t : List α) (head tail : α → Bool) (p q : Nat) : Prop :=
  p ≤ q ∧ ∀ i, p ≤ i → i < q → holds t (if i = p then head else tail) i

theorem Spelled.refl (t : List α) (head tail : α → Bool) (p : Nat) : Spelled t head tail p p :=
  ⟨le_rfl,fun i low high => by omega⟩

theorem holds_mono {t : List α} {f g : α → Bool} (sub : ∀ c, f c = true → g c = true) {p : Nat}
    (held : holds t f p = true) : holds t g p = true := by
  unfold holds at *
  cases here : t[p]? with
  | none => simp [here] at held
  | some c => exact sub c (by simpa [here] using held)

theorem Spelled.mono {t : List α} {head tail head' tail' : α → Bool} {p q : Nat}
    (spelled : Spelled t head tail p q) (heads : ∀ c, head c = true → head' c = true)
    (tails : ∀ c, tail c = true → tail' c = true) : Spelled t head' tail' p q := by
  refine ⟨spelled.1,fun i low high => ?_⟩
  have held := spelled.2 i low high
  by_cases start : i = p
  · simp only [start,if_true] at held ⊢
    exact holds_mono heads held
  · simp only [start,if_false] at held ⊢
    exact holds_mono tails held

theorem Spelled.append {t : List α} {head tail head₁ tail₁ head₂ tail₂ : α → Bool} {p m q : Nat}
    (left : Spelled t head₁ tail₁ p m) (right : Spelled t head₂ tail₂ m q)
    (headLeft : ∀ c, head₁ c = true → head c = true)
    (headRight : m = p → ∀ c, head₂ c = true → head c = true)
    (tailLeft : ∀ c, tail₁ c = true → tail c = true)
    (tailRight : ∀ c, tail₂ c = true → tail c = true)
    (seam : m ≠ p → ∀ c, head₂ c = true → tail c = true) : Spelled t head tail p q := by
  refine ⟨left.1.trans right.1,fun i low high => ?_⟩
  by_cases before : i < m
  · have held := left.2 i low before
    by_cases start : i = p
    · simp only [start,if_true] at held ⊢
      exact holds_mono headLeft held
    · simp only [start,if_false] at held ⊢
      exact holds_mono tailLeft held
  · have held := right.2 i (by omega) high
    have order := left.1
    by_cases middle : i = m
    · simp only [middle,if_true] at held ⊢
      by_cases start : m = p
      · simp only [start,if_true] at held ⊢
        exact holds_mono (headRight start) held
      · simp only [start,if_false]
        exact holds_mono (seam start) held
    · simp only [middle,if_false] at held
      have past : i ≠ p := by omega
      simp only [past,if_false]
      exact holds_mono tailRight held

theorem Spelled.drop {t : List α} {head tail : α → Bool} {p q k : Nat} (low : k ≤ p)
    (spelled : Spelled t head tail p q) : Spelled (t.drop k) head tail (p-k) (q-k) := by
  refine ⟨by have := spelled.1; omega,fun i start stop => ?_⟩
  have held := spelled.2 (k+i) (by omega) (by omega)
  have same : (k+i = p) ↔ (i = p-k) := by omega
  simpa only [holds,List.getElem?_drop,same] using held

theorem Spelled.behind {front w : List α} {head tail : α → Bool} {p q : Nat} :
    Spelled (front ++ w) head tail (front.length+p) (front.length+q) ↔ Spelled w head tail p q := by
  constructor
  · intro spelled
    have dropped := spelled.drop (Nat.le_add_right front.length p)
    simpa using dropped
  · intro spelled
    refine ⟨by have := spelled.1; omega,fun i low high => ?_⟩
    have held := spelled.2 (i-front.length) (by omega) (by omega)
    have same : (i-front.length = p) ↔ (i = front.length+p) := by omega
    simpa only [holds,List.getElem?_append_right (by omega : front.length ≤ i),same] using held

theorem Spelled.left {w rest : List α} {head tail : α → Bool} {p : Nat} (inside : p ≤ w.length)
    (whole : Spelled (w ++ rest) head tail p (w ++ rest).length) : Spelled w head tail p w.length := by
  refine ⟨inside,fun i low high => ?_⟩
  have here := whole.2 i low (by rw [List.length_append]; omega)
  simpa only [holds,List.getElem?_append_left high] using here

private theorem steps_spelled {t : List α} {r : Regex α}
    (one : ∀ p q, r.Matches t p q → Spelled t r.first r.follow p q) {n p q : Nat}
    (all : Steps (r.Matches t) n p q) :
    Spelled t r.first (fun c => r.follow c || r.first c) p q := by
  induction n generalizing p with
  | zero =>
    have same : q = p := all
    subst q
    exact .refl ..
  | succ n ih =>
    obtain ⟨m,head,rest⟩ := all
    exact (one p m head).append (ih rest) (fun _ h => h) (fun _ _ h => h)
      (by simp_all) (fun _ h => h) (by simp_all)

theorem Matches.spelled {t : List α} {r : Regex α} {p q : Nat} (found : r.Matches t p q) :
    Spelled t r.first r.follow p q := by
  induction r generalizing p q with
  | empty =>
    have same : q = p := found
    subst q
    exact .refl ..
  | chars admits =>
    obtain ⟨rfl,held⟩ := found
    refine ⟨by omega,fun i low high => ?_⟩
    have start : i = p := by omega
    simpa only [start,if_true,first] using held
  | seq a b ihA ihB =>
    obtain ⟨m,left,right⟩ := found
    refine (ihA left).append (ihB right) (by simp_all [first]) ?_ (by simp_all [follow])
      (by simp_all [follow]) ?_
    · intro same c begins
      subst m
      simp [first,left.nullable,begins]
    · intro moved c begins
      have active := left.active moved
      simp [follow,active,begins]
  | alt a b ihA ihB =>
    rcases found with left | right
    · exact (ihA left).mono (by simp_all [first]) (by simp_all [follow])
    · exact (ihB right).mono (by simp_all [first]) (by simp_all [follow])
  | rep body least extra ih =>
    obtain ⟨n,_,_,all⟩ := found
    exact steps_spelled (fun _ _ => ih) all
  | run admits =>
    obtain ⟨order,all⟩ := found
    refine ⟨order,fun i low high => ?_⟩
    simpa only [first,follow,ite_self] using all i low high
  | notBehind | notAhead | boundary | bos | eos =>
    have same := found.1
    subst q
    exact .refl ..

theorem Reads.spelled {t : List α} {r : Regex α} {n p : Nat} (reads : r.Reads t n p) :
    Spelled t r.first r.follow p n := by
  induction r generalizing p with
  | empty | notBehind | bos => exact reads.elim
  | chars | boundary | eos =>
    have same : p = n := reads
    subst p
    exact .refl ..
  | seq a b ihA ihB =>
    rcases reads with early | ⟨m,left,later⟩
    · exact (ihA early).mono (by simp_all [first]) (by simp_all [follow])
    · refine left.spelled.append (ihB later) (by simp_all [first]) ?_ (by simp_all [follow])
        (by simp_all [follow]) ?_
      · intro same c begins
        subst m
        simp [first,left.nullable,begins]
      · intro moved c begins
        have active := left.active moved
        simp [follow,active,begins]
  | alt a b ihA ihB =>
    rcases reads with left | right
    · exact (ihA left).mono (by simp_all [first]) (by simp_all [follow])
    · exact (ihB right).mono (by simp_all [first]) (by simp_all [follow])
  | rep body least extra ih =>
    obtain ⟨k,m,_,all,later⟩ := reads
    exact (steps_spelled (fun _ _ => Matches.spelled) all).append (ih later)
      (fun _ h => h) (fun _ _ h => h) (fun _ h => h) (by simp_all [follow]) (by simp_all [follow])
  | run admits =>
    obtain ⟨order,all⟩ := reads
    refine ⟨order,fun i low high => ?_⟩
    simpa only [first,follow,ite_self] using all i low high
  | notAhead body ih => exact ih reads

theorem steps_width {t : List α} {r : Regex α}
    (one : ∀ p q, r.Matches t p q → q ≤ p + r.width) {n p q : Nat}
    (all : Steps (r.Matches t) n p q) : q ≤ p + n * r.width := by
  induction n generalizing p with
  | zero =>
    have same : q = p := all
    omega
  | succ n ih =>
    obtain ⟨m,head,rest⟩ := all
    have front := one p m head
    have back := ih rest
    have total : (n+1) * r.width = n * r.width + r.width := Nat.succ_mul n r.width
    omega

theorem Matches.width {t : List α} {r : Regex α} {p q : Nat} (found : r.Matches t p q)
    (finite : r.bounded = true) : q ≤ p + r.width := by
  induction r generalizing p q with
  | empty =>
    have same : q = p := found
    omega
  | chars admits =>
    have moved := found.1
    simp only [Regex.width]
    omega
  | seq a b ihA ihB =>
    simp only [bounded,Bool.and_eq_true] at finite
    obtain ⟨m,left,right⟩ := found
    have front := ihA left finite.1
    have back := ihB right finite.2
    simp only [Regex.width]
    omega
  | alt a b ihA ihB =>
    simp only [bounded,Bool.and_eq_true] at finite
    simp only [Regex.width]
    rcases found with left | right
    · have short := ihA left finite.1
      omega
    · have short := ihB right finite.2
      omega
  | rep body least extra ih =>
    obtain ⟨n,_,high,all⟩ := found
    have total := steps_width (fun _ _ found => ih found finite) all
    have scaled := Nat.mul_le_mul_right body.width high
    simp only [Regex.width]
    omega
  | run => simp [bounded] at finite
  | notBehind | notAhead | boundary | bos | eos =>
    have same := found.1
    omega

theorem Reads.sight {t : List α} {r : Regex α} {n p : Nat} (reads : r.Reads t n p)
    (finite : r.bounded = true) : n < p + r.sight := by
  induction r generalizing p with
  | empty | notBehind | bos => exact reads.elim
  | chars | boundary | eos =>
    have same : p = n := reads
    simp only [Regex.sight]
    omega
  | seq a b ihA ihB =>
    simp only [bounded,Bool.and_eq_true] at finite
    simp only [Regex.sight]
    rcases reads with early | ⟨m,left,later⟩
    · have near := ihA early finite.1
      omega
    · have front := left.width finite.1
      have back := ihB later finite.2
      omega
  | alt a b ihA ihB =>
    simp only [bounded,Bool.and_eq_true] at finite
    simp only [Regex.sight]
    rcases reads with left | right
    · have near := ihA left finite.1
      omega
    · have near := ihB right finite.2
      omega
  | rep body least extra ih =>
    obtain ⟨k,m,inside,all,later⟩ := reads
    have front := steps_width (r := body) (fun _ _ found => found.width finite) all
    have back := ih later finite
    have scaled : k * body.width ≤ (least+extra-1) * body.width :=
      Nat.mul_le_mul_right body.width (by omega)
    have rounds : least+extra ≠ 0 := by omega
    simp only [Regex.sight,rounds,if_false]
    omega
  | run => simp [bounded] at finite
  | notAhead body ih => exact ih reads finite

theorem sight_le (r : Regex α) : r.sight ≤ r.width + 1 := by
  induction r with
  | empty | chars | run | notBehind | boundary | bos | eos => simp [Regex.sight,Regex.width]
  | notAhead body ih => exact ih
  | seq a b ihA ihB | alt a b ihA ihB =>
    simp only [Regex.sight,Regex.width]
    omega
  | rep body least extra ih =>
    simp only [Regex.sight,Regex.width]
    split_ifs with none
    · omega
    · obtain ⟨n,count⟩ := Nat.exists_eq_succ_of_ne_zero none
      rw [count,Nat.succ_mul,Nat.succ_sub_one]
      omega

theorem Reads.width {t : List α} {r : Regex α} {n p : Nat} (reads : r.Reads t n p)
    (finite : r.bounded = true) : n ≤ p + r.width := by
  have near := reads.sight finite
  have short := r.sight_le
  omega

theorem holds_append {w rest : List α} {admits : α → Bool} {p : Nat}
    (inside : p < w.length) : holds (w++rest) admits p = holds w admits p := by
  simp [holds,List.getElem?_append_left inside]

theorem holdsBehind_append {w rest : List α} {admits : α → Bool} {p : Nat}
    (inside : p ≤ w.length) : holdsBehind (w++rest) admits p = holdsBehind w admits p := by
  cases p with
  | zero => rfl
  | succ p => exact holds_append inside

private theorem rounds_congr {next next' last last' : Nat → List Nat} {n p : Nat}
    (same : ∀ k m, k < n → Steps (fun a b => b ∈ next a) k p m → next m = next' m)
    (final : ∀ m, Steps (fun a b => b ∈ next a) n p m → last m = last' m) :
    rounds next last n p = rounds next' last' n p := by
  induction n generalizing p with
  | zero => exact final p rfl
  | succ n ih =>
    have here : next p = next' p := same 0 p (by omega) rfl
    simp only [rounds,← here]
    apply List.flatMap_congr
    intro m member
    exact ih (fun k q small all => same (k+1) q (by omega) ⟨m,member,all⟩)
      (fun q all => final q ⟨m,member,all⟩)

private theorem greedy_congr {next next' : Nat → List Nat} {n p : Nat}
    (same : ∀ k m, k < n → Steps (fun a b => b ∈ next a) k p m → next m = next' m) :
    greedy next n p = greedy next' n p := by
  induction n generalizing p with
  | zero => rfl
  | succ n ih =>
    have here : next p = next' p := same 0 p (by omega) rfl
    simp only [greedy,← here]
    congr 1
    apply List.flatMap_congr
    intro m member
    exact ih (fun k q small all => same (k+1) q (by omega) ⟨m,member,all⟩)

theorem ends_rep_congr {t t' : List α} {body : Regex α} {least extra p : Nat}
    (same : ∀ k m, k < least+extra → Steps (body.Matches t) k p m → body.ends t m = body.ends t' m) :
    (Regex.rep body least extra).ends t p = (Regex.rep body least extra).ends t' p := by
  have relation : (fun a b => b ∈ body.ends t a) = body.Matches t := by
    funext a b
    exact propext (mem_ends t body a b)
  refine rounds_congr (fun k m small all => ?_) (fun m before => greedy_congr fun k q small after => ?_)
  · rw [relation] at all
    exact same k m (by omega) all
  · rw [relation] at before after
    exact same (least+k) q (by omega) (before.append after)

/-- An attempt that never looks at the end of `w` finds in every extension of `w` what
it finds in `w`. -/
theorem ends_append (w rest : List α) (r : Regex α) (p : Nat) (inside : p ≤ w.length)
    (blind : ¬ r.Reads w w.length p) : r.ends (w++rest) p = r.ends w p := by
  induction r generalizing p with
  | empty => rfl
  | chars admits =>
    have short : p < w.length := lt_of_le_of_ne inside blind
    simp only [ends,holds_append short]
  | seq a b ihA ihB =>
    simp only [Reads,not_or,not_exists,not_and] at blind
    simp only [ends,ihA p inside blind.1]
    apply List.flatMap_congr
    intro m member
    have found := (mem_ends w a p m).mp member
    have reach := found.bounds
    exact ihB m (by omega) (blind.2 m found)
  | alt a b ihA ihB =>
    simp only [Reads,not_or] at blind
    simp only [ends,ihA p inside blind.1,ihB p inside blind.2]
  | rep body least extra ih =>
    simp only [Reads,not_exists,not_and] at blind
    refine (ends_rep_congr fun k m small all => ?_).symm
    have reach := steps_forward all
    exact (ih m (by omega) (blind k m small all)).symm
  | run admits =>
    simp only [Reads,not_and,not_forall] at blind
    obtain ⟨stop,low,short,failed⟩ := blind inside
    have same : runLength (w++rest) admits p = runLength w admits p := by
      apply eq_of_forall_le_iff
      intro k
      simp only [le_runLength]
      constructor
      · intro all i start finish
        by_cases before : i < w.length
        · simpa only [holds_append before] using all i start finish
        · have blocked := all stop low (by omega)
          rw [holds_append short] at blocked
          exact absurd blocked failed
      · intro all i start finish
        by_cases before : i < w.length
        · simpa only [holds_append before] using all i start finish
        · exact absurd (all stop low (by omega)) failed
    simp only [ends,same]
  | notBehind admits => simp only [ends,holdsBehind_append inside]
  | notAhead body ih => simp only [ends,ih p inside blind]
  | boundary word =>
    have short : p < w.length := lt_of_le_of_ne inside blind
    simp only [ends,holdsBehind_append inside,holds_append short]
  | bos => rfl
  | eos =>
    have short : p < w.length := lt_of_le_of_ne inside blind
    have longer : p ≠ (w++rest).length := by simp; omega
    simp only [ends,longer,if_false,Nat.ne_of_lt short]

def looks : Regex α → List (α → Bool)
  | .seq first second => first.looks ++ second.looks
  | .alt first second => first.looks ++ second.looks
  | .rep body _ _ => body.looks
  | .notBehind admits => [admits]
  | .notAhead body => body.looks
  | .boundary word => [word]
  | _ => []

def anchored : Regex α → Bool
  | .seq first second => first.anchored || second.anchored
  | .alt first second => first.anchored || second.anchored
  | .rep body _ _ => body.anchored
  | .notAhead body => body.anchored
  | .bos => true
  | _ => false

private theorem holds_tail {t t' : List α} {k b : Nat} (same : t.drop (k+b) = t'.drop b)
    (admits : α → Bool) {q : Nat} (low : b ≤ q) : holds t admits (k+q) = holds t' admits q := by
  obtain ⟨i,rfl⟩ := Nat.exists_eq_add_of_le low
  have here := congrArg (fun s => s[i]?) same
  simp only [List.getElem?_drop,Nat.add_assoc] at here
  simp only [holds,here]

private theorem holdsBehind_tail {t t' : List α} {k b : Nat} (same : t.drop (k+b) = t'.drop b)
    (admits : α → Bool) {q : Nat} (low : b ≤ q)
    (seen : b < q ∨ holdsBehind t admits (k+b) = holdsBehind t' admits b) :
    holdsBehind t admits (k+q) = holdsBehind t' admits q := by
  by_cases here : b = q
  · subst q
    exact seen.resolve_left (Nat.lt_irrefl b)
  · obtain ⟨i,rfl⟩ := Nat.exists_eq_succ_of_ne_zero (by omega : q ≠ 0)
    exact holds_tail same admits (by omega : b ≤ i)

private theorem rounds_map {next next' last last' : Nat → List Nat} {k n p : Nat}
    (one : ∀ q, p ≤ q → next' (k+q) = (next q).map (k + ·))
    (up : ∀ q m, p ≤ q → m ∈ next q → p ≤ m)
    (final : ∀ q, p ≤ q → last' (k+q) = (last q).map (k + ·)) (q : Nat) (low : p ≤ q) :
    rounds next' last' n (k+q) = (rounds next last n q).map (k + ·) := by
  induction n generalizing q with
  | zero => exact final q low
  | succ n ih =>
    simp only [rounds,one q low,List.flatMap_map,List.map_flatMap]
    apply List.flatMap_congr
    intro m member
    exact ih m (up q m low member)

private theorem greedy_map {next next' : Nat → List Nat} {k n p : Nat}
    (one : ∀ q, p ≤ q → next' (k+q) = (next q).map (k + ·))
    (up : ∀ q m, p ≤ q → m ∈ next q → p ≤ m) (q : Nat) (low : p ≤ q) :
    greedy next' n (k+q) = (greedy next n q).map (k + ·) := by
  induction n generalizing q with
  | zero => rfl
  | succ n ih =>
    simp only [greedy,one q low,List.flatMap_map,List.map_append,List.map_flatMap,List.map_cons,
      List.map_nil]
    congr 1
    apply List.flatMap_congr
    intro m member
    exact ih m (up q m low member)

/-- Two texts with the same tail: attempts inside the tail agree, and an attempt at its
start agrees if its lookbehinds do. -/
theorem ends_tail {t t' : List α} {k b : Nat} (same : t.drop (k+b) = t'.drop b)
    (size : t.length = k+t'.length) (r : Regex α) (q : Nat) (low : b ≤ q)
    (seen : b < q ∨ ∀ admits ∈ r.looks, holdsBehind t admits (k+b) = holdsBehind t' admits b)
    (start : k = 0 ∨ 0 < q ∨ r.anchored = false) :
    r.ends t (k+q) = (r.ends t' q).map (k + ·) := by
  induction r generalizing q with
  | empty => rfl
  | chars admits =>
    simp only [ends,holds_tail same admits low]
    split_ifs <;> simp [Nat.add_assoc]
  | seq first second ihA ihB =>
    simp only [looks,anchored,List.mem_append,Bool.or_eq_false_iff] at seen start
    simp only [ends,ihA q low (seen.imp_right fun all x member => all x (Or.inl member))
      (start.imp_right fun right => right.imp_right And.left),List.flatMap_map,List.map_flatMap]
    apply List.flatMap_congr
    intro m member
    have reach := ((mem_ends t' first q m).mp member).bounds
    apply ihB m (by omega)
    · rcases seen with past | all
      · exact Or.inl (by omega)
      · exact Or.inr fun x inside => all x (Or.inr inside)
    · rcases start with zero | positive | plain
      · exact Or.inl zero
      · exact Or.inr (Or.inl (by omega))
      · exact Or.inr (Or.inr plain.2)
  | alt first second ihA ihB =>
    simp only [looks,anchored,List.mem_append,Bool.or_eq_false_iff] at seen start
    simp only [ends,List.map_append,
      ihA q low (seen.imp_right fun all x member => all x (Or.inl member))
        (start.imp_right fun right => right.imp_right And.left),
      ihB q low (seen.imp_right fun all x member => all x (Or.inr member))
        (start.imp_right fun right => right.imp_right And.right)]
  | rep body least extra ih =>
    have one (i : Nat) (further : q ≤ i) : body.ends t (k+i) = (body.ends t' i).map (k + ·) := by
      apply ih i (by omega)
      · rcases seen with past | all
        · exact Or.inl (by omega)
        · exact Or.inr all
      · rcases start with zero | positive | plain
        · exact Or.inl zero
        · exact Or.inr (Or.inl (by omega))
        · exact Or.inr (Or.inr plain)
    have up (i m : Nat) (further : q ≤ i) (member : m ∈ body.ends t' i) : q ≤ m :=
      further.trans ((mem_ends t' body i m).mp member).bounds.1
    simp only [ends]
    exact rounds_map one up (fun i further => greedy_map one up i further) q le_rfl
  | run admits =>
    have rest : t.drop (k+q) = t'.drop q := by
      obtain ⟨i,rfl⟩ := Nat.exists_eq_add_of_le low
      rw [← Nat.add_assoc,← List.drop_drop,same,List.drop_drop]
    have length : runLength t admits (k+q) = runLength t' admits q := by
      simp only [runLength,rest]
    simp only [ends,length,List.map_map,Function.comp_def,Nat.add_assoc]
  | notBehind admits =>
    have behind := holdsBehind_tail same admits low (seen.imp_right fun all => all admits (by simp [looks]))
    simp only [ends,behind]
    split_ifs <;> simp
  | notAhead body ih =>
    simp only [ends,ih q low seen start,List.isEmpty_map]
    split_ifs <;> simp
  | boundary word =>
    have behind := holdsBehind_tail same word low (seen.imp_right fun all => all word (by simp [looks]))
    simp only [ends,behind,holds_tail same word low]
    split_ifs <;> simp
  | bos =>
    simp only [anchored,Bool.true_eq_false,or_false] at start
    rcases start with rfl | positive
    · simp [ends]
    · have moved : k+q ≠ 0 := by omega
      simp only [ends,moved,if_false,Nat.ne_of_gt positive,List.map_nil]
  | eos =>
    simp only [ends,size,Nat.add_left_cancel_iff]
    split_ifs <;> simp

/-- An attempt sees at most one character before its start, so a prefix in front of
that character only shifts the positions. -/
theorem ends_shift (d w : List α) (r : Regex α) (p : Nat) (seen : 0 < p ∨ d = []) :
    r.ends (d++w) (d.length+p) = (r.ends w p).map (d.length + ·) := by
  apply ends_tail (b := 0) (by simp) (by simp) r p (Nat.zero_le p)
  · exact seen.imp_right (by rintro rfl; simp)
  · rcases seen with positive | rfl
    · exact Or.inr (Or.inl positive)
    · exact Or.inl rfl

theorem ends_shift_free (d w : List α) (r : Regex α) (free : r.looks = [] ∧ r.anchored = false)
    (p : Nat) : r.ends (d++w) (d.length+p) = (r.ends w p).map (d.length + ·) :=
  ends_tail (b := 0) (by simp) (by simp) r p (Nat.zero_le p) (Or.inr (by simp [free.1]))
    (Or.inr (Or.inr free.2))

end GatewaySuite.Lib.Regex
