import Mathlib.Data.List.Basic
import Mathlib.Tactic.Common

/-! Backtracking regular expressions over an arbitrary alphabet. `ends` lists the
results of a match attempt in the order in which a greedy backtracking engine
reaches them; `Matches` says which spans the expression admits, without any order.
Lookarounds read the whole text, so a position is never looked at out of context. -/
namespace GatewaySuite.Lib

inductive Regex (α : Type) where
  | empty
  | chars (admits : α → Bool)
  | seq (first second : Regex α)
  | alt (first second : Regex α)
  | rep (body : Regex α) (least extra : Nat)
  | run (admits : α → Bool)
  | notBehind (admits : α → Bool)
  | notAhead (body : Regex α)
  | boundary (word : α → Bool)
  | bos
  | eos

namespace Regex
variable {α : Type}

/-- The optional group `(?:body)?`, greedy: the body first, then nothing. -/
def opt (body : Regex α) : Regex α := .alt body .empty

def holds (t : List α) (admits : α → Bool) (p : Nat) : Bool := (t[p]?).any admits

def holdsBehind (t : List α) (admits : α → Bool) : Nat → Bool
  | 0 => false
  | p+1 => holds t admits p

def runLength (t : List α) (admits : α → Bool) (p : Nat) : Nat :=
  ((t.drop p).takeWhile admits).length

/-- Exactly `n` rounds of `next`, then `last`. -/
def rounds (next last : Nat → List Nat) : Nat → Nat → List Nat
  | 0,p => last p
  | n+1,p => (next p).flatMap (rounds next last n)

/-- At most `n` rounds of `next`, more rounds before fewer. -/
def greedy (next : Nat → List Nat) : Nat → Nat → List Nat
  | 0,p => [p]
  | n+1,p => (next p).flatMap (greedy next n) ++ [p]

/-- Where a match that starts at a position can end, in the order of backtracking. -/
def ends (t : List α) : Regex α → Nat → List Nat
  | .empty,p => [p]
  | .chars admits,p => if holds t admits p then [p+1] else []
  | .seq first second,p => (first.ends t p).flatMap (second.ends t)
  | .alt first second,p => first.ends t p ++ second.ends t p
  | .rep body least extra,p => rounds (body.ends t) (greedy (body.ends t) extra) least p
  | .run admits,p => (List.range (runLength t admits p + 1)).reverse.map (p + ·)
  | .notBehind admits,p => if holdsBehind t admits p then [] else [p]
  | .notAhead body,p => if (body.ends t p).isEmpty then [p] else []
  | .boundary word,p => if holdsBehind t word p != holds t word p then [p] else []
  | .bos,p => if p = 0 then [p] else []
  | .eos,p => if p = t.length then [p] else []

def Steps (step : Nat → Nat → Prop) : Nat → Nat → Nat → Prop
  | 0,p,q => q = p
  | n+1,p,q => ∃ m, step p m ∧ Steps step n m q

/-- The spans an expression admits, with any choice of its quantifiers. -/
def Matches (t : List α) : Regex α → Nat → Nat → Prop
  | .empty,p,q => q = p
  | .chars admits,p,q => q = p+1 ∧ holds t admits p
  | .seq first second,p,q => ∃ m, first.Matches t p m ∧ second.Matches t m q
  | .alt first second,p,q => first.Matches t p q ∨ second.Matches t p q
  | .rep body least extra,p,q =>
      ∃ n, least ≤ n ∧ n ≤ least+extra ∧ Steps (body.Matches t) n p q
  | .run admits,p,q => p ≤ q ∧ ∀ i, p ≤ i → i < q → holds t admits i
  | .notBehind admits,p,q => q = p ∧ holdsBehind t admits p = false
  | .notAhead body,p,q => q = p ∧ ∀ m, ¬ body.Matches t p m
  | .boundary word,p,q => q = p ∧ holdsBehind t word p ≠ holds t word p
  | .bos,p,q => q = p ∧ p = 0
  | .eos,p,q => q = p ∧ p = t.length

theorem holds_lt {t : List α} {admits : α → Bool} {p : Nat} (held : holds t admits p) :
    p < t.length := by
  by_contra outside
  simp [holds,List.getElem?_eq_none (Nat.le_of_not_lt outside)] at held

theorem Steps.append {step : Nat → Nat → Prop} {n k p m q : Nat}
    (first : Steps step n p m) (second : Steps step k m q) : Steps step (n+k) p q := by
  induction n generalizing p with
  | zero =>
    have same : m = p := first
    subst m
    simpa using second
  | succ n ih =>
    obtain ⟨next,head,rest⟩ := first
    have shape : n+1+k = (n+k)+1 := by omega
    rw [shape]
    exact ⟨next,head,ih rest⟩

theorem Steps.split {step : Nat → Nat → Prop} {n k p q : Nat}
    (all : Steps step (n+k) p q) : ∃ m, Steps step n p m ∧ Steps step k m q := by
  induction n generalizing p with
  | zero => exact ⟨p,rfl,by simpa using all⟩
  | succ n ih =>
    have shape : n+1+k = (n+k)+1 := by omega
    rw [shape] at all
    obtain ⟨next,head,rest⟩ := all
    obtain ⟨m,before,after⟩ := ih rest
    exact ⟨m,⟨next,head,before⟩,after⟩

theorem Steps.mono {first second : Nat → Nat → Prop} (sub : ∀ p q, first p q → second p q)
    {n p q : Nat} (all : Steps first n p q) : Steps second n p q := by
  induction n generalizing p with
  | zero => exact all
  | succ n ih =>
    obtain ⟨m,head,rest⟩ := all
    exact ⟨m,sub p m head,ih rest⟩

theorem mem_rounds (next last : Nat → List Nat) (n p q : Nat) :
    q ∈ rounds next last n p ↔ ∃ m, Steps (fun a b => b ∈ next a) n p m ∧ q ∈ last m := by
  induction n generalizing p with
  | zero => simp [rounds,Steps]
  | succ n ih =>
    simp only [rounds,List.mem_flatMap,ih,Steps]
    constructor
    · rintro ⟨a,member,m,rest,ending⟩
      exact ⟨m,⟨a,member,rest⟩,ending⟩
    · rintro ⟨m,⟨a,member,rest⟩,ending⟩
      exact ⟨a,member,m,rest,ending⟩

theorem mem_greedy (next : Nat → List Nat) (n p q : Nat) :
    q ∈ greedy next n p ↔ ∃ k, k ≤ n ∧ Steps (fun a b => b ∈ next a) k p q := by
  induction n generalizing p with
  | zero =>
    simp only [greedy,List.mem_singleton,Nat.le_zero_eq]
    constructor
    · intro same
      exact ⟨0,rfl,same⟩
    · rintro ⟨k,rfl,same⟩
      exact same
  | succ n ih =>
    simp only [greedy,List.mem_append,List.mem_flatMap,ih,List.mem_singleton]
    constructor
    · rintro (⟨a,member,k,bound,rest⟩ | same)
      · exact ⟨k+1,by omega,a,member,rest⟩
      · exact ⟨0,by omega,same⟩
    · rintro ⟨k,bound,all⟩
      cases k with
      | zero => exact Or.inr all
      | succ k =>
        obtain ⟨a,member,rest⟩ := all
        exact Or.inl ⟨a,member,k,by omega,rest⟩

private theorem le_takeWhile (admits : α → Bool) (xs : List α) (k : Nat) :
    k ≤ (xs.takeWhile admits).length ↔ ∀ i, i < k → holds xs admits i := by
  induction xs generalizing k with
  | nil =>
    constructor
    · intro bound i inside
      simp at bound
      omega
    · intro all
      cases k with
      | zero => simp
      | succ k => simpa [holds] using all 0 (by omega)
  | cons x xs ih =>
    cases k with
    | zero => simp
    | succ k =>
      cases head : admits x with
      | false =>
        simp only [List.takeWhile_cons,head]
        constructor
        · intro bound
          simp at bound
        · intro all
          simpa [holds,head] using all 0 (by omega)
      | true =>
        simp only [List.takeWhile_cons,head,if_true,List.length_cons,Nat.add_le_add_iff_right,ih]
        constructor
        · intro all i inside
          cases i with
          | zero => simpa [holds] using head
          | succ i => simpa [holds] using all i (by omega)
        · intro all i inside
          simpa [holds] using all (i+1) (by omega)

theorem le_runLength (t : List α) (admits : α → Bool) (p k : Nat) :
    k ≤ runLength t admits p ↔ ∀ i, p ≤ i → i < p+k → holds t admits i := by
  rw [runLength,le_takeWhile]
  simp only [holds,List.getElem?_drop]
  constructor
  · intro all i low high
    have shifted := all (i-p) (by omega)
    rwa [Nat.add_sub_cancel' low] at shifted
  · intro all i inside
    exact all (p+i) (by omega) (by omega)

/-- The matcher computes exactly the admitted spans; only the order is its own. -/
theorem mem_ends (t : List α) (r : Regex α) (p q : Nat) : q ∈ r.ends t p ↔ r.Matches t p q := by
  induction r generalizing p q with
  | empty => simp [ends,Matches]
  | chars admits =>
    cases held : holds t admits p <;> simp [ends,Matches,held]
  | seq first second ihFirst ihSecond =>
    simp only [ends,Matches,List.mem_flatMap,ihFirst,ihSecond]
  | alt first second ihFirst ihSecond =>
    simp only [ends,Matches,List.mem_append,ihFirst,ihSecond]
  | rep body least extra ih =>
    have same : (fun a b => b ∈ body.ends t a) = body.Matches t := by
      funext a b
      exact propext (ih a b)
    simp only [ends,Matches,mem_rounds,mem_greedy,same]
    constructor
    · rintro ⟨m,first,k,bound,second⟩
      exact ⟨least+k,by omega,by omega,first.append second⟩
    · rintro ⟨n,low,high,all⟩
      obtain ⟨k,rfl⟩ := Nat.exists_eq_add_of_le low
      obtain ⟨m,first,second⟩ := all.split
      exact ⟨m,first,k,by omega,second⟩
  | run admits =>
    simp only [ends,Matches,List.mem_map,List.mem_reverse,List.mem_range]
    constructor
    · rintro ⟨k,bound,rfl⟩
      exact ⟨by omega,(le_runLength t admits p k).mp (by omega)⟩
    · rintro ⟨low,all⟩
      refine ⟨q-p,?_,by omega⟩
      have bound := (le_runLength t admits p (q-p)).mpr (fun i start stop => all i start (by omega))
      omega
  | notBehind admits =>
    cases held : holdsBehind t admits p <;> simp [ends,Matches,held]
  | notAhead body ih =>
    have blocked : body.ends t p = [] ↔ ∀ m, ¬ body.Matches t p m := by
      simp only [List.eq_nil_iff_forall_not_mem,ih]
    simp only [ends,Matches,List.isEmpty_iff,← blocked]
    split_ifs with none <;> simp [none]
  | boundary word =>
    cases before : holdsBehind t word p <;> cases here : holds t word p <;>
      simp [ends,Matches,before,here]
  | bos => by_cases start : p = 0 <;> simp [ends,Matches,start]
  | eos => by_cases stop : p = t.length <;> simp [ends,Matches,stop]

theorem ends_nil_iff (t : List α) (r : Regex α) (p : Nat) :
    r.ends t p = [] ↔ ∀ q, ¬ r.Matches t p q := by
  simp only [List.eq_nil_iff_forall_not_mem,mem_ends]

/-- The first of `n+1` positions from `p` on at which an attempt succeeds. -/
def leftmost {β : Type} (attempt : Nat → Option β) : Nat → Nat → Option (Nat × β)
  | 0,p => (attempt p).map (fun found => (p,found))
  | n+1,p =>
    match attempt p with
    | some found => some (p,found)
    | none => leftmost attempt n (p+1)

theorem leftmost_some {β : Type} {attempt : Nat → Option β} {n p q : Nat} {found : β}
    (search : leftmost attempt n p = some (q,found)) :
    p ≤ q ∧ q ≤ p+n ∧ attempt q = some found ∧ ∀ i, p ≤ i → i < q → attempt i = none := by
  induction n generalizing p with
  | zero =>
    simp only [leftmost,Option.map_eq_some_iff,Prod.mk.injEq] at search
    obtain ⟨_,here,rfl,rfl⟩ := search
    exact ⟨Nat.le_refl p,Nat.le_refl p,here,fun i low high => by omega⟩
  | succ n ih =>
    simp only [leftmost] at search
    split at search
    next here =>
      cases search
      exact ⟨Nat.le_refl _,by omega,here,fun i low high => by omega⟩
    next nothing =>
      obtain ⟨low,high,here,before⟩ := ih search
      refine ⟨by omega,by omega,here,fun i start stop => ?_⟩
      by_cases same : i = p
      · exact same ▸ nothing
      · exact before i (by omega) stop

theorem leftmost_none {β : Type} {attempt : Nat → Option β} {n p : Nat}
    (search : leftmost attempt n p = none) : ∀ i, p ≤ i → i ≤ p+n → attempt i = none := by
  induction n generalizing p with
  | zero =>
    intro i low high
    have same : i = p := by omega
    subst i
    simpa [leftmost] using search
  | succ n ih =>
    simp only [leftmost] at search
    split at search
    next => cases search
    next nothing =>
      intro i low high
      by_cases same : i = p
      · exact same ▸ nothing
      · exact ih search i (by omega) (by omega)

/-- The leftmost match at or after `pos`, with the end the engine reaches first. -/
def search (t : List α) (r : Regex α) (pos : Nat) : Option (Nat × Nat) :=
  if pos ≤ t.length then leftmost (fun p => (r.ends t p).head?) (t.length-pos) pos else none

theorem search_some {t : List α} {r : Regex α} {pos start stop : Nat}
    (found : search t r pos = some (start,stop)) :
    pos ≤ start ∧ start ≤ t.length ∧ r.Matches t start stop := by
  unfold search at found
  split_ifs at found
  obtain ⟨low,high,here,_⟩ := leftmost_some found
  exact ⟨low,by omega,(mem_ends t r start stop).mp (List.mem_of_head? here)⟩

theorem search_le {t : List α} {r : Regex α} {pos p q : Nat} (low : pos ≤ p) (high : p ≤ t.length)
    (matched : r.Matches t p q) :
    ∃ start stop, search t r pos = some (start,stop) ∧ start ≤ p := by
  have present : (r.ends t p).head? ≠ none := by
    rw [ne_eq,List.head?_eq_none_iff,ends_nil_iff]
    exact fun nothing => nothing q matched
  cases found : search t r pos with
  | none =>
    unfold search at found
    rw [if_pos (Nat.le_trans low high)] at found
    exact absurd (leftmost_none found p low (by omega)) present
  | some pair =>
    obtain ⟨start,stop⟩ := pair
    refine ⟨start,stop,rfl,?_⟩
    unfold search at found
    split_ifs at found
    obtain ⟨_,_,_,before⟩ := leftmost_some found
    by_contra late
    exact present (before p low (by omega))

end Regex
end GatewaySuite.Lib
