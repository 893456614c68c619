import GatewaySuite.Lib.RegexLocality

/-! A match and its surroundings. A character that no class of an expression admits cuts a
text like its end, and a match that stands clear of the end of its text is still one when
the text goes on. -/
namespace GatewaySuite.Lib.Regex
variable {α : Type}

/-- No class that an attempt reads ahead with admits the character. -/
def inert (c : α) : Regex α → Bool
  | .empty | .notBehind _ | .bos => true
  | .chars admits | .run admits | .boundary admits => !admits c
  | .seq a b | .alt a b => a.inert c && b.inert c
  | .rep body _ _ | .notAhead body => body.inert c
  | .eos => false

def shortest : Regex α → Nat
  | .chars _ => 1
  | .seq a b => a.shortest + b.shortest
  | .alt a b => min a.shortest b.shortest
  | .rep body least _ => least * body.shortest
  | .empty | .run _ | .notBehind _ | .notAhead _ | .boundary _ | .bos | .eos => 0

/-- How many characters behind its end a match can depend on. -/
def ahead : Regex α → Nat
  | .empty | .chars _ | .run _ | .notBehind _ | .bos => 0
  | .seq a b => max (a.ahead - b.shortest) b.ahead
  | .alt a b => max a.ahead b.ahead
  | .rep body _ _ => body.ahead
  | .notAhead body => body.sight
  | .boundary _ | .eos => 1

private theorem holds_barrier {w rest : List α} {c : α} {admits : α → Bool} {p : Nat}
    (inside : p ≤ w.length) (dull : admits c = false) :
    holds (w ++ c :: rest) admits p = holds w admits p := by
  by_cases before : p < w.length
  · exact holds_append before
  · have here : p = w.length := by omega
    simp [holds,here,dull]

private theorem runLength_barrier {w rest : List α} {c : α} {admits : α → Bool} {p : Nat}
    (inside : p ≤ w.length) (dull : admits c = false) :
    runLength (w ++ c :: rest) admits p = runLength w admits p := by
  simp only [runLength,List.drop_append_of_le_length inside]
  rw [List.takeWhile_append]
  split_ifs with whole
  · simp [dull,whole]
  · rfl

/-- In front of a character that it cannot admit, an attempt finds what it finds in front
of the end of the text. -/
theorem ends_barrier (w rest : List α) (c : α) (r : Regex α) (p : Nat) (inside : p ≤ w.length)
    (dull : r.inert c = true) : r.ends (w ++ c :: rest) p = r.ends w p := by
  induction r generalizing p with
  | empty | bos => rfl
  | chars admits =>
    simp only [inert,Bool.not_eq_true'] at dull
    simp only [ends,holds_barrier inside dull]
  | seq a b ihA ihB =>
    simp only [inert,Bool.and_eq_true] at dull
    simp only [ends,ihA p inside dull.1]
    apply List.flatMap_congr
    intro m member
    have reach := ((mem_ends w a p m).mp member).bounds
    exact ihB m (by omega) dull.2
  | alt a b ihA ihB =>
    simp only [inert,Bool.and_eq_true] at dull
    simp only [ends,ihA p inside dull.1,ihB p inside dull.2]
  | rep body least extra ih =>
    refine (ends_rep_congr fun k m small all => ?_).symm
    have reach := steps_forward all
    exact (ih m (by omega) dull).symm
  | run admits =>
    simp only [inert,Bool.not_eq_true'] at dull
    simp only [ends,runLength_barrier inside dull]
  | notBehind admits => simp only [ends,holdsBehind_append inside]
  | notAhead body ih => simp only [ends,ih p inside dull]
  | boundary word =>
    simp only [inert,Bool.not_eq_true'] at dull
    simp only [ends,holdsBehind_append inside,holds_barrier inside dull]
  | eos => simp [inert] at dull

private theorem steps_shortest {t : List α} {r : Regex α}
    (one : ∀ p q, r.Matches t p q → p + r.shortest ≤ q) {n p q : Nat}
    (all : Steps (r.Matches t) n p q) : p + n * r.shortest ≤ q := by
  induction n generalizing p with
  | zero =>
    have same : q = p := all
    omega
  | succ n ih =>
    obtain ⟨m,head,rest⟩ := all
    have front := one p m head
    have back := ih rest
    have total : (n+1) * r.shortest = n * r.shortest + r.shortest := Nat.succ_mul n r.shortest
    omega

theorem Matches.shortest {t : List α} {r : Regex α} {p q : Nat} (found : r.Matches t p q) :
    p + r.shortest ≤ q := by
  induction r generalizing p q with
  | empty | run | notBehind | notAhead | boundary | bos | eos => exact found.bounds.1
  | chars admits => exact found.1.ge
  | seq a b ihA ihB =>
    obtain ⟨m,left,right⟩ := found
    have front := ihA left
    have back := ihB right
    simp only [Regex.shortest]
    omega
  | alt a b ihA ihB =>
    simp only [Regex.shortest]
    rcases found with left | right
    · have long := ihA left
      omega
    · have long := ihB right
      omega
  | rep body least extra ih =>
    obtain ⟨n,low,_,all⟩ := found
    have total := steps_shortest (fun _ _ found => ih found) all
    have scaled := Nat.mul_le_mul_right body.shortest low
    simp only [Regex.shortest]
    omega

private theorem steps_extend {w rest : List α} {r : Regex α} {room : Nat}
    (one : ∀ p q, q ≤ room → r.Matches w p q → r.Matches (w++rest) p q) {n p q : Nat}
    (inside : q ≤ room) (all : Steps (r.Matches w) n p q) : Steps (r.Matches (w++rest)) n p q := by
  induction n generalizing p with
  | zero => exact all
  | succ n ih =>
    obtain ⟨m,head,more⟩ := all
    have later := (steps_forward more).1
    exact ⟨m,one p m (by omega) head,ih more⟩

theorem Matches.extend {w rest : List α} {r : Regex α} {p q : Nat} (found : r.Matches w p q)
    (finite : r.bounded = true) (room : q + r.ahead ≤ w.length) : r.Matches (w++rest) p q := by
  induction r generalizing p q with
  | empty | bos => exact found
  | chars admits =>
    obtain ⟨rfl,held⟩ := found
    exact ⟨rfl,by rwa [holds_append (holds_lt held)]⟩
  | seq a b ihA ihB =>
    simp only [bounded,Bool.and_eq_true] at finite
    obtain ⟨m,left,right⟩ := found
    have long := right.shortest
    simp only [ahead] at room
    exact ⟨m,ihA left finite.1 (by omega),ihB right finite.2 (by omega)⟩
  | alt a b ihA ihB =>
    simp only [bounded,Bool.and_eq_true] at finite
    simp only [ahead] at room
    rcases found with left | right
    · exact Or.inl (ihA left finite.1 (by omega))
    · exact Or.inr (ihB right finite.2 (by omega))
  | rep body least extra ih =>
    obtain ⟨n,low,high,all⟩ := found
    simp only [ahead] at room
    exact ⟨n,low,high,steps_extend (fun _ _ short found => ih found finite (by omega))
      (by omega : q ≤ w.length - body.ahead) all⟩
  | run => simp [bounded] at finite
  | notBehind admits =>
    obtain ⟨rfl,clear⟩ := found
    exact ⟨rfl,by rwa [holdsBehind_append (by omega)]⟩
  | notAhead body ih =>
    obtain ⟨rfl,clear⟩ := found
    simp only [ahead] at room
    have blind : ¬ body.Reads w w.length q := by
      intro reads
      have near := reads.sight finite
      omega
    refine ⟨rfl,fun m longer => clear m ?_⟩
    rw [← mem_ends] at longer ⊢
    rwa [ends_append w rest body q (by omega) blind] at longer
  | boundary word =>
    obtain ⟨rfl,edge⟩ := found
    simp only [ahead] at room
    refine ⟨rfl,?_⟩
    rwa [holdsBehind_append (by omega),holds_append (by omega)]
  | eos =>
    obtain ⟨rfl,stop⟩ := found
    simp only [ahead] at room
    omega

/-- A match that does not depend on where its text starts and stops is one in every text
around it. -/
theorem Matches.surround {d w rest : List α} {r : Regex α} {p q : Nat} (found : r.Matches w p q)
    (finite : r.bounded = true) (front : 0 < p ∨ d = [] ∨ r.looks = [] ∧ r.anchored = false)
    (back : q + r.ahead ≤ w.length ∨ rest = []) :
    r.Matches (d++w++rest) (d.length+p) (d.length+q) := by
  have shifted : r.ends (d++w) (d.length+p) = (r.ends w p).map (d.length + ·) := by
    rcases front with inner | whole | free
    · exact ends_shift d w r p (Or.inl inner)
    · exact ends_shift d w r p (Or.inr whole)
    · exact ends_shift_free d w r free p
  have moved : r.Matches (d++w) (d.length+p) (d.length+q) := by
    rw [← mem_ends,shifted]
    exact List.mem_map_of_mem ((mem_ends w r p q).mpr found)
  rcases back with room | rfl
  · apply moved.extend finite
    rw [List.length_append]
    omega
  · rwa [List.append_nil]

end GatewaySuite.Lib.Regex
