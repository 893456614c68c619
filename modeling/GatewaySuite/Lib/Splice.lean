import GatewaySuite.Lib.Scan
import Mathlib.Algebra.GroupWithZero.Nat

/-! Replacing the spans of a scan. `splice` writes a text out up to a cut with every
span that ends by then replaced; a cut that tears no span divides the output into what
is written before it and what a restarted scan writes after it. -/
namespace GatewaySuite.Lib
variable {α L : Type}

def slice (t : List α) (a b : Nat) : List α := (t.take b).drop a

theorem slice_eq (t : List α) (a b : Nat) : slice t a b = (t.drop a).take (b-a) := by
  simp [slice,List.drop_take]

@[simp] theorem slice_self (t : List α) (a : Nat) : slice t a a = [] := by simp [slice_eq]

theorem slice_append (t : List α) {a b c : Nat} (first : a ≤ b) (second : b ≤ c) :
    slice t a b ++ slice t b c = slice t a c := by
  have total : c-a = (b-a)+(c-b) := by omega
  have start : a+(b-a) = b := by omega
  rw [slice_eq,slice_eq,slice_eq,total,List.take_add,List.drop_drop,start]

theorem slice_shift (d t : List α) (a b : Nat) :
    slice (d++t) (d.length+a) (d.length+b) = slice t a b := by
  have size : d.length+b-(d.length+a) = b-a := by omega
  rw [slice_eq,slice_eq,size,← List.drop_drop,List.drop_left]

theorem slice_left (t rest : List α) {a b : Nat} (inside : b ≤ t.length) :
    slice (t++rest) a b = slice t a b := by
  simp [slice,List.take_append_of_le_length inside]

theorem slice_slice (t : List α) {a b i j : Nat} (inside : a+j ≤ b) :
    slice (slice t a b) i j = slice t (a+i) (a+j) := by
  have short : min (j-i) (b-a-i) = a+j-(a+i) := by omega
  rw [slice_eq,slice_eq,slice_eq,List.drop_take,List.take_take,List.drop_drop,short]

theorem slice_length (t : List α) {a b : Nat} (inside : b ≤ t.length) :
    (slice t a b).length = b-a := by
  simp [slice,Nat.min_eq_left inside]

theorem slice_zero (t : List α) (b : Nat) : slice t 0 b = t.take b := by simp [slice]

/-- The text from the cursor to `last`, with `put` in the place of every span that ends
by then. -/
def splice (t put : List α) (last : Nat) : Nat → List (Hit L) → List α
  | cursor,[] => slice t cursor last
  | cursor,h::rest =>
    if last < h.stop then slice t cursor last
    else slice t cursor h.start ++ put ++ splice t put last h.stop rest

/-- Where a hit starts and stops, which is all that a splice reads of it. -/
def Hit.span (h : Hit L) : Nat × Nat := (h.start,h.stop)

theorem splice_spans (t put : List α) (last q : Nat) {hits hits' : List (Hit L)}
    (same : hits.map Hit.span = hits'.map Hit.span) :
    splice t put last q hits = splice t put last q hits' := by
  induction hits generalizing q hits' with
  | nil =>
    cases hits' with
    | nil => rfl
    | cons h' rest' => cases same
  | cons h rest ih =>
    cases hits' with
    | nil => cases same
    | cons h' rest' =>
      obtain ⟨spans,after⟩ := List.cons.inj same
      obtain ⟨start,stop⟩ := Prod.mk.inj spans
      simp only [splice,start,stop,ih h'.stop after]

theorem splice_lead (t put : List α) {q cut last : Nat} (hits : List (Hit L)) (order : q ≤ cut)
    (fits : cut ≤ last) (later : ∀ h ∈ hits, cut ≤ h.start) :
    splice t put last q hits = slice t q cut ++ splice t put last cut hits := by
  cases hits with
  | nil => simp only [splice,slice_append t order fits]
  | cons h rest =>
    have low := later h (by simp)
    simp only [splice]
    split_ifs with longer
    · rw [slice_append t order fits]
    · rw [← slice_append t order low]
      simp only [List.append_assoc]

theorem splice_none (t put : List α) {q last : Nat} (hits : List (Hit L))
    (longer : ∀ h ∈ hits, last < h.stop) : splice t put last q hits = slice t q last := by
  cases hits with
  | nil => rfl
  | cons h rest =>
    have beyond := longer h (by simp)
    simp only [splice,beyond,if_true]

theorem splice_append (t put : List α) {q cut last : Nat} (front back : List (Hit L)) (order : q ≤ cut)
    (fits : cut ≤ last) (early : ∀ h ∈ front, h.stop ≤ cut) (later : ∀ h ∈ back, cut ≤ h.start) :
    splice t put last q (front ++ back) =
      splice t put cut q front ++ splice t put last cut back := by
  induction front generalizing q with
  | nil => exact splice_lead t put back order fits later
  | cons h rest ih =>
    have short := early h (by simp)
    have inside : ¬ cut < h.stop := by omega
    have within : ¬ last < h.stop := by omega
    simp only [List.cons_append,splice,inside,within,if_false,List.append_assoc,
      ih short fun x member => early x (by simp [member])]

private theorem splice_start (s : Scanner L) (t put : List α) {q cut last : Nat} (behind : q ≤ cut)
    (fits : cut ≤ last) :
    splice t put last q (s.hits cut) =
      splice t put cut q (s.hits cut) ++ splice t put last cut (s.hits cut) := by
  have low := fun h member => (s.hit_bounds cut h member).1
  have longer := fun h member => lt_of_le_of_lt (low h member) (s.hit_bounds cut h member).2.1
  rw [splice_lead t put (s.hits cut) behind fits low,splice_none t put (s.hits cut) longer]

theorem splice_cut (s : Scanner L) (t put : List α) {q p cut last : Nat} (behind : q ≤ p)
    (order : p ≤ cut) (fits : cut ≤ last) (clean : s.Clean p cut) :
    splice t put last q (s.hits p) =
      splice t put cut q (s.hits p) ++ splice t put last cut (s.hits cut) := by
  induction p using s.scan_induction generalizing q with
  | past p above =>
    simp only [s.hits_top above,s.hits_top (Nat.le_trans above order),splice]
    exact (slice_append t (by omega) fits).symm
  | taken p label stop found forward within ih =>
    obtain ⟨whole,rest⟩ := (s.clean_some found).mp clean
    by_cases here : p = cut
    · subst p
      exact splice_start s t put behind fits
    · have short : stop ≤ cut := by omega
      have first : ¬ last < stop := by omega
      have second : ¬ cut < stop := by omega
      rw [s.hits_some found]
      simp only [splice,first,second,if_false]
      rw [ih (Nat.le_refl stop) short rest]
      simp only [List.append_assoc]
  | skipped p below nothing ih =>
    by_cases here : p = cut
    · subst p
      exact splice_start s t put behind fits
    · rw [s.hits_none below nothing]
      exact ih (by omega) (by omega) ((s.clean_none below nothing).mp clean)

theorem splice_taken (t put : List α) (last q : Nat) (hits : List (Hit L)) :
    splice t put last q (hits.takeWhile (fun h => decide (h.stop ≤ last))) =
      splice t put last q hits := by
  induction hits generalizing q with
  | nil => rfl
  | cons h rest ih =>
    by_cases short : h.stop ≤ last
    · have fits : ¬ last < h.stop := by omega
      simp only [List.takeWhile_cons,short,decide_true,if_true,splice,fits,if_false,ih]
    · have longer : last < h.stop := by omega
      simp [short,splice,longer]

theorem splice_shift (d t put : List α) (last q : Nat) (hits : List (Hit L)) :
    splice (d++t) put (d.length+last) (d.length+q) (hits.map (Hit.shift d.length)) =
      splice t put last q hits := by
  induction hits generalizing q with
  | nil => exact slice_shift d t q last
  | cons h rest ih =>
    simp only [List.map_cons,splice,Hit.shift,slice_shift,ih,Nat.add_lt_add_iff_left]

theorem splice_front (d t put : List α) (last : Nat) (hits : List (Hit L)) :
    splice (d++t) put (d.length+last) d.length (hits.map (Hit.shift d.length)) =
      splice t put last 0 hits := splice_shift d t put last 0 hits

theorem splice_left (t rest put : List α) {last q : Nat} (hits : List (Hit L))
    (inside : last ≤ t.length) (ordered : ∀ h ∈ hits, h.start < h.stop) :
    splice (t++rest) put last q hits = splice t put last q hits := by
  induction hits generalizing q with
  | nil => exact slice_left t rest inside
  | cons h rest' ih =>
    have forward := ordered h (by simp)
    simp only [splice]
    split_ifs with longer
    · exact slice_left t rest inside
    · rw [slice_left t rest (by omega : h.start ≤ t.length),
        ih (fun x member => ordered x (by simp [member]))]

/-- What a splice writes, and what it replaces, are the text and what it puts in. -/
theorem splice_length (t put : List α) {last : Nat} (inside : last ≤ t.length) (cursor : Nat)
    (hits : List (Hit L)) (order : cursor ≤ last)
    (ordered : hits.Pairwise fun h h' => h.stop ≤ h'.start)
    (forward : ∀ h ∈ hits, cursor ≤ h.start ∧ h.start < h.stop) :
    let replaced := hits.takeWhile fun h => decide (h.stop ≤ last)
    (splice t put last cursor hits).length + (replaced.map fun h => h.stop-h.start).sum =
      (last-cursor) + put.length * replaced.length := by
  induction hits generalizing cursor with
  | nil => simp [splice,slice_length t inside]
  | cons h rest ih =>
    obtain ⟨low,high⟩ := forward h (by simp)
    obtain ⟨after,rest_ordered⟩ := List.pairwise_cons.mp ordered
    by_cases short : h.stop ≤ last
    · have tail := ih h.stop short rest_ordered fun x member =>
        ⟨after x member,(forward x (by simp [member])).2⟩
      have fits : ¬ last < h.stop := by omega
      have first : (slice t cursor h.start).length = h.start-cursor := slice_length t (by omega)
      simp only [splice,fits,if_false,short,decide_true,List.takeWhile_cons_of_pos,List.length_append,
        first,List.map_cons,List.sum_cons,List.length_cons,Nat.mul_add,Nat.mul_one] at tail ⊢
      omega
    · have longer : last < h.stop := by omega
      simp [splice,longer,short,slice_length t inside]

/-- Replacing spans that pass a test by a text that passes it changes nothing about the rest. -/
theorem splice_all (t put : List α) (good : α → Bool) (last cursor : Nat) (hits : List (Hit L))
    (order : cursor ≤ last) (ordered : hits.Pairwise fun h h' => h.stop ≤ h'.start)
    (forward : ∀ h ∈ hits, cursor ≤ h.start ∧ h.start < h.stop) (passes : put.all good = true)
    (spans : ∀ h ∈ hits, (slice t h.start h.stop).all good = true) :
    (splice t put last cursor hits).all good = (slice t cursor last).all good := by
  induction hits generalizing cursor with
  | nil => rfl
  | cons h rest ih =>
    obtain ⟨low,high⟩ := forward h (by simp)
    obtain ⟨after,rest_ordered⟩ := List.pairwise_cons.mp ordered
    simp only [splice]
    split_ifs with longer
    · rfl
    · have short : h.stop ≤ last := not_lt.mp longer
      have tail := ih h.stop short rest_ordered
        (fun x member => ⟨after x member,(forward x (by simp [member])).2⟩)
        (fun x member => spans x (by simp [member]))
      rw [← slice_append t low (by omega : h.start ≤ last),← slice_append t high.le short]
      simp only [List.all_append,tail,passes,spans h (by simp),Bool.and_true,Bool.true_and]

/-- The parts of the text between the spans, where `splice` copies the text. -/
def pieces (last : Nat) : Nat → List (Hit L) → List (Nat × Nat)
  | cursor,[] => [(cursor,last)]
  | cursor,h::rest => (cursor,h.start) :: pieces last h.stop rest

theorem splice_pieces (t put : List α) (last cursor : Nat) (hits : List (Hit L))
    (inside : ∀ h ∈ hits, h.stop ≤ last) :
    splice t put last cursor hits =
      put.intercalate ((pieces last cursor hits).map fun piece => slice t piece.1 piece.2) := by
  induction hits generalizing cursor with
  | nil => simp [splice,pieces]
  | cons h rest ih =>
    have fits : ¬ last < h.stop := by
      have short := inside h (by simp)
      omega
    have more : ((pieces last h.stop rest).map fun piece => slice t piece.1 piece.2) ≠ [] := by
      cases rest <;> simp [pieces]
    simp only [splice,fits,if_false,pieces,List.map_cons]
    rw [List.intercalate_cons_of_ne_nil more,ih h.stop (fun x member => inside x (by simp [member]))]

theorem pieces_inside (last cursor : Nat) (hits : List (Hit L)) (order : cursor ≤ last)
    (ordered : hits.Pairwise fun h h' => h.stop ≤ h'.start)
    (forward : ∀ h ∈ hits, cursor ≤ h.start ∧ h.start < h.stop ∧ h.stop ≤ last) :
    ∀ piece ∈ pieces last cursor hits, cursor ≤ piece.1 ∧ piece.1 ≤ piece.2 ∧ piece.2 ≤ last := by
  induction hits generalizing cursor with
  | nil => simpa [pieces] using order
  | cons h rest ih =>
    have first := forward h (by simp)
    obtain ⟨after,rest_ordered⟩ := List.pairwise_cons.mp ordered
    intro piece member
    rcases List.mem_cons.mp member with rfl | later
    · dsimp only
      omega
    · have bounds := ih h.stop first.2.2 rest_ordered
        (fun x inside => ⟨after x inside,(forward x (by simp [inside])).2⟩) piece later
      omega

theorem pieces_avoid (last cursor : Nat) (hits : List (Hit L))
    (ordered : hits.Pairwise fun h h' => h.stop ≤ h'.start)
    (forward : ∀ h ∈ hits, cursor ≤ h.start ∧ h.start < h.stop ∧ h.stop ≤ last) :
    ∀ h ∈ hits, ∀ piece ∈ pieces last cursor hits, piece.2 ≤ h.start ∨ h.stop ≤ piece.1 := by
  induction hits generalizing cursor with
  | nil => simp
  | cons first rest ih =>
    obtain ⟨after,rest_ordered⟩ := List.pairwise_cons.mp ordered
    have lead := forward first (by simp)
    have tail : ∀ x ∈ rest, first.stop ≤ x.start ∧ x.start < x.stop ∧ x.stop ≤ last :=
      fun x inside => ⟨after x inside,(forward x (by simp [inside])).2⟩
    intro h member piece written
    rcases List.mem_cons.mp member with rfl | later
    · rcases List.mem_cons.mp written with rfl | behind
      · exact Or.inl (Nat.le_refl _)
      · exact Or.inr (pieces_inside last h.stop rest lead.2.2 rest_ordered tail piece behind).1
    · rcases List.mem_cons.mp written with rfl | behind
      · have low := after h later
        exact Or.inl (by dsimp only; omega)
      · exact ih first.stop rest_ordered tail h later piece behind

end GatewaySuite.Lib
