import Mathlib.Data.List.Basic
import Mathlib.Data.List.TakeWhile
import Mathlib.Data.Nat.Basic
import Mathlib.Order.Basic
import Mathlib.Tactic.Common

/-! Leftmost, non-overlapping scanning. A scanner decides at each position whether a
span starts there; a scan visits positions from left to right and jumps over the spans
it takes. The results say when a scan may be cut at a position, restarted there, or
compared with the scan of another text. -/
namespace GatewaySuite.Lib

structure Hit (L : Type) where
  start : Nat
  stop : Nat
  label : L
deriving DecidableEq, Repr

namespace Hit
variable {L : Type}

def shift (d : Nat) (h : Hit L) : Hit L := ⟨d+h.start,d+h.stop,h.label⟩

/-- The span reaches over the position, so cutting there would tear it. -/
def Straddles (h : Hit L) (cut : Nat) : Prop := h.start < cut ∧ cut < h.stop

end Hit

structure Scanner (L : Type) where
  top : Nat
  choose : Nat → Option (L × Nat)
  advances : ∀ p l e, choose p = some (l,e) → p < e
  inside : ∀ p l e, choose p = some (l,e) → e ≤ top

namespace Scanner
variable {L : Type}

def hits (s : Scanner L) (p : Nat) : List (Hit L) :=
  if _below : p < s.top then
    match found : s.choose p with
    | some (label,stop) => ⟨p,stop,label⟩ :: s.hits stop
    | none => s.hits (p+1)
  else []
termination_by s.top - p
decreasing_by
  · have forward := s.advances p label stop found
    omega
  · omega

theorem hits_some (s : Scanner L) {p stop : Nat} {label : L} (found : s.choose p = some (label,stop)) :
    s.hits p = ⟨p,stop,label⟩ :: s.hits stop := by
  have forward := s.advances p label stop found
  have within := s.inside p label stop found
  have below : p < s.top := by omega
  rw [hits]
  simp only [below,dif_pos]
  split
  next label' stop' other =>
    rw [found] at other
    cases other
    rfl
  next other => simp [found] at other

theorem hits_none (s : Scanner L) {p : Nat} (below : p < s.top) (nothing : s.choose p = none) :
    s.hits p = s.hits (p+1) := by
  conv_lhs => rw [hits]
  simp only [below,dif_pos]
  split
  next label stop other => simp [nothing] at other
  next => rfl

theorem hits_top (s : Scanner L) {p : Nat} (above : s.top ≤ p) : s.hits p = [] := by
  rw [hits]
  simp [Nat.not_lt.mpr above]

theorem scan_induction (s : Scanner L) {motive : Nat → Prop}
    (past : ∀ p, s.top ≤ p → motive p)
    (taken : ∀ p label stop, s.choose p = some (label,stop) → p < stop → stop ≤ s.top →
      motive stop → motive p)
    (skipped : ∀ p, p < s.top → s.choose p = none → motive (p+1) → motive p) (p : Nat) :
    motive p := by
  induction room : s.top - p using Nat.strongRecOn generalizing p with
  | _ n ih =>
    by_cases below : p < s.top
    · cases found : s.choose p with
      | none => exact skipped p below found (ih (s.top-(p+1)) (by omega) (p+1) rfl)
      | some pair =>
        obtain ⟨label,stop⟩ := pair
        have forward := s.advances p label stop found
        have within := s.inside p label stop found
        exact taken p label stop found forward within (ih (s.top-stop) (by omega) stop rfl)
    · exact past p (by omega)

theorem hits_skip (s : Scanner L) {p q : Nat} (order : p ≤ q) (fits : q ≤ s.top)
    (nothing : ∀ i, p ≤ i → i < q → s.choose i = none) : s.hits p = s.hits q := by
  induction gap : q-p generalizing p with
  | zero =>
    have here : p = q := by omega
    rw [here]
  | succ n ih =>
    rw [s.hits_none (by omega) (nothing p le_rfl (by omega))]
    exact ih (by omega) (fun i low high => nothing i (by omega) high) (by omega)

theorem hits_nil (s : Scanner L) {p : Nat} (nothing : ∀ i, p ≤ i → s.choose i = none) :
    s.hits p = [] := by
  by_cases above : s.top ≤ p
  · exact s.hits_top above
  · rw [s.hits_skip (by omega) le_rfl (fun i low _ => nothing i low)]
    exact s.hits_top le_rfl

theorem hit_bounds (s : Scanner L) (p : Nat) : ∀ h ∈ s.hits p,
    p ≤ h.start ∧ h.start < h.stop ∧ h.stop ≤ s.top ∧ s.choose h.start = some (h.label,h.stop) := by
  induction p using s.scan_induction with
  | past p above => simp [s.hits_top above]
  | taken p label stop found forward within ih =>
    intro h member
    rw [s.hits_some found] at member
    rcases List.mem_cons.mp member with rfl | later
    · exact ⟨le_rfl,forward,within,found⟩
    · have bounds := ih h later
      exact ⟨by omega,bounds.2⟩
  | skipped p below nothing ih =>
    intro h member
    rw [s.hits_none below nothing] at member
    have bounds := ih h member
    exact ⟨by omega,bounds.2⟩

theorem hits_ordered (s : Scanner L) (p : Nat) :
    (s.hits p).Pairwise fun h h' => h.stop ≤ h'.start := by
  induction p using s.scan_induction with
  | past p above => simp [s.hits_top above]
  | taken p label stop found forward within ih =>
    rw [s.hits_some found]
    exact List.pairwise_cons.mpr ⟨fun h member => (s.hit_bounds stop h member).1,ih⟩
  | skipped p below nothing ih => rwa [s.hits_none below nothing]

def Clean (s : Scanner L) (p cut : Nat) : Prop := ∀ h ∈ s.hits p, ¬ h.Straddles cut

theorem clean_self (s : Scanner L) (p : Nat) : s.Clean p p := by
  intro h member torn
  have low := (s.hit_bounds p h member).1
  exact absurd torn.1 (by omega)

theorem clean_some (s : Scanner L) {p stop cut : Nat} {label : L}
    (found : s.choose p = some (label,stop)) :
    s.Clean p cut ↔ ¬ (p < cut ∧ cut < stop) ∧ s.Clean stop cut := by
  simp only [Clean,s.hits_some found,List.mem_cons,forall_eq_or_imp,Hit.Straddles]

theorem clean_none (s : Scanner L) {p cut : Nat} (below : p < s.top) (nothing : s.choose p = none) :
    s.Clean p cut ↔ s.Clean (p+1) cut := by
  simp only [Clean,s.hits_none below nothing]

def taken (s : Scanner L) (p cut : Nat) : List (Hit L) :=
  (s.hits p).takeWhile (fun h => decide (h.stop ≤ cut))

theorem taken_self (s : Scanner L) (p : Nat) : s.taken p p = [] := by
  unfold taken
  cases shape : s.hits p with
  | nil => rfl
  | cons h rest =>
    have bounds := s.hit_bounds p h (by simp [shape])
    have longer : ¬ h.stop ≤ p := by omega
    simp [longer]

theorem taken_some (s : Scanner L) {p stop cut : Nat} {label : L}
    (found : s.choose p = some (label,stop)) (short : stop ≤ cut) :
    s.taken p cut = ⟨p,stop,label⟩ :: s.taken stop cut := by
  simp [taken,s.hits_some found,short]

theorem taken_none (s : Scanner L) {p cut : Nat} (below : p < s.top) (nothing : s.choose p = none) :
    s.taken p cut = s.taken (p+1) cut := by
  simp only [taken,s.hits_none below nothing]

theorem taken_all (s : Scanner L) (p : Nat) {cut : Nat} (fits : s.top ≤ cut) :
    s.taken p cut = s.hits p := by
  rw [taken,List.takeWhile_eq_self_iff]
  intro h member
  exact decide_eq_true ((s.hit_bounds p h member).2.2.1.trans fits)

/-- A scan can be restarted at every position it does not jump over. -/
theorem hits_cut (s : Scanner L) {p cut : Nat} (order : p ≤ cut) (clean : s.Clean p cut) :
    s.hits p = s.taken p cut ++ s.hits cut := by
  induction p using s.scan_induction with
  | past p above => simp [taken,s.hits_top above,s.hits_top (above.trans order)]
  | taken p label stop found forward within ih =>
    obtain ⟨whole,rest⟩ := (s.clean_some found).mp clean
    by_cases same : p = cut
    · subst p
      simp [s.taken_self]
    · have short : stop ≤ cut := by omega
      rw [s.taken_some found short,List.cons_append,← ih short rest,s.hits_some found]
  | skipped p below nothing ih =>
    by_cases same : p = cut
    · subst p
      simp [s.taken_self]
    · rw [s.taken_none below nothing,← ih (by omega) ((s.clean_none below nothing).mp clean),
        s.hits_none below nothing]

theorem taken_stop (s : Scanner L) (p cut : Nat) : ∀ h ∈ s.taken p cut, h.stop ≤ cut := by
  intro h member
  simpa using List.mem_takeWhile_imp member

theorem hits_restart (s : Scanner L) {p cut : Nat} (order : p ≤ cut) (clean : s.Clean p cut) :
    s.hits cut = (s.hits p).filter (fun h => decide (cut ≤ h.start)) := by
  have before : (s.taken p cut).filter (fun h => decide (cut ≤ h.start)) = [] := by
    rw [List.filter_eq_nil_iff]
    intro h member
    have forward := (s.hit_bounds p h ((List.takeWhile_sublist _).subset member)).2.1
    have short := s.taken_stop p cut h member
    rw [decide_eq_true_eq]
    omega
  have behind : (s.hits cut).filter (fun h => decide (cut ≤ h.start)) = s.hits cut := by
    rw [List.filter_eq_self]
    intro h member
    exact decide_eq_true (s.hit_bounds cut h member).1
  rw [s.hits_cut order clean,List.filter_append,before,behind,List.nil_append]

theorem clean_trans (s : Scanner L) {p m cut : Nat} (low : p ≤ m) (high : m ≤ cut)
    (first : s.Clean p m) (second : s.Clean m cut) : s.Clean p cut := by
  intro h member torn
  rw [s.hits_cut low first] at member
  rcases List.mem_append.mp member with early | late
  · have short := s.taken_stop p m h early
    exact absurd torn.2 (by omega)
  · exact second h late torn

theorem taken_append (s : Scanner L) {p m cut : Nat} (low : p ≤ m) (high : m ≤ cut)
    (first : s.Clean p m) : s.taken p cut = s.taken p m ++ s.taken m cut := by
  conv_lhs => rw [taken,s.hits_cut low first]
  rw [List.takeWhile_append_of_pos]
  · rfl
  · intro h member
    have short := s.taken_stop p m h member
    simpa using short.trans high

/-- Two scanners that decide alike below a cut take the same spans below it, and one
tears no span there if the other does not. -/
theorem taken_congr (s s' : Scanner L) {p cut : Nat} (order : p ≤ cut) (fits : cut ≤ s.top)
    (fits' : cut ≤ s'.top) (same : ∀ q, p ≤ q → q < cut → s.choose q = s'.choose q)
    (clean : s.Clean p cut) : s'.Clean p cut ∧ s'.taken p cut = s.taken p cut := by
  induction p using s.scan_induction with
  | past p above =>
    have here : p = cut := by omega
    subst p
    exact ⟨s'.clean_self cut,by simp only [taken_self]⟩
  | taken p label stop found forward within ih =>
    by_cases here : p = cut
    · subst p
      exact ⟨s'.clean_self cut,by simp only [taken_self]⟩
    · obtain ⟨whole,rest⟩ := (s.clean_some found).mp clean
      have short : stop ≤ cut := by omega
      have found' : s'.choose p = some (label,stop) := by
        rw [← same p le_rfl (by omega),found]
      obtain ⟨cleanRest,takenRest⟩ := ih short (fun q low high => same q (by omega) high) rest
      exact ⟨(s'.clean_some found').mpr ⟨by omega,cleanRest⟩,
        by rw [s.taken_some found short,s'.taken_some found' short,takenRest]⟩
  | skipped p below nothing ih =>
    by_cases here : p = cut
    · subst p
      exact ⟨s'.clean_self cut,by simp only [taken_self]⟩
    · have nothing' : s'.choose p = none := by
        rw [← same p le_rfl (by omega),nothing]
      have below' : p < s'.top := by omega
      obtain ⟨cleanRest,takenRest⟩ := ih (by omega) (fun q low high => same q (by omega) high)
        ((s.clean_none below nothing).mp clean)
      exact ⟨(s'.clean_none below' nothing').mpr cleanRest,
        by rw [s.taken_none below nothing,s'.taken_none below' nothing',takenRest]⟩

theorem hits_shift (s s' : Scanner L) {d p : Nat} (size : s'.top = d+s.top)
    (same : ∀ q, p ≤ q → s'.choose (d+q) = (s.choose q).map (fun found => (found.1,d+found.2))) :
    s'.hits (d+p) = (s.hits p).map (Hit.shift d) := by
  induction p using s.scan_induction with
  | past p above => simp [s.hits_top above,s'.hits_top (by omega : s'.top ≤ d+p)]
  | taken p label stop found forward within ih =>
    have found' : s'.choose (d+p) = some (label,d+stop) := by simp [same p le_rfl,found]
    rw [s.hits_some found,s'.hits_some found',ih (fun q low => same q (by omega))]
    rfl
  | skipped p below nothing ih =>
    have nothing' : s'.choose (d+p) = none := by simp [same p le_rfl,nothing]
    rw [s.hits_none below nothing,s'.hits_none (by omega) nothing']
    exact ih (fun q low => same q (by omega))

theorem clean_shift (s s' : Scanner L) {d p cut : Nat}
    (same : s'.hits (d+p) = (s.hits p).map (Hit.shift d)) (clean : s.Clean p cut) :
    s'.Clean (d+p) (d+cut) := by
  intro h member torn
  rw [same] at member
  obtain ⟨old,inside,rfl⟩ := List.mem_map.mp member
  apply clean old inside
  simp only [Hit.Straddles,Hit.shift] at torn
  constructor <;> omega

theorem taken_shift (s s' : Scanner L) {d p : Nat} (cut : Nat)
    (same : s'.hits (d+p) = (s.hits p).map (Hit.shift d)) :
    s'.taken (d+p) (d+cut) = (s.taken p cut).map (Hit.shift d) := by
  simp only [taken,same,List.takeWhile_map,Function.comp_def,Hit.shift,Nat.add_le_add_iff_left]

/-- Moving a cut back to the start of every span it would tear. -/
def pull (split : Nat) (hits : List (Hit L)) : Nat :=
  hits.foldl (fun cut h => if h.start < cut ∧ cut < h.stop then h.start else cut) split

theorem pull_shift (d split : Nat) (hits : List (Hit L)) :
    pull (d+split) (hits.map (Hit.shift d)) = d+pull split hits := by
  induction hits generalizing split with
  | nil => rfl
  | cons h rest ih =>
    simp only [pull,List.map_cons,List.foldl_cons,Hit.shift,Nat.add_lt_add_iff_left] at ih ⊢
    split_ifs
    · exact ih h.start
    · exact ih split

private theorem pull_before (hits : List (Hit L)) (cut : Nat) (after : ∀ h ∈ hits, cut ≤ h.start) :
    pull cut hits = cut := by
  induction hits with
  | nil => rfl
  | cons h rest ih =>
    have late := after h (by simp)
    have kept : ¬ (h.start < cut ∧ cut < h.stop) := by omega
    simp only [pull,List.foldl_cons,kept,if_false]
    exact ih (fun x member => after x (by simp [member]))

theorem pull_spec (s : Scanner L) {p split : Nat} (order : p ≤ split) :
    p ≤ pull split (s.hits p) ∧ pull split (s.hits p) ≤ split ∧
      s.Clean p (pull split (s.hits p)) := by
  induction p using s.scan_induction with
  | past p above => simp [s.hits_top above,pull,order,Clean]
  | taken p label stop found forward within ih =>
    have later (cut : Nat) (low : cut ≤ stop) : ∀ h ∈ s.hits stop, cut ≤ h.start :=
      fun h member => low.trans (s.hit_bounds stop h member).1
    simp only [s.hits_some found,pull,List.foldl_cons]
    split_ifs with torn
    · have fixed := pull_before (s.hits stop) p (later p (by omega))
      simp only [pull] at fixed
      rw [fixed]
      exact ⟨le_rfl,order,s.clean_self p⟩
    · by_cases short : stop ≤ split
      · obtain ⟨low,high,clean⟩ := ih short
        exact ⟨forward.le.trans low,high,(s.clean_some found).mpr
          ⟨fun torn => absurd low (by simp only [pull] at torn ⊢; omega),clean⟩⟩
      · have here : p = split := by omega
        subst p
        have fixed := pull_before (s.hits stop) split (later split (by omega))
        simp only [pull] at fixed
        rw [fixed]
        exact ⟨le_rfl,le_rfl,s.clean_self split⟩
  | skipped p below nothing ih =>
    by_cases here : p = split
    · subst p
      have fixed := pull_before (s.hits split) split (fun h member => (s.hit_bounds split h member).1)
      rw [fixed]
      exact ⟨le_rfl,le_rfl,s.clean_self split⟩
    · obtain ⟨low,high,clean⟩ := ih (by omega)
      rw [s.hits_none below nothing]
      exact ⟨by omega,high,(s.clean_none below nothing).mpr clean⟩

/-- A cut moves for one torn span only: the hits after it start behind it. -/
theorem pull_moved (s : Scanner L) {p split : Nat} (order : p ≤ split) :
    pull split (s.hits p) = split ∨
      ∃ h ∈ s.hits p, h.Straddles split ∧ pull split (s.hits p) = h.start := by
  induction p using s.scan_induction with
  | past p above => exact Or.inl (by simp [s.hits_top above,pull])
  | taken p label stop found forward within ih =>
    have later (cut : Nat) (low : cut ≤ stop) : ∀ h ∈ s.hits stop, cut ≤ h.start :=
      fun h member => low.trans (s.hit_bounds stop h member).1
    rw [s.hits_some found]
    simp only [pull,List.foldl_cons]
    split_ifs with torn
    · exact Or.inr ⟨⟨p,stop,label⟩,List.mem_cons_self,torn,
        pull_before (s.hits stop) p (later p (by omega))⟩
    · by_cases short : stop ≤ split
      · obtain same | ⟨h,member,tears,moved⟩ := ih short
        · exact Or.inl same
        · exact Or.inr ⟨h,List.mem_cons_of_mem _ member,tears,moved⟩
      · exact Or.inl (pull_before (s.hits stop) split (later split (by omega)))
  | skipped p below nothing ih =>
    rw [s.hits_none below nothing]
    by_cases here : p = split
    · subst p
      have after : ∀ h ∈ s.hits (split+1), split ≤ h.start := by
        intro h member
        have low := (s.hit_bounds (split+1) h member).1
        omega
      exact Or.inl (pull_before _ split after)
    · obtain same | ⟨h,member,tears,moved⟩ := ih (by omega)
      · exact Or.inl same
      · exact Or.inr ⟨h,member,tears,moved⟩

/-- The positions a scan from `start` stops at. -/
inductive Visits (s : Scanner L) (start : Nat) : Nat → Prop
  | start : Visits s start start
  | skip {p} (seen : Visits s start p) (below : p < s.top) (nothing : s.choose p = none) :
      Visits s start (p+1)
  | jump {p label stop} (seen : Visits s start p) (found : s.choose p = some (label,stop)) :
      Visits s start stop

theorem Visits.hits_sub {s : Scanner L} {start p : Nat} (seen : s.Visits start p) :
    ∀ h ∈ s.hits p, h ∈ s.hits start := by
  induction seen with
  | start => exact fun h member => member
  | skip seen below nothing ih =>
    intro h member
    exact ih h (by rwa [s.hits_none below nothing])
  | jump seen found ih =>
    intro h member
    exact ih h (by rw [s.hits_some found]; exact List.mem_cons_of_mem _ member)

theorem mem_hits_iff (s : Scanner L) (start : Nat) (h : Hit L) :
    h ∈ s.hits start ↔ s.Visits start h.start ∧ s.choose h.start = some (h.label,h.stop) := by
  constructor
  · suffices general : ∀ p, s.Visits start p → h ∈ s.hits p →
        s.Visits start h.start ∧ s.choose h.start = some (h.label,h.stop) from
      general start .start
    intro p
    induction p using s.scan_induction with
    | past p above =>
      intro _ member
      simp [s.hits_top above] at member
    | taken p label stop found forward within ih =>
      intro seen member
      rw [s.hits_some found] at member
      rcases List.mem_cons.mp member with rfl | later
      · exact ⟨seen,found⟩
      · exact ih (seen.jump found) later
    | skipped p below nothing ih =>
      intro seen member
      exact ih (seen.skip below nothing) (by rwa [← s.hits_none below nothing])
  · rintro ⟨seen,found⟩
    apply seen.hits_sub
    rw [s.hits_some found]
    simp

theorem visited_or_covered (s : Scanner L) {start p : Nat} (low : start ≤ p) (high : p ≤ s.top) :
    s.Visits start p ∨ ∃ h ∈ s.hits start, h.Straddles p := by
  suffices general : ∀ from', s.Visits start from' → from' ≤ p →
      s.Visits start p ∨ ∃ h ∈ s.hits start, h.Straddles p from general start .start low
  intro q
  induction q using s.scan_induction with
  | past q above =>
    intro seen order
    have here : q = p := by omega
    exact Or.inl (here ▸ seen)
  | taken q label stop found forward within ih =>
    intro seen order
    by_cases here : q = p
    · exact Or.inl (here ▸ seen)
    · by_cases short : stop ≤ p
      · exact ih (seen.jump found) short
      · exact Or.inr ⟨⟨q,stop,label⟩,(s.mem_hits_iff start _).mpr ⟨seen,found⟩,by
          constructor <;> dsimp only <;> omega⟩
  | skipped q below nothing ih =>
    intro seen order
    by_cases here : q = p
    · exact Or.inl (here ▸ seen)
    · exact ih (seen.skip below nothing) (by omega)

theorem Visits.clean {s : Scanner L} {start p : Nat} (seen : s.Visits start p) :
    start ≤ p ∧ s.Clean start p := by
  induction seen with
  | start => exact ⟨le_rfl,s.clean_self start⟩
  | @skip p seen below nothing ih =>
    have step : s.Clean p (p+1) := (s.clean_none below nothing).mpr (s.clean_self (p+1))
    exact ⟨by omega,s.clean_trans ih.1 (by omega) ih.2 step⟩
  | @jump p label stop seen found ih =>
    have forward := s.advances p label stop found
    have step : s.Clean p stop := (s.clean_some found).mpr ⟨by omega,s.clean_self stop⟩
    exact ⟨by omega,s.clean_trans ih.1 (by omega) ih.2 step⟩

end Scanner
end GatewaySuite.Lib
