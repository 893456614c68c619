import GatewaySuite.Guardrail.Redactor

/-! `iter_matches` is a left-to-right scan whose decision at a position depends only on
the text around that position. The hold-back covers every position whose decision can
still change when more text arrives. -/
namespace GatewaySuite.Guardrail
open Lib Python
variable (u : Unicode)

theorem combinedAt_some {text : Str} {p stop : Nat} {label : Label}
    (found : combinedAt u text p = some (label,stop)) :
    ∃ pattern, (label,pattern) ∈ PATTERNS u ∧ pattern.Matches text p stop := by
  obtain ⟨⟨l,pattern⟩,member,head⟩ := List.exists_of_findSome?_eq_some found
  simp only [Option.map_eq_some_iff,Prod.mk.injEq] at head
  obtain ⟨e,first,rfl,rfl⟩ := head
  exact ⟨pattern,member,(Regex.mem_ends text pattern p e).mp (List.mem_of_head? first)⟩

theorem combinedAt_none {text : Str} {p : Nat} :
    combinedAt u text p = none ↔ ∀ x ∈ PATTERNS u, ∀ stop, ¬ x.2.Matches text p stop := by
  simp only [combinedAt,List.findSome?_eq_none_iff,Option.map_eq_none_iff,List.head?_eq_none_iff,
    Regex.ends_nil_iff]

theorem combinedAt_bounds {text : Str} {p stop : Nat} {label : Label}
    (found : combinedAt u text p = some (label,stop)) : p < stop ∧ stop ≤ text.length := by
  obtain ⟨pattern,member,matched⟩ := combinedAt_some u found
  have forward := matched.bounds
  have moved := patterns_move u member matched
  omega

/-- What `iter_matches` decides at a position: the combined pattern's match there, unless
it is a rejected card. -/
def acceptedAt (text : Str) (p : Nat) : Option (Label × Nat) :=
  match combinedAt u text p with
  | some (label,stop) => if isRejected u text ⟨p,stop,label⟩ then none else some (label,stop)
  | none => none

theorem acceptedAt_some {text : Str} {p stop : Nat} {label : Label} :
    acceptedAt u text p = some (label,stop) ↔
      combinedAt u text p = some (label,stop) ∧ isRejected u text ⟨p,stop,label⟩ = false := by
  unfold acceptedAt
  split
  next l e found =>
    split_ifs with turned
    · simp only [found,Option.some.injEq,Prod.mk.injEq,false_iff]
      rintro ⟨⟨rfl,rfl⟩,kept⟩
      simp [turned] at kept
    · simp only [found,Option.some.injEq,Prod.mk.injEq]
      constructor
      · rintro ⟨rfl,rfl⟩
        exact ⟨⟨rfl,rfl⟩,by simpa using turned⟩
      · exact fun both => both.1
  next nothing => simp [nothing]

def scanner (text : Str) : Scanner Label where
  top := text.length
  choose := acceptedAt u text
  advances := fun _ _ _ found => (combinedAt_bounds u ((acceptedAt_some u).mp found).1).1
  inside := fun _ _ _ found => (combinedAt_bounds u ((acceptedAt_some u).mp found).1).2

theorem combinedSearch_some {text : Str} {pos : Nat} {found : Match}
    (search : combinedSearch u text pos = some found) :
    pos ≤ found.start ∧ combinedAt u text found.start = some (found.label,found.stop) ∧
      ∀ i, pos ≤ i → i < found.start → combinedAt u text i = none := by
  unfold combinedSearch at search
  split_ifs at search
  simp only [Option.map_eq_some_iff] at search
  obtain ⟨⟨start,label,stop⟩,leftmost,rfl⟩ := search
  obtain ⟨low,_,here,before⟩ := Regex.leftmost_some leftmost
  exact ⟨low,here,before⟩

theorem combinedSearch_none {text : Str} {pos : Nat} (search : combinedSearch u text pos = none) :
    ∀ i, pos ≤ i → combinedAt u text i = none := by
  intro i low
  by_cases inside : i ≤ text.length
  · unfold combinedSearch at search
    rw [if_pos (low.trans inside)] at search
    exact Regex.leftmost_none (Option.map_eq_none_iff.mp search) i low (by omega)
  · cases found : combinedAt u text i with
    | none => rfl
    | some pair =>
      obtain ⟨label,stop⟩ := pair
      have bounds := combinedAt_bounds u found
      omega

private theorem iterLoop_eq (text : Str) (fuel pos : Nat) (enough : text.length+1-pos ≤ fuel) :
    iterLoop u text fuel pos = (scanner u text).hits pos := by
  induction fuel generalizing pos with
  | zero => simp [iterLoop,(scanner u text).hits_top (by simp only [scanner]; omega : _ ≤ pos)]
  | succ fuel ih =>
    simp only [iterLoop]
    split
    next search =>
      refine ((scanner u text).hits_nil fun i low => ?_).symm
      change acceptedAt u text i = none
      simp only [acceptedAt,combinedSearch_none u search i low]
    next found search =>
      obtain ⟨low,here,before⟩ := combinedSearch_some u search
      have bounds := combinedAt_bounds u here
      have skip : (scanner u text).hits pos = (scanner u text).hits found.start := by
        refine (scanner u text).hits_skip low (by simp only [scanner]; omega) fun i start stop => ?_
        change acceptedAt u text i = none
        simp only [acceptedAt,before i start stop]
      rw [skip]
      split_ifs with turned
      · have nothing : (scanner u text).choose found.start = none := by
          change acceptedAt u text found.start = none
          simp only [acceptedAt,here,turned,if_true]
        rw [(scanner u text).hits_none (by simp only [scanner]; omega) nothing]
        exact ih (found.start+1) (by omega)
      · have taken : (scanner u text).choose found.start = some (found.label,found.stop) :=
          (acceptedAt_some u).mpr ⟨here,by simpa using turned⟩
        rw [(scanner u text).hits_some taken,ih found.stop (by omega)]

theorem iterMatches_eq (text : Str) (start : Nat) :
    iterMatches u text start = (scanner u text).hits start :=
  iterLoop_eq u text _ start (by omega)

theorem taken_whole (text : Str) (start : Nat) :
    (scanner u text).taken start text.length = (scanner u text).hits start :=
  (scanner u text).taken_all start le_rfl

def recordAll (stats : RedactionStats) (found : List Match) : RedactionStats :=
  found.foldl (fun stats m => stats.record m.label) stats

theorem recordAll_redactions (stats : RedactionStats) (found : List Match) (label : Label) :
    (recordAll stats found).redactions label =
      stats.redactions label + (found.map Hit.label).count label := by
  induction found generalizing stats with
  | nil => simp [recordAll]
  | cons m rest ih =>
    change (recordAll (stats.record m.label) rest).redactions label = _
    rw [ih,List.map_cons,List.count_cons]
    by_cases same : label = m.label
    · subst label
      simp [RedactionStats.record]
      omega
    · have other : ¬ m.label = label := fun equal => same equal.symm
      simp [RedactionStats.record,Function.update_of_ne same,other]

theorem emitMatches_text (text : Str) (stop cursor : Nat) (placeholder : Str) (found : List Match)
    (stats : RedactionStats) :
    (emitMatches text stop placeholder cursor found stats).1 =
      splice text placeholder stop cursor found := by
  induction found generalizing cursor stats with
  | nil => rfl
  | cons m rest ih =>
    simp only [emitMatches,splice,gt_iff_lt]
    split_ifs
    · rfl
    · simp only [ih]

theorem emitMatches_stats (text : Str) (stop cursor : Nat) (placeholder : Str) (found : List Match)
    (stats : RedactionStats) :
    (emitMatches text stop placeholder cursor found stats).2 =
      recordAll stats (found.takeWhile (fun m => decide (m.stop ≤ stop))) := by
  induction found generalizing cursor stats with
  | nil => rfl
  | cons m rest ih =>
    by_cases longer : m.stop > stop
    · have outside : ¬ m.stop ≤ stop := by omega
      simp [emitMatches,longer,outside,recordAll]
    · have inside : m.stop ≤ stop := by omega
      simp only [emitMatches,longer,if_false,ih,List.takeWhile_cons,inside,decide_true,if_true]
      rfl

theorem pullBack_eq (text : Str) {offset split : Nat} (order : offset ≤ split) :
    pullBackBehindStraddlingMatch u text split offset (some (iterMatches u text offset)) =
      Scanner.pull split ((scanner u text).hits offset) := by
  have low := ((scanner u text).pull_spec order).1
  simp only [pullBackBehindStraddlingMatch,Option.getD_some,iterMatches_eq,Nat.max_eq_left low]

/-- `feed` hands the matches of its one scan to the guard and to the emitter. -/
theorem redactRange_scanned (text : Str) (start stop : Nat) (stats : RedactionStats)
    (placeholder : Str) :
    redactRange u text start stop stats placeholder (some (iterMatches u text start)) =
      redactRange u text start stop stats placeholder none := rfl

theorem redactRange_eq (text : Str) (start stop : Nat) (stats : RedactionStats) (placeholder : Str) :
    redactRange u text start stop stats placeholder none =
      (splice text placeholder stop start ((scanner u text).hits start),
        recordAll stats ((scanner u text).taken start stop)) := by
  apply Prod.ext
  · simp only [redactRange,emitMatches_text,Option.getD_none,iterMatches_eq]
  · simp only [redactRange,emitMatches_stats,Option.getD_none,iterMatches_eq,Scanner.taken]

theorem redactComplete_eq (text placeholder : Str) :
    redactComplete u text placeholder =
      splice text placeholder text.length 0 ((scanner u text).hits 0) := by
  simp only [redactComplete,redactCompleteStats,redactRange_eq]

theorem recordAll_append (stats : RedactionStats) (front back : List Match) :
    recordAll stats (front ++ back) = recordAll (recordAll stats front) back := List.foldl_append

/-- Emitting up to a cut that no match straddles and then from it is emitting all at once. -/
theorem redactRange_cut (text : Str) {offset cut stop : Nat} (order : offset ≤ cut) (fits : cut ≤ stop)
    (clean : (scanner u text).Clean offset cut) (stats : RedactionStats) (placeholder : Str) :
    redactRange u text offset stop stats placeholder none =
      let (front,recorded) := redactRange u text offset cut stats placeholder none
      let (back,all) := redactRange u text cut stop recorded placeholder none
      (front ++ back,all) := by
  simp only [redactRange_eq]
  rw [splice_cut (scanner u text) text placeholder (Nat.le_refl offset) order fits clean,
    (scanner u text).taken_append order fits clean,recordAll_append]

/-- The guarded split keeps to its range and cuts no match; the scan restarted there goes on with
the matches behind it, and the two halves are emitted as the whole. -/
theorem guarded_cut_invisible (text : Str) {offset split : Nat} (order : offset ≤ split)
    (inside : split ≤ text.length) (stats : RedactionStats) (placeholder : Str) :
    let cut := pullBackBehindStraddlingMatch u text split offset none
    (offset ≤ cut ∧ cut ≤ split) ∧
      (∀ found ∈ iterMatches u text offset, ¬found.Straddles cut) ∧
      iterMatches u text cut = (iterMatches u text offset).filter (fun found => cut ≤ found.start) ∧
      redactRange u text offset text.length stats placeholder none =
        let (front,recorded) := redactRange u text offset cut stats placeholder none
        let (back,all) := redactRange u text cut text.length recorded placeholder none
        (front ++ back,all) := by
  have place : pullBackBehindStraddlingMatch u text split offset none =
      Scanner.pull split ((scanner u text).hits offset) :=
    pullBack_eq u text order
  obtain ⟨low,high,clean⟩ := (scanner u text).pull_spec order
  rw [← place] at low high clean
  intro cut
  refine ⟨⟨low,high⟩,?_,?_,?_⟩
  · rw [iterMatches_eq]
    exact clean
  · rw [iterMatches_eq,iterMatches_eq]
    exact (scanner u text).hits_restart low clean
  · exact redactRange_cut u text low (high.trans inside) clean stats placeholder

/-- The split is inside of the number and moves in front of it. -/
theorem guarded_cut_invisible_phone :
    pullBackBehindStraddlingMatch asciiUnicode (lit "Call (555) 123-4567.") 9 0 none = 5 ∧
      iterMatches asciiUnicode (lit "Call (555) 123-4567.") 5 = [⟨5,19,.PHONE⟩] ∧
      (redactRange asciiUnicode (lit "Call (555) 123-4567.") 0 20 .zero DEFAULT_PLACEHOLDER none).1 =
        lit "Call " ++ lit "[REDACTED]." := by
  have invisible := guarded_cut_invisible asciiUnicode (lit "Call (555) 123-4567.")
    (by decide : 0 ≤ 9) (by decide) .zero DEFAULT_PLACEHOLDER
  have cut : pullBackBehindStraddlingMatch asciiUnicode (lit "Call (555) 123-4567.") 9 0 none = 5 := by
    decide +kernel
  have whole : iterMatches asciiUnicode (lit "Call (555) 123-4567.") 0 = [⟨5,19,.PHONE⟩] := by
    decide +kernel
  have front : (redactRange asciiUnicode (lit "Call (555) 123-4567.") 0 5 .zero
      DEFAULT_PLACEHOLDER none).1 = lit "Call " := by
    decide +kernel
  have back (stats : RedactionStats) : (redactRange asciiUnicode (lit "Call (555) 123-4567.") 5 20
      stats DEFAULT_PLACEHOLDER none).1 = lit "[REDACTED]." := by
    rw [redactRange,emitMatches_text]
    decide +kernel
  rw [cut] at invisible
  obtain ⟨_,_,restarted,emitted⟩ := invisible
  refine ⟨cut,restarted.trans (by rw [whole]; rfl),?_⟩
  exact (congrArg Prod.fst emitted).trans (congrArg₂ (· ++ ·) front (back _))

end GatewaySuite.Guardrail
