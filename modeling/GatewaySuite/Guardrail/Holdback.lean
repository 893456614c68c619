import GatewaySuite.Guardrail.Scanning

/-! What the hold-back withholds. A suffix that an attempt of some pattern has read to the
end of the buffer is withheld, so decisions at positions before the hold-back are final. -/
namespace GatewaySuite.Guardrail
open Lib Python
variable (u : Unicode)

private theorem tail_token {t : Str} {p : Nat} (below : p < t.length)
    (spelled : Regex.Spelled t tokenChar tokenChar p t.length) :
    TAIL_TOKEN.Matches t p t.length := by
  have chars (i : Nat) (low : p ≤ i) (high : i < t.length) : Regex.holds t tokenChar i = true := by
    simpa only [ite_self] using spelled.2 i low high
  exact ⟨t.length,⟨p+1,⟨rfl,chars p (Nat.le_refl p) below⟩,by omega,
    fun i low high => chars i (by omega) high⟩,rfl,rfl⟩

private theorem tail_digits {t : Str} {p : Nat} (below : p < t.length)
    (spelled : Regex.Spelled t (numberStart u) (numberChar u) p t.length) :
    (TAIL_DIGITS u).Matches t p t.length := by
  have head : Regex.holds t (numberStart u) p = true := by
    simpa using spelled.2 p (Nat.le_refl p) below
  have tail : (Regex.run (numberChar u)).Matches t (p+1) t.length := by
    refine ⟨by omega,fun i low high => ?_⟩
    have past : i ≠ p := by omega
    simpa only [past,if_false] using spelled.2 i (by omega) high
  refine ⟨t.length,?_,rfl,rfl⟩
  unfold Regex.holds at head
  cases here : t[p]? with
  | none => simp [here] at head
  | some c =>
    simp only [here,Option.any_some,numberStart,Bool.or_eq_true] at head
    rcases head with opening | digital
    · exact Or.inl ⟨p+1,⟨rfl,by simp [Regex.holds,here,opening]⟩,tail⟩
    · exact Or.inr ⟨p+1,⟨rfl,by simp [Regex.holds,here,digital]⟩,tail⟩

private theorem anchored_length {t : Str} {body : Regex CodePoint} {p : Nat} (below : p < t.length)
    (matched : (Regex.seq body .eos).Matches t p t.length) :
    t.length-p ≤ groupLength ((Regex.seq body .eos).search t 0) := by
  obtain ⟨start,stop,found,early⟩ := Regex.search_le (Nat.zero_le p) (by omega) matched
  obtain ⟨_,_,m,_,last,finish⟩ := Regex.search_some found
  rw [found]
  simp only [groupLength]
  omega

private theorem groupLength_le {t : Str} {r : Regex CodePoint} :
    groupLength (r.search t 0) ≤ t.length := by
  cases found : r.search t 0 with
  | none => simp [groupLength]
  | some pair =>
    obtain ⟨start,stop⟩ := pair
    obtain ⟨_,inside,matched⟩ := Regex.search_some found
    have bounds := matched.bounds
    simp only [groupLength]
    omega

theorem holdback_le (buffer : Str) (maxHoldback : Nat) :
    holdback u buffer maxHoldback ≤ buffer.length := by
  unfold holdback
  split_ifs with empty
  · exact Nat.zero_le _
  · have window := (lastChars_suffix maxHoldback buffer).length_le
    have token := groupLength_le (t := lastChars maxHoldback buffer) (r := TAIL_TOKEN)
    have digits := groupLength_le (t := lastChars maxHoldback buffer) (r := TAIL_DIGITS u)
    simp only
    omega

theorem holdback_covers {buffer : Str} {maxHoldback p : Nat} (below : p < buffer.length)
    (fits : buffer.length-p ≤ maxHoldback)
    (spelled : Regex.Spelled buffer tokenChar tokenChar p buffer.length ∨
      Regex.Spelled buffer (numberStart u) (numberChar u) p buffer.length) :
    buffer.length-p ≤ holdback u buffer maxHoldback := by
  have positive : maxHoldback ≠ 0 := by omega
  have full : buffer ≠ [] := by
    intro empty
    simp [empty] at below
  let k := buffer.length-maxHoldback
  have window : lastChars maxHoldback buffer = buffer.drop k := by
    simp only [lastChars,positive,if_false,k]
  have size : (buffer.drop k).length = buffer.length-k := List.length_drop
  have low : k ≤ p := by omega
  have inside : p-k < (buffer.drop k).length := by omega
  have longest : buffer.length-p ≤ max (groupLength (TAIL_TOKEN.search (buffer.drop k) 0))
      (groupLength ((TAIL_DIGITS u).search (buffer.drop k) 0)) := by
    rcases spelled with token | number
    · have dropped := token.drop low
      rw [← size] at dropped
      have long := anchored_length inside (tail_token inside dropped)
      have same : (buffer.drop k).length-(p-k) = buffer.length-p := by omega
      rw [same] at long
      exact long.trans (le_max_left _ _)
    · have dropped := number.drop low
      rw [← size] at dropped
      have long := anchored_length inside (tail_digits u inside dropped)
      have same : (buffer.drop k).length-(p-k) = buffer.length-p := by omega
      rw [same] at long
      exact long.trans (le_max_right _ _)
  unfold holdback
  simp only [full,if_false,window]
  omega

theorem patterns_spelled {x : Label × Regex CodePoint} (member : x ∈ PATTERNS u) {t : Str}
    {p q : Nat} (spelled : Regex.Spelled t x.2.first x.2.follow p q) :
    Regex.Spelled t tokenChar tokenChar p q ∨
      Regex.Spelled t (numberStart u) (numberChar u) p q := by
  rcases patterns_covered u x member with token | number
  · exact Or.inl (spelled.mono (fun c => (token c).1) (fun c => (token c).2))
  · exact Or.inr (spelled.mono (fun c => (number c).1) (fun c => (number c).2))

/-- No attempt that starts before the withheld suffix has read the end of the text. -/
theorem blind_before_holdback {text : Str} {offset q : Nat} (low : offset ≤ q)
    (early : q < text.length-holdback u (text.drop offset) MAX_HOLDBACK) :
    ∀ x ∈ PATTERNS u, ¬ x.2.Reads text text.length q := by
  intro x member reads
  have short := reads.width (patterns_bounded u x member)
  have bound := patterns_width u x member
  have size : (text.drop offset).length = text.length-offset := List.length_drop
  have held : (text.drop offset).length-(q-offset) ≤ holdback u (text.drop offset) MAX_HOLDBACK := by
    apply holdback_covers u (by omega) (by simp only [MAX_HOLDBACK]; omega)
    rw [size]
    exact (patterns_spelled u member reads.spelled).imp (fun token => token.drop low)
      fun number => number.drop low
  omega

theorem findSome_congr {A B : Type} {f g : A → Option B} (xs : List A)
    (same : ∀ x ∈ xs, f x = g x) : xs.findSome? f = xs.findSome? g := by
  induction xs with
  | nil => rfl
  | cons x xs ih =>
    rw [List.findSome?_cons,List.findSome?_cons,same x (by simp),
      ih (fun y member => same y (by simp [member]))]

private theorem combinedAt_append (w rest : Str) (q : Nat) (inside : q ≤ w.length)
    (blind : ∀ x ∈ PATTERNS u, ¬ x.2.Reads w w.length q) :
    combinedAt u (w++rest) q = combinedAt u w q := by
  unfold combinedAt
  refine findSome_congr (PATTERNS u) fun x member => ?_
  simp only [Regex.ends_append w rest x.2 q inside (blind x member)]

theorem acceptedAt_left (w rest : Str) (q : Nat) (same : combinedAt u (w++rest) q = combinedAt u w q) :
    acceptedAt u (w++rest) q = acceptedAt u w q := by
  unfold acceptedAt
  rw [same]
  cases found : combinedAt u w q with
  | none => rfl
  | some pair =>
    obtain ⟨label,stop⟩ := pair
    have bounds := combinedAt_bounds u found
    have kept : isRejected u (w++rest) ⟨q,stop,label⟩ = isRejected u w ⟨q,stop,label⟩ := by
      simp only [isRejected,slice_left w rest bounds.2]
    simp only [kept]

theorem acceptedAt_append (w rest : Str) (q : Nat) (inside : q ≤ w.length)
    (blind : ∀ x ∈ PATTERNS u, ¬ x.2.Reads w w.length q) :
    acceptedAt u (w++rest) q = acceptedAt u w q :=
  acceptedAt_left u w rest q (combinedAt_append u w rest q inside blind)

theorem acceptedAt_shift (d w : Str) (q : Nat) (seen : 0 < q ∨ d = []) :
    acceptedAt u (d++w) (d.length+q) =
      (acceptedAt u w q).map (fun found => (found.1,d.length+found.2)) := by
  have same : combinedAt u (d++w) (d.length+q) =
      (combinedAt u w q).map (fun found => (found.1,d.length+found.2)) := by
    unfold combinedAt
    rw [List.map_findSome?]
    congr 1
    ext x
    simp only [Function.comp_apply,Regex.ends_shift d w x.2 q seen,List.head?_map,Option.map_map]
    rfl
  unfold acceptedAt
  rw [same]
  cases found : combinedAt u w q with
  | none => rfl
  | some pair =>
    obtain ⟨label,stop⟩ := pair
    have kept : isRejected u (d++w) ⟨d.length+q,d.length+stop,label⟩ =
        isRejected u w ⟨q,stop,label⟩ := by
      simp only [isRejected,slice_shift]
    simp only [Option.map_some,kept]
    cases isRejected u w ⟨q,stop,label⟩ <;> rfl

end GatewaySuite.Guardrail
