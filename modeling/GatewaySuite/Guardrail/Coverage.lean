import GatewaySuite.Guardrail.Scanning

/-! What a rejected card candidate hides. The scan gives up a position whose first
alternative is a card that fails the Luhn check, with every shorter card and every later
pattern there; the span is then found only if a match starts further inside it. -/
namespace GatewaySuite.Guardrail
open Lib Python
variable (u : Unicode)

/-- The span is PII: a pattern can match exactly it, and a card passes its check. -/
def PiiSpan (text : Str) (i j : Nat) : Prop :=
  ∃ label pattern, (label,pattern) ∈ PATTERNS u ∧ pattern.Matches text i j ∧
    (label = .CREDIT_CARD → isCard u (slice text i j) = true)

def Overlaps (found : Match) (i j : Nat) : Prop := found.start < j ∧ i < found.stop

/-- Where `redact_complete` copies the text. -/
def published (text : Str) : List (Nat × Nat) := pieces text.length 0 (iterMatches u text 0)

theorem redactComplete_published (text placeholder : Str) :
    redactComplete u text placeholder =
      placeholder.intercalate ((published u text).map fun piece => slice text piece.1 piece.2) := by
  rw [redactComplete_eq,published,iterMatches_eq]
  exact splice_pieces text placeholder text.length 0 _
    (fun h member => ((scanner u text).hit_bounds 0 h member).2.2.1)

private theorem published_forward (text : Str) : ∀ h ∈ (scanner u text).hits 0,
    0 ≤ h.start ∧ h.start < h.stop ∧ h.stop ≤ text.length := by
  intro h member
  have bounds := (scanner u text).hit_bounds 0 h member
  exact ⟨bounds.1,bounds.2.1,bounds.2.2.1⟩

theorem published_inside {text : Str} {piece : Nat × Nat} (written : piece ∈ published u text) :
    piece.1 ≤ piece.2 ∧ piece.2 ≤ text.length := by
  rw [published,iterMatches_eq] at written
  exact (pieces_inside text.length 0 _ (Nat.zero_le _) ((scanner u text).hits_ordered 0)
    (published_forward u text) piece written).2

theorem published_avoid {text : Str} {piece : Nat × Nat} (written : piece ∈ published u text)
    {h : Match} (member : h ∈ (scanner u text).hits 0) : piece.2 ≤ h.start ∨ h.stop ≤ piece.1 := by
  rw [published,iterMatches_eq] at written
  exact pieces_avoid text.length 0 _ ((scanner u text).hits_ordered 0) (published_forward u text) h
    member piece written

/-- The combined pattern finds a card at the position, and `_is_card` turns it down. -/
def RejectedAt (text : Str) (i : Nat) : Prop :=
  ∃ stop, combinedAt u text i = some (.CREDIT_CARD,stop) ∧ isCard u (slice text i stop) = false

/-- A rejected card gives its position up; whatever is PII there has to have a match that
starts further inside it. -/
def Recovered (text : Str) : Prop :=
  ∀ i j, (scanner u text).Visits 0 i → RejectedAt u text i → PiiSpan u text i j →
    ∃ p, i < p ∧ p < j ∧ (acceptedAt u text p).isSome

def Covered (text : Str) : Prop :=
  ∀ i j, PiiSpan u text i j → ∃ found ∈ iterMatches u text 0, Overlaps found i j

theorem PiiSpan.bounds {text : Str} {i j : Nat} (span : PiiSpan u text i j) :
    i < j ∧ j ≤ text.length := by
  obtain ⟨label,pattern,member,matched,_⟩ := span
  have forward := matched.bounds
  have moved := patterns_move u member matched
  omega

theorem rejectedAt_of_none {text : Str} {i j : Nat} (span : PiiSpan u text i j)
    (nothing : acceptedAt u text i = none) : RejectedAt u text i := by
  obtain ⟨label,pattern,member,matched,_⟩ := span
  cases found : combinedAt u text i with
  | none => exact absurd matched ((combinedAt_none u).mp found _ member j)
  | some pair =>
    obtain ⟨other,stop⟩ := pair
    have turned : isRejected u text ⟨i,stop,other⟩ = true := by
      by_contra kept
      have taken := (acceptedAt_some u).mpr ⟨found,by simpa using kept⟩
      simp [nothing] at taken
    simp only [isRejected,Bool.and_eq_true,beq_iff_eq,Bool.not_eq_true'] at turned
    obtain ⟨rfl,failed⟩ := turned
    exact ⟨stop,found,failed⟩

theorem RejectedAt.nothing {text : Str} {i : Nat} (rejected : RejectedAt u text i) :
    acceptedAt u text i = none := by
  obtain ⟨stop,found,failed⟩ := rejected
  simp [acceptedAt,found,isRejected,failed]

private theorem overlap_of_accepted {text : Str} {i j p : Nat} (low : i ≤ p) (high : p < j)
    (inside : j ≤ text.length) (accepted : (acceptedAt u text p).isSome) :
    ∃ found ∈ (scanner u text).hits 0, Overlaps found i j := by
  have size : p ≤ (scanner u text).top := by
    change p ≤ text.length
    omega
  rcases (scanner u text).visited_or_covered (Nat.zero_le p) size with seen | ⟨found,member,torn⟩
  · obtain ⟨⟨label,stop⟩,taken⟩ := Option.isSome_iff_exists.mp accepted
    have forward := (scanner u text).advances p label stop taken
    exact ⟨⟨p,stop,label⟩,((scanner u text).mem_hits_iff 0 _).mpr ⟨seen,taken⟩,high,by
      dsimp only
      omega⟩
  · exact ⟨found,member,by have left := torn.1; omega,by have right := torn.2; omega⟩

theorem covered_of_recovered {text : Str} (recovered : Recovered u text) : Covered u text := by
  intro i j span
  have bounds := span.bounds
  rw [iterMatches_eq]
  have size : i ≤ (scanner u text).top := by
    change i ≤ text.length
    omega
  rcases (scanner u text).visited_or_covered (Nat.zero_le i) size with seen | ⟨found,member,torn⟩
  · cases here : acceptedAt u text i with
    | some pair => exact overlap_of_accepted u le_rfl bounds.1 bounds.2 (by simp [here])
    | none =>
      obtain ⟨p,low,high,accepted⟩ := recovered i j seen (rejectedAt_of_none u span here) span
      exact overlap_of_accepted u low.le high bounds.2 accepted
  · exact ⟨found,member,by have left := torn.1; omega,torn.2⟩

theorem recovered_of_covered {text : Str} (covered : Covered u text) : Recovered u text := by
  intro i j seen rejected span
  obtain ⟨found,member,left,right⟩ := covered i j span
  rw [iterMatches_eq] at member
  have taken := (((scanner u text).mem_hits_iff 0 found).mp member).2
  have clean := seen.clean.2 found member
  refine ⟨found.start,?_,left,?_⟩
  · by_contra early
    have same : found.start ≠ i := by
      intro same
      have nothing := rejected.nothing u
      rw [← same] at nothing
      change acceptedAt u text found.start = _ at taken
      simp [nothing] at taken
    exact clean ⟨by omega,right⟩
  · change acceptedAt u text found.start = _ at taken
    simp [taken]

theorem covered_not_published {text : Str} (covered : Covered u text) {i j : Nat}
    (span : PiiSpan u text i j) : ∀ piece ∈ published u text, ¬ (piece.1 ≤ i ∧ j ≤ piece.2) := by
  obtain ⟨found,member,left,right⟩ := covered i j span
  intro piece written inside
  rw [iterMatches_eq] at member
  have forward := (scanner u text).hit_bounds 0 found member
  have apart := published_avoid u written member
  omega

/-- `iter_matches` covers the PII of a text exactly if every rejected card it stops at
leaves a match inside each PII span that starts there. -/
theorem covered_iff_recovered (text : Str) :
    ((∀ i j, PiiSpan u text i j → ∃ found ∈ iterMatches u text 0, Overlaps found i j) ∧
      ∀ i j, PiiSpan u text i j →
        ∀ piece ∈ published u text, ¬ (piece.1 ≤ i ∧ j ≤ piece.2)) ↔ Recovered u text := by
  constructor
  · exact fun both => recovered_of_covered u both.1
  · intro recovered
    have covered := covered_of_recovered u recovered
    exact ⟨covered,fun i j span => covered_not_published u covered span⟩

/-- A card followed by a blank and two digits: the longest candidate has eighteen digits
and fails the check, and the sixteen-digit card is published. -/
theorem rejected_card_hides_card :
    let text := lit "4111 1111 1111 1111 12"
    PiiSpan asciiUnicode text 0 19 ∧ iterMatches asciiUnicode text 0 = [] ∧
      redactComplete asciiUnicode text DEFAULT_PLACEHOLDER = text ∧ ¬ Covered asciiUnicode text := by
  intro text
  have span : PiiSpan asciiUnicode text 0 19 := by
    refine ⟨.CREDIT_CARD,creditCard asciiUnicode,by simp [PATTERNS],?_,fun _ => by decide +kernel⟩
    rw [← Regex.mem_ends]
    decide +kernel
  have none : iterMatches asciiUnicode text 0 = [] := by decide +kernel
  refine ⟨span,none,by decide +kernel,fun covered => ?_⟩
  obtain ⟨found,member,_⟩ := covered 0 19 span
  simp [none] at member

end GatewaySuite.Guardrail
