import GatewaySuite.Guardrail.Holdback

/-! `holdback_exact`, the reference that the hold-back rules approximate. It asks the `regex`
module which suffix can still become a match; the rules withhold at least that much. -/
namespace GatewaySuite.Guardrail
open Lib Python
variable (u : Unicode)

/-- A full match of some pattern, or the beginning of one. -/
def Viable (s : Str) : Prop :=
  ∃ more, ∃ x ∈ PATTERNS u, x.2.Matches (s ++ more) 0 (s ++ more).length

/-- `regex` is `compiled.fullmatch(·, partial=True)`, or nothing where the import fails. -/
def holdbackExact (regex : Option (Str → Bool)) (buffer : Str) (maxHoldback : Nat) :
    Except Str Nat :=
  match regex with
  | none => .error (lit "holdback_exact() requires the 'regex' package")
  | some fullmatch =>
    let start := buffer.length - maxHoldback
    match (List.range' start (buffer.length - start)).find? fun index =>
        fullmatch (buffer.drop index) with
    | some index => .ok (buffer.length - index)
    | none => .ok 0

/-- The exact hold-back is the length of the longest suffix that the matcher accepts. -/
theorem holdbackExact_longest (fullmatch : Str → Bool) (buffer : Str) (maxHoldback : Nat) :
    ∃ exact, holdbackExact (some fullmatch) buffer maxHoldback = .ok exact ∧
      (exact = 0 ∨ ∃ s, s <:+ buffer ∧ s.length = exact ∧ exact ≤ maxHoldback ∧
        fullmatch s = true) ∧
      ∀ s, s <:+ buffer → s.length ≤ maxHoldback → fullmatch s = true → s.length ≤ exact := by
  have asked (s : Str) (suffix : s <:+ buffer) (accepted : fullmatch s = true) :
      fullmatch (buffer.drop (buffer.length-s.length)) = true := by
    rw [← List.suffix_iff_eq_drop.mp suffix]
    exact accepted
  simp only [holdbackExact]
  cases found : (List.range' (buffer.length-maxHoldback)
      (buffer.length-(buffer.length-maxHoldback))).find? fun index => fullmatch (buffer.drop index) with
  | none =>
    refine ⟨0,rfl,Or.inl rfl,?_⟩
    intro s suffix fits accepted
    have short := suffix.length_le
    by_contra longer
    have refused := List.find?_range'_eq_none.mp found (buffer.length-s.length) (by omega) (by omega)
    simp [asked s suffix accepted] at refused
  | some index =>
    obtain ⟨here,member,before⟩ := List.find?_range'_eq_some.mp found
    have inside := List.mem_range'_1.mp member
    have size : (buffer.drop index).length = buffer.length-index := List.length_drop
    refine ⟨buffer.length-index,rfl,?_,?_⟩
    · exact Or.inr ⟨buffer.drop index,List.drop_suffix index buffer,size,by omega,here⟩
    · intro s suffix fits accepted
      have short := suffix.length_le
      by_contra longer
      have refused := before (buffer.length-s.length) (by omega) (by omega)
      simp [asked s suffix accepted] at refused

theorem viable_spelled {s : Str} (viable : Viable u s) :
    Regex.Spelled s tokenChar tokenChar 0 s.length ∨
      Regex.Spelled s (numberStart u) (numberChar u) 0 s.length := by
  obtain ⟨more,x,member,matched⟩ := viable
  exact (patterns_spelled u member matched.spelled).imp (Regex.Spelled.left (Nat.zero_le _))
    (Regex.Spelled.left (Nat.zero_le _))

theorem viable_held {s buffer : Str} {maxHoldback : Nat} (suffix : s <:+ buffer)
    (fits : s.length ≤ maxHoldback) (viable : Viable u s) :
    s.length ≤ holdback u buffer maxHoldback := by
  obtain ⟨front,rfl⟩ := suffix
  have size : (front ++ s).length = front.length+s.length := List.length_append
  have rest : (front ++ s).length-front.length = s.length := by omega
  rcases Nat.eq_zero_or_pos s.length with empty | some
  · omega
  · rw [← rest]
    apply holdback_covers u (by omega) (by omega)
    rw [size]
    exact (viable_spelled u viable).imp Regex.Spelled.behind.mpr Regex.Spelled.behind.mpr

/-- The hold-back withholds every suffix that is a match or can become one, up to its bound, and
so at least what the exact one withholds. -/
theorem holdback_dominates (fullmatch : Str → Bool)
    (sound : ∀ s, fullmatch s = true → Viable u s) (buffer : Str) (maxHoldback : Nat) :
    (∀ s, s <:+ buffer → s.length ≤ maxHoldback → Viable u s →
      s.length ≤ holdback u buffer maxHoldback) ∧
    ∃ exact, holdbackExact (some fullmatch) buffer maxHoldback = .ok exact ∧
      exact ≤ holdback u buffer maxHoldback := by
  constructor
  · intro s suffix fits viable
    exact viable_held u suffix fits viable
  · obtain ⟨exact,run,attained,_⟩ := holdbackExact_longest fullmatch buffer maxHoldback
    refine ⟨exact,run,?_⟩
    rcases attained with rfl | ⟨s,suffix,rfl,fits,accepted⟩
    · exact Nat.zero_le _
    · exact viable_held u suffix fits (sound s accepted)

/-- What `fullmatch` answers on the suffixes of the buffer below, up to the first it accepts. -/
def ssnPrefix (s : Str) : Bool := s.isPrefixOf (lit "123-45-6789")

theorem ssnPrefix_sound (s : Str) (accepted : ssnPrefix s = true) : Viable asciiUnicode s := by
  obtain ⟨more,whole⟩ := List.isPrefixOf_iff_prefix.mp accepted
  refine ⟨more,(.SSN,ssn asciiUnicode),by simp [PATTERNS],?_⟩
  rw [whole,← Regex.mem_ends]
  decide +kernel

theorem holdback_dominates_ssn :
    holdbackExact (some ssnPrefix) (lit "My SSN is 123-4") MAX_HOLDBACK = .ok 5 ∧
      5 ≤ holdback asciiUnicode (lit "My SSN is 123-4") MAX_HOLDBACK := by
  have dominates := holdback_dominates asciiUnicode ssnPrefix ssnPrefix_sound
    (lit "My SSN is 123-4") MAX_HOLDBACK
  obtain ⟨exact,run,held⟩ := dominates.2
  have five : holdbackExact (some ssnPrefix) (lit "My SSN is 123-4") MAX_HOLDBACK = .ok 5 := by
    decide +kernel
  rw [five] at run
  obtain rfl := Except.ok.inj run
  exact ⟨five,held⟩

end GatewaySuite.Guardrail
