import GatewaySuite.Guardrail.Streaming

/-! What the redactor retains, whatever the chunks: a buffer no longer than the hold-back and
one match, and the end of the text it has let go. -/
namespace GatewaySuite.Guardrail
open Lib Python
variable (u : Unicode)

namespace StreamRedactor

/-- `safe_raw`, the text that a feed lets go. -/
def safeRaw (self : StreamRedactor) (chunk : Str) : Str :=
  let buffer := self.buffer ++ chunk
  let whole := self.leftContext ++ buffer
  let offset := self.leftContext.length
  let split := offset + buffer.length - holdback u buffer self.maxHoldback
  let split := pullBackBehindStraddlingMatch u whole split offset (some (iterMatches u whole offset))
  buffer.take (split - offset)

/-- The raw text that has left the buffer; an empty chunk moves nothing. -/
def rawAll (self : StreamRedactor) : List Str → Str
  | [] => []
  | chunk::rest =>
    (if chunk = [] then [] else self.safeRaw u chunk) ++
      match self.feed u chunk with
      | .ok (_,next) => next.rawAll rest
      | .error _ => []

end StreamRedactor

def longest (chunks : List Str) : Nat := chunks.foldr (fun chunk most => max chunk.length most) 0

theorem hit_width (text : Str) (start : Nat) :
    ∀ h ∈ (scanner u text).hits start, h.stop ≤ h.start + 345 := by
  intro h member
  obtain ⟨_,chosen⟩ := ((scanner u text).mem_hits_iff start h).mp member
  obtain ⟨pattern,listed,matched⟩ := combinedAt_some u ((acceptedAt_some u).mp chosen).1
  have wide := matched.width (patterns_bounded u _ listed)
  have bound := patterns_width u _ listed
  exact wide.trans (Nat.add_le_add_left bound h.start)

theorem holdback_most (buffer : Str) (maxHoldback : Nat) :
    holdback u buffer maxHoldback ≤ maxHoldback := by
  unfold holdback
  split_ifs
  · exact Nat.zero_le _
  · exact Nat.min_le_right _ _

/-- The cut stands at the hold-back, or at the start of the one match that spans it. -/
theorem cutOf_near (whole buffer : Str) (offset : Nat) :
    offset+buffer.length ≤ cutOf u whole buffer offset + MAX_BUFFER := by
  have held := holdback_le u buffer MAX_HOLDBACK
  have most := holdback_most u buffer MAX_HOLDBACK
  have order : offset ≤ offset+buffer.length-holdback u buffer MAX_HOLDBACK := by omega
  rw [cutOf,pullBack_eq u whole order]
  simp only [MAX_BUFFER,MAX_MATCH,MAX_HOLDBACK] at *
  obtain same | ⟨h,member,tears,moved⟩ := (scanner u whole).pull_moved order
  · omega
  · have wide := hit_width u whole offset h member
    have torn := tears.2
    omega

/-- After feeds that brought `fed` and let `raw` go, with no chunk longer than `most`. -/
structure Retained (fed raw : Str) (most : Nat) (r : StreamRedactor) : Prop where
  opened : r.closed = false
  capped : r.maxHoldback = MAX_HOLDBACK
  whole : raw ++ r.buffer = fed
  context : r.leftContext = lastChars LOOKBEHIND_CONTEXT raw
  buffer : r.buffer.length ≤ MAX_BUFFER
  peak : r.stats.maxBuffer ≤ MAX_BUFFER + most

theorem Retained.init (placeholder : Str) : Retained [] [] 0 (.init MAX_HOLDBACK placeholder) :=
  ⟨rfl,rfl,rfl,rfl,Nat.zero_le _,Nat.zero_le _⟩

variable {u} in
theorem Retained.mono {fed raw : Str} {most more : Nat} {r : StreamRedactor}
    (retained : Retained fed raw most r) (order : most ≤ more) : Retained fed raw more r :=
  {retained with peak := retained.peak.trans (by omega)}

theorem emitMatches_maxBuffer (text : Str) (stop cursor : Nat) (placeholder : Str)
    (found : List Match) (stats : RedactionStats) :
    (emitMatches text stop placeholder cursor found stats).2.maxBuffer = stats.maxBuffer := by
  induction found generalizing cursor stats with
  | nil => rfl
  | cons h rest ih =>
    simp only [emitMatches]
    split_ifs
    · rfl
    · rw [ih]
      rfl

theorem Retained.feed {fed raw chunk : Str} {most : Nat} {r : StreamRedactor}
    (retained : Retained fed raw most r) (some : chunk ≠ []) (short : chunk.length ≤ most) :
    ∃ safe next, r.feed u chunk = .ok (safe,next) ∧
      Retained (fed ++ chunk) (raw ++ r.safeRaw u chunk) most next := by
  obtain ⟨opened,capped,whole,context,buffer,peak⟩ := retained
  have near := cutOf_near u (r.leftContext ++ (r.buffer ++ chunk)) (r.buffer ++ chunk)
    r.leftContext.length
  have raws : r.safeRaw u chunk = (r.buffer ++ chunk).take
      (cutOf u (r.leftContext ++ (r.buffer ++ chunk)) (r.buffer ++ chunk) r.leftContext.length
        - r.leftContext.length) := by
    simp only [StreamRedactor.safeRaw,cutOf,capped]
  refine ⟨_,_,by simp only [StreamRedactor.feed,opened,some,Bool.false_eq_true,if_false]; rfl,?_⟩
  refine ⟨rfl,capped,?_,?_,?_,?_⟩
  · dsimp only
    rw [raws,capped,← whole,List.append_assoc,List.append_assoc]
    exact congrArg (raw ++ ·) (List.take_append_drop _ _)
  · dsimp only
    rw [raws,capped,context,lastChars_append _ _ _ context_kept]
    rfl
  · dsimp only
    rw [List.length_drop,capped]
    change (r.buffer ++ chunk).length - (cutOf u (r.leftContext ++ (r.buffer ++ chunk))
      (r.buffer ++ chunk) r.leftContext.length - r.leftContext.length) ≤ MAX_BUFFER
    omega
  · simp only [redactRange,emitMatches_maxBuffer,List.length_drop,List.length_append]
    omega

theorem Retained.feedAll {fed raw : Str} {most : Nat} {r : StreamRedactor}
    (retained : Retained fed raw most r) (chunks : List Str) (short : longest chunks ≤ most) :
    ∃ out last, r.feedAll u chunks = .ok (out,last) ∧
      Retained (fed ++ chunks.flatten) (raw ++ r.rawAll u chunks) most last := by
  induction chunks generalizing fed raw r with
  | nil => exact ⟨[],r,rfl,by simpa [StreamRedactor.rawAll] using retained⟩
  | cons chunk rest ih =>
    simp only [longest,List.foldr_cons,Nat.max_le] at short
    obtain ⟨safe,next,fed',step⟩ : ∃ safe next, r.feed u chunk = .ok (safe,next) ∧
        Retained (fed ++ chunk) (raw ++ if chunk = [] then [] else r.safeRaw u chunk) most next := by
      by_cases empty : chunk = []
      · exact ⟨[],r,by simp [StreamRedactor.feed,retained.opened,empty],by simpa [empty] using retained⟩
      · simpa only [empty,if_false] using retained.feed u empty short.1
    obtain ⟨out,last,run,after⟩ := ih step short.2
    refine ⟨safe ++ out,last,?_,?_⟩
    · simp only [StreamRedactor.feedAll,fed',run,bind,Except.bind]
      rfl
    · simpa only [StreamRedactor.rawAll,fed',List.flatten_cons,List.append_assoc] using after

/-- After any calls of `feed`: the raw text let go and the buffer are the text fed, what was
emitted is the redaction of that raw text within it, and what is retained is bounded. -/
theorem retained_bounded (chunks : List Str) (placeholder : Str) :
    ∃ out r, (StreamRedactor.init MAX_HOLDBACK placeholder).feedAll u chunks = .ok (out,r) ∧
      let raw := (StreamRedactor.init MAX_HOLDBACK placeholder).rawAll u chunks
      r.buffer.length ≤ MAX_BUFFER ∧ r.leftContext.length ≤ LOOKBEHIND_CONTEXT ∧
      raw ++ r.buffer = chunks.flatten ∧
      out = (redactRange u chunks.flatten 0 raw.length .zero placeholder none).1 ∧
      r.leftContext = raw.drop (raw.length - min LOOKBEHIND_CONTEXT raw.length) ∧
      r.stats.maxBuffer ≤ MAX_BUFFER + longest chunks := by
  obtain ⟨out,r,run,retained⟩ :=
    ((Retained.init placeholder).mono (Nat.zero_le (longest chunks))).feedAll u chunks le_rfl
  obtain ⟨out',r',base,run',state,ended,placed⟩ :=
    (InStep.init u chunks.flatten placeholder).feedAll u chunks (by simp [StreamRedactor.init])
  rw [run,Except.ok.injEq,Prod.mk.injEq] at run'
  obtain ⟨rfl,rfl⟩ := run'
  obtain ⟨_,_,whole,context,buffer,peak⟩ := retained
  rw [List.nil_append] at whole context
  refine ⟨out,r,run,buffer,?_,whole,?_,?_,peak⟩
  · rw [context,lastChars_length _ _ context_kept]
    exact Nat.min_le_left _ _
  · have size : base =
        ((StreamRedactor.init MAX_HOLDBACK placeholder).rawAll u chunks).length := by
      have total := congrArg List.length whole
      rw [List.length_append,List.nil_append] at total
      omega
    have written := state.written
    rw [List.nil_append,placed,size] at written
    rw [redactRange_eq]
    exact written
  · have place (n k : Nat) : n-k = n-min k n := by omega
    rw [context,lastChars,if_neg context_kept,place]

end GatewaySuite.Guardrail
