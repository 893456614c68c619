import GatewaySuite.Guardrail.Bounds

/-! What `RedactionStats` reports of a stream, at every moment of it: nothing that was emitted is
taken back, and the characters that went in, came out and were redacted balance. -/
namespace GatewaySuite.Guardrail
open Lib Python
variable (u : Unicode)

theorem count_labels (labels : List Label) :
    ([.EMAIL,.API_KEY,.CREDIT_CARD,.SSN,.PHONE].map fun label => labels.count label).sum =
      labels.length := by
  induction labels with
  | nil => rfl
  | cons label rest ih =>
    cases label <;> simp [List.count_cons] at ih ⊢ <;> omega

structure RedactionStats.Metered (stats : RedactionStats) (chunks : List Str) (emitted : Str) :
    Prop where
  chunksIn : stats.chunksIn = chunks.countP fun chunk => !chunk.isEmpty
  charactersIn : stats.charactersIn = chunks.flatten.length
  charactersOut : stats.charactersOut = emitted.length

theorem recordAll_frame (stats : RedactionStats) (found : List Match) :
    (recordAll stats found).chunksIn = stats.chunksIn ∧
      (recordAll stats found).charactersIn = stats.charactersIn ∧
      (recordAll stats found).charactersOut = stats.charactersOut := by
  induction found generalizing stats with
  | nil => exact ⟨rfl,rfl,rfl⟩
  | cons m rest ih => exact ih (stats.record m.label)

theorem redactRange_frame (text : Str) (start stop : Nat) (stats : RedactionStats)
    (placeholder : Str) (found : Option (List Match)) :
    (redactRange u text start stop stats placeholder found).2.chunksIn = stats.chunksIn ∧
      (redactRange u text start stop stats placeholder found).2.charactersIn = stats.charactersIn ∧
      (redactRange u text start stop stats placeholder found).2.charactersOut =
        stats.charactersOut := by
  rw [redactRange,emitMatches_stats]
  exact recordAll_frame stats _

namespace StreamRedactor

theorem feed_stats {r next : StreamRedactor} {chunk safe : Str} (some : chunk ≠ [])
    (fed : r.feed u chunk = .ok (safe,next)) :
    next.stats.chunksIn = r.stats.chunksIn + 1 ∧
      next.stats.charactersIn = r.stats.charactersIn + chunk.length ∧
      next.stats.charactersOut = r.stats.charactersOut + safe.length := by
  unfold feed at fed
  split_ifs at fed
  cases fed
  obtain ⟨count,into,outof⟩ := redactRange_frame u (r.leftContext ++ (r.buffer ++ chunk))
    r.leftContext.length _ {r.stats with
      chunksIn := r.stats.chunksIn + 1
      charactersIn := r.stats.charactersIn + chunk.length} r.placeholder _
  exact ⟨count,into,congrArg (· + _) outof⟩

theorem feed_metered {r next : StreamRedactor} {chunk safe out : Str} {chunks : List Str}
    (metered : r.stats.Metered chunks out) (fed : r.feed u chunk = .ok (safe,next)) :
    next.stats.Metered (chunks ++ [chunk]) (out ++ safe) := by
  obtain ⟨count,into,outof⟩ := metered
  by_cases empty : chunk = []
  · subst chunk
    unfold feed at fed
    split_ifs at fed with closed empty
    · cases fed
      refine ⟨?_,?_,?_⟩
      · simpa using count
      · rw [into,List.flatten_concat,List.append_nil]
      · rw [outof,List.append_nil]
    · exact absurd rfl empty
  · obtain ⟨count',into',outof'⟩ := feed_stats u empty fed
    refine ⟨?_,?_,?_⟩
    · simp [count',count,empty]
    · rw [into',into,List.flatten_concat,List.length_append]
    · rw [outof',outof,List.length_append]

theorem feedAll_metered {r last : StreamRedactor} {out emitted : Str} {before chunks : List Str}
    (metered : r.stats.Metered before out) (fed : r.feedAll u chunks = .ok (emitted,last)) :
    last.stats.Metered (before ++ chunks) (out ++ emitted) := by
  induction chunks generalizing r out emitted before with
  | nil =>
    cases fed
    simpa using metered
  | cons chunk rest ih =>
    simp only [feedAll,bind,Except.bind] at fed
    cases head : r.feed u chunk with
    | error raised => simp [head] at fed
    | ok pair =>
      simp only [head] at fed
      cases tail : pair.2.feedAll u rest with
      | error raised => simp [tail] at fed
      | ok done =>
        simp only [tail,pure,Except.pure,Except.ok.injEq,Prod.mk.injEq] at fed
        obtain ⟨rfl,rfl⟩ := fed
        have after := ih (feed_metered u metered head) tail
        rwa [List.append_assoc,List.append_assoc] at after

theorem flush_metered {r : StreamRedactor} {chunks : List Str} {out : Str}
    (metered : r.stats.Metered chunks out) :
    (r.flush u).2.stats.Metered chunks (out ++ (r.flush u).1) := by
  obtain ⟨count,into,outof⟩ := metered
  unfold flush
  split_ifs
  · refine ⟨count,into,?_⟩
    rw [outof,List.append_nil]
  · obtain ⟨count',into',outof'⟩ := redactRange_frame u (r.leftContext ++ r.buffer)
      r.leftContext.length (r.leftContext ++ r.buffer).length r.stats r.placeholder none
    refine ⟨count'.trans count,into'.trans into,?_⟩
    rw [List.length_append,← outof]
    exact congrArg (· + _) outof'

theorem feedAll_append {r next last : StreamRedactor} {out more : Str} {chunks later : List Str}
    (fed : r.feedAll u chunks = .ok (out,next)) (fed' : next.feedAll u later = .ok (more,last)) :
    r.feedAll u (chunks ++ later) = .ok (out ++ more,last) := by
  induction later generalizing next out chunks more with
  | nil =>
    cases fed'
    simpa using fed
  | cons chunk rest ih =>
    simp only [feedAll,bind,Except.bind] at fed'
    cases head : next.feed u chunk with
    | error raised => simp [head] at fed'
    | ok pair =>
      simp only [head] at fed'
      cases tail : pair.2.feedAll u rest with
      | error raised => simp [tail] at fed'
      | ok done =>
        simp only [tail,pure,Except.pure,Except.ok.injEq,Prod.mk.injEq] at fed'
        obtain ⟨rfl,rfl⟩ := fed'
        have whole := ih (feedAll_snoc u fed head) tail
        rwa [List.append_assoc,List.append_assoc] at whole

end StreamRedactor

def matchesBy (text : Str) (position : Nat) : List Match :=
  (iterMatches u text 0).takeWhile fun found => decide (found.stop ≤ position)

theorem matchesBy_taken (text : Str) (position : Nat) :
    matchesBy u text position = (scanner u text).taken 0 position := by
  rw [matchesBy,iterMatches_eq,Scanner.taken]

theorem totalRedactions_counted {stats : RedactionStats} {found : List Match}
    (counted : ∀ label, stats.redactions label = (found.map Hit.label).count label) :
    stats.totalRedactions = found.length := by
  have labels := count_labels (found.map Hit.label)
  rw [List.length_map] at labels
  rw [RedactionStats.totalRedactions,funext counted,labels]

/-- What was emitted begins the redaction of any text that begins with the chunks. -/
theorem feedAll_begins {chunks : List Str} {placeholder out : Str} {r : StreamRedactor}
    (fed : (StreamRedactor.init MAX_HOLDBACK placeholder).feedAll u chunks = .ok (out,r))
    (later : List Str) : out <+: redactComplete u (chunks ++ later).flatten placeholder := by
  obtain ⟨out',r',fed',retained⟩ := ((Retained.init placeholder).mono
    (Nat.zero_le (max (longest chunks) (longest later)))).feedAll u chunks (le_max_left _ _)
  rw [fed,Except.ok.injEq,Prod.mk.injEq] at fed'
  obtain ⟨rfl,rfl⟩ := fed'
  obtain ⟨more,last,fed',_⟩ := retained.feedAll u later (le_max_right _ _)
  rw [← feedAll_flush u (StreamRedactor.feedAll_append u fed fed'),List.append_assoc]
  exact List.prefix_append out _

theorem redacted_length (text placeholder : Str) {position : Nat} (inside : position ≤ text.length) :
    (splice text placeholder position 0 ((scanner u text).hits 0)).length +
        ((matchesBy u text position).map fun found => found.stop-found.start).sum =
      position + placeholder.length * (matchesBy u text position).length := by
  have bounds := (scanner u text).hit_bounds 0
  have total := splice_length text placeholder inside 0 ((scanner u text).hits 0) (Nat.zero_le _)
    ((scanner u text).hits_ordered 0) fun h member => ⟨(bounds h member).1,(bounds h member).2.1⟩
  rw [matchesBy,iterMatches_eq]
  exact total

/-- For all chunks, after they were fed: whatever comes later, what was emitted begins the
redaction of the whole text; the counters count; and the characters balance, each match of the
part that was let go redacted once. The same holds after the flush, for all of the text; then
`feed` raises and a second flush changes nothing. -/
theorem stream_accounts (chunks : List Str) (placeholder : Str) :
    ∃ out r, (StreamRedactor.init MAX_HOLDBACK placeholder).feedAll u chunks = .ok (out,r) ∧
      (∀ later, out <+: redactComplete u (chunks ++ later).flatten placeholder) ∧
      r.stats.Metered chunks out ∧
      (let done := matchesBy u chunks.flatten (chunks.flatten.length-r.buffered)
      r.stats.totalRedactions = done.length ∧
        r.stats.charactersOut + r.buffered + (done.map fun found => found.stop-found.start).sum =
          r.stats.charactersIn + placeholder.length * done.length) ∧
      let ended := (r.flush u).2
      ended.stats.Metered chunks (out ++ (r.flush u).1) ∧
        (let all := iterMatches u chunks.flatten 0
        ended.stats.totalRedactions = all.length ∧
          ended.stats.charactersOut + (all.map fun found => found.stop-found.start).sum =
            ended.stats.charactersIn + placeholder.length * all.length) ∧
        (∀ chunk, ended.feed u chunk = .error .feedAfterFlush) ∧ ended.flush u = ([],ended) := by
  obtain ⟨out,r,base,fed,state,reached,placed⟩ :=
    (InStep.init u chunks.flatten placeholder).feedAll u chunks (by simp [StreamRedactor.init])
  rw [List.nil_append] at state
  replace placed : r.placeholder = placeholder := placed
  have start : (StreamRedactor.init MAX_HOLDBACK placeholder).stats.Metered [] [] := ⟨rfl,rfl,rfl⟩
  have metered : r.stats.Metered chunks out := StreamRedactor.feedAll_metered u start fed
  have flushed := StreamRedactor.flush_metered u metered
  obtain ⟨whole,counts⟩ := state.flush u reached
  have place : base = chunks.flatten.length-r.buffered := by
    rw [StreamRedactor.buffered]
    omega
  refine ⟨out,r,fed,fun later => ?_,metered,⟨?_,?_⟩,flushed,⟨?_,?_⟩,?_,?_⟩
  · exact feedAll_begins u fed later
  · rw [← place,matchesBy_taken,totalRedactions_counted fun label => state.counted label]
  · have inside : base ≤ chunks.flatten.length := by omega
    have balance := redacted_length u chunks.flatten placeholder inside
    rw [← place,metered.charactersOut,metered.charactersIn,StreamRedactor.buffered,state.written,placed]
    omega
  · rw [iterMatches_eq,totalRedactions_counted counts]
  · have balance := redacted_length u chunks.flatten placeholder le_rfl
    rw [flushed.charactersOut,flushed.charactersIn,whole,redactComplete_eq,placed]
    rw [matchesBy_taken,taken_whole] at balance
    rw [iterMatches_eq]
    exact balance
  · intro chunk
    simp [StreamRedactor.flush,state.opened,StreamRedactor.feed]
  · simp [StreamRedactor.flush,state.opened]

end GatewaySuite.Guardrail
