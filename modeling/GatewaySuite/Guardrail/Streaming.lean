import GatewaySuite.Guardrail.Holdback

/-! Feeding chunks and flushing redacts like one pass over the whole text. The text is
fixed in advance and the chunks are its pieces: what has been emitted after some chunks is
the redaction of the text up to a position that no match of the whole text straddles. -/
namespace GatewaySuite.Guardrail
open Lib Python
variable (u : Unicode)

theorem context_kept : LOOKBEHIND_CONTEXT ≠ 0 := by simp [LOOKBEHIND_CONTEXT]

/-- The retained context and the buffer show the text from some position up to `seen`,
with the scan standing at `base`. -/
structure Window (text : Str) (base seen : Nat) (context buffer : Str) : Prop where
  order : base ≤ seen
  inside : seen ≤ text.length
  context : context = lastChars LOOKBEHIND_CONTEXT (text.take base)
  buffer : buffer = slice text base seen

namespace Window
variable {text context buffer : Str} {base seen : Nat}

theorem context_length (w : Window text base seen context buffer) :
    context.length = min LOOKBEHIND_CONTEXT base := by
  have low := w.order.trans w.inside
  rw [w.context,lastChars_length _ _ context_kept,List.length_take]
  omega

theorem buffer_length (w : Window text base seen context buffer) :
    buffer.length = seen-base := by
  rw [w.buffer,slice_length text w.inside]

theorem split (w : Window text base seen context buffer) :
    text.take seen = text.take (base-context.length) ++ (context++buffer) := by
  have low := w.order.trans w.inside
  have front : text.take base = text.take (base-context.length) ++ context := by
    conv_lhs => rw [← List.take_append_drop (base-context.length) (text.take base)]
    rw [List.take_take,Nat.min_eq_left (by omega)]
    congr 1
    have size : (text.take base).length = base := by
      rw [List.length_take]
      omega
    have place : base-min LOOKBEHIND_CONTEXT base = base-LOOKBEHIND_CONTEXT := by omega
    rw [w.context_length,w.context,lastChars,if_neg context_kept,size,place]
  rw [← List.append_assoc,← front,w.buffer,← slice_zero,← slice_zero,
    slice_append text (Nat.zero_le base) w.order]

theorem front_length (w : Window text base seen context buffer) :
    (text.take (base-context.length)).length = base-context.length := by
  have low := w.order.trans w.inside
  rw [List.length_take]
  omega

theorem shown (w : Window text base seen context buffer) :
    (text.take seen).drop base = buffer := w.buffer.symm

theorem hits (w : Window text base seen context buffer) :
    (scanner u (text.take seen)).hits base =
      ((scanner u (context++buffer)).hits context.length).map
        (Hit.shift (base-context.length)) := by
  have size := w.context_length
  have place : base = base-context.length+context.length := by omega
  conv_lhs => rw [place]
  apply (scanner u (context++buffer)).hits_shift
  · change (text.take seen).length = _ + (context++buffer).length
    rw [w.split,List.length_append,w.front_length]
  · intro q low
    change acceptedAt u (text.take seen) _ = _
    have visible : 0 < q ∨ text.take (base-context.length) = [] := by
      simp only [LOOKBEHIND_CONTEXT] at size
      by_cases start : base = 0
      · exact Or.inr (by simp [start])
      · exact Or.inl (by omega)
    have moved := acceptedAt_shift u (text.take (base-context.length)) (context++buffer) q visible
    rw [w.front_length,← w.split] at moved
    exact moved

theorem taken_seen (w : Window text base seen context buffer) (cut : Nat) :
    (scanner u (text.take seen)).taken base (base-context.length+cut) =
      ((scanner u (context++buffer)).taken context.length cut).map
        (Hit.shift (base-context.length)) := by
  have size := w.context_length
  have place : base-context.length+context.length = base := by omega
  have scan : (scanner u (text.take seen)).hits (base-context.length+context.length) =
      ((scanner u (context++buffer)).hits context.length).map (Hit.shift (base-context.length)) := by
    rw [place]
    exact w.hits u
  have moved := (scanner u (context++buffer)).taken_shift (scanner u (text.take seen)) cut scan
  rwa [place] at moved

theorem settled (w : Window text base seen context buffer) {q : Nat} (low : base ≤ q)
    (early : q < seen-holdback u buffer MAX_HOLDBACK) :
    acceptedAt u text q = acceptedAt u (text.take seen) q := by
  have size : (text.take seen).length = seen := by
    rw [List.length_take,Nat.min_eq_left w.inside]
  have blind : ∀ x ∈ PATTERNS u, ¬ x.2.Reads (text.take seen) (text.take seen).length q := by
    apply blind_before_holdback u low
    rw [w.shown,size]
    exact early
  have extended := acceptedAt_append u (text.take seen) (text.drop seen) q (by omega) blind
  rwa [List.take_append_drop] at extended

end Window

/-- Where `feed` cuts: the hold-back, pulled back behind a straddling match. -/
def cutOf (whole buffer : Str) (offset : Nat) : Nat :=
  pullBackBehindStraddlingMatch u whole
    (offset+buffer.length-holdback u buffer MAX_HOLDBACK) offset (some (iterMatches u whole offset))

theorem cutOf_spec (whole buffer : Str) (offset : Nat) :
    offset ≤ cutOf u whole buffer offset ∧
      cutOf u whole buffer offset ≤ offset+buffer.length-holdback u buffer MAX_HOLDBACK ∧
      (scanner u whole).Clean offset (cutOf u whole buffer offset) := by
  have held := holdback_le u buffer MAX_HOLDBACK
  have order : offset ≤ offset+buffer.length-holdback u buffer MAX_HOLDBACK := by omega
  obtain ⟨low,high,clean⟩ := (scanner u whole).pull_spec order
  rw [cutOf,pullBack_eq u whole order]
  exact ⟨low,high,clean⟩

namespace Window
variable {text context buffer : Str} {base seen : Nat}

/-- The cut of `feed`, seen from the whole text: no match straddles it, and the matches
up to it are those of the window. -/
theorem cut_spec (w : Window text base seen context buffer) :
    let cut := cutOf u (context++buffer) buffer context.length
    let d := base-context.length
    base ≤ d+cut ∧ d+cut ≤ seen ∧ (scanner u text).Clean base (d+cut) ∧
      (scanner u text).taken base (d+cut) =
        ((scanner u (context++buffer)).taken context.length cut).map (Hit.shift d) := by
  intro cut d
  have size := w.context_length
  have room := w.buffer_length
  have order := w.order
  have inside := w.inside
  have length : (text.take seen).length = seen := by
    rw [List.length_take,Nat.min_eq_left inside]
  obtain ⟨low,high,clean⟩ := cutOf_spec u (context++buffer) buffer context.length
  have place : d+context.length = base := by omega
  have early : d+cut ≤ seen-holdback u buffer MAX_HOLDBACK := by
    have held := holdback_le u buffer MAX_HOLDBACK
    omega
  have scan : (scanner u (text.take seen)).hits (d+context.length) =
      ((scanner u (context++buffer)).hits context.length).map (Hit.shift d) := by
    rw [place]
    exact w.hits u
  have cleanSeen := (scanner u (context++buffer)).clean_shift (scanner u (text.take seen)) scan clean
  rw [place] at cleanSeen
  obtain ⟨cleanText,takenText⟩ := (scanner u (text.take seen)).taken_congr (scanner u text)
    (by omega : base ≤ d+cut) (by change d+cut ≤ (text.take seen).length; omega)
    (by change d+cut ≤ text.length; omega)
    (fun q start stop => (w.settled u start (by omega)).symm) cleanSeen
  exact ⟨by omega,by omega,cleanText,takenText.trans (w.taken_seen u cut)⟩

theorem emission (w : Window text base seen context buffer) (placeholder : Str)
    (stats : RedactionStats) :
    let cut := cutOf u (context++buffer) buffer context.length
    let d := base-context.length
    let emitted := redactRange u (context++buffer) context.length cut stats placeholder
      (some (iterMatches u (context++buffer) context.length))
    emitted.1 = splice text placeholder (d+cut) base ((scanner u text).hits base) ∧
      ∀ label, emitted.2.redactions label = stats.redactions label +
        (((scanner u text).taken base (d+cut)).map Hit.label).count label := by
  intro cut d emitted
  have size := w.context_length
  have place : d+context.length = base := by omega
  obtain ⟨low,high,clean,taken⟩ := w.cut_spec u
  have front : (text.take d).length = d := w.front_length
  have fits : d+cut ≤ (text.take seen).length := by
    rw [List.length_take,Nat.min_eq_left w.inside]
    exact high
  have ordered : ∀ h ∈ (scanner u (text.take seen)).hits base, h.start < h.stop :=
    fun h member => ((scanner u (text.take seen)).hit_bounds base h member).2.1
  constructor
  · simp only [emitted,redactRange_scanned,redactRange_eq]
    calc splice (context++buffer) placeholder cut context.length
          ((scanner u (context++buffer)).hits context.length)
        = splice (text.take seen) placeholder (d+cut) base
            ((scanner u (text.take seen)).hits base) := by
          rw [w.hits u,w.split,← place]
          have shifted := splice_shift (text.take d) (context++buffer) placeholder cut context.length
            ((scanner u (context++buffer)).hits context.length)
          rw [front] at shifted
          rw [← shifted]
          simp only [place,d]
      _ = splice text placeholder (d+cut) base ((scanner u (text.take seen)).hits base) := by
          have extended := splice_left (q := base) (text.take seen) (text.drop seen) placeholder
            ((scanner u (text.take seen)).hits base) fits ordered
          rw [List.take_append_drop] at extended
          exact extended.symm
      _ = splice text placeholder (d+cut) base ((scanner u text).hits base) := by
          rw [← splice_taken,← splice_taken text placeholder (d+cut) base ((scanner u text).hits base)]
          change splice text placeholder (d+cut) base ((scanner u (text.take seen)).taken base (d+cut)) =
            splice text placeholder (d+cut) base ((scanner u text).taken base (d+cut))
          rw [taken,w.taken_seen u cut]
  · intro label
    simp only [emitted,redactRange_scanned,redactRange_eq,recordAll_redactions]
    rw [taken,List.map_map]
    rfl

end Window

/-- After some chunks of `text`: everything before `base` has been emitted, redacted as in
the whole text, and the buffer holds the text from `base` to the end of what was fed. -/
structure InStep (text : Str) (base : Nat) (out : Str) (r : StreamRedactor) : Prop where
  opened : r.closed = false
  capped : r.maxHoldback = MAX_HOLDBACK
  window : Window text base (base+r.buffer.length) r.leftContext r.buffer
  clean : (scanner u text).Clean 0 base
  written : out = splice text r.placeholder base 0 ((scanner u text).hits 0)
  counted : ∀ label,
    r.stats.redactions label = (((scanner u text).taken 0 base).map Hit.label).count label

theorem InStep.init (text placeholder : Str) :
    InStep u text 0 [] (.init MAX_HOLDBACK placeholder) where
  opened := rfl
  capped := rfl
  window := ⟨by simp [StreamRedactor.init],by simp [StreamRedactor.init],
    by simp [StreamRedactor.init,lastChars],by simp [StreamRedactor.init]⟩
  clean := (scanner u text).clean_self 0
  written := by
    have low := fun h member => (((scanner u text).hit_bounds 0 h member).1)
    have longer := fun h member =>
      lt_of_le_of_lt (low h member) ((scanner u text).hit_bounds 0 h member).2.1
    rw [splice_none text _ _ longer,slice_self]
  counted := by
    intro label
    simp [(scanner u text).taken_self,StreamRedactor.init,RedactionStats.zero]

def received (stats : RedactionStats) (chunk : Str) : RedactionStats :=
  {stats with
    chunksIn := stats.chunksIn + 1
    charactersIn := stats.charactersIn + chunk.length}

theorem feed_eq (r : StreamRedactor) (chunk : Str) (opened : r.closed = false)
    (some : chunk ≠ []) (capped : r.maxHoldback = MAX_HOLDBACK) :
    let whole := r.leftContext ++ (r.buffer ++ chunk)
    let offset := r.leftContext.length
    let cut := cutOf u whole (r.buffer ++ chunk) offset
    let emitted := redactRange u whole offset cut (received r.stats chunk) r.placeholder
      (Option.some (iterMatches u whole offset))
    ∃ r', r.feed u chunk = .ok (emitted.1,r') ∧ r'.closed = false ∧
      r'.maxHoldback = MAX_HOLDBACK ∧ r'.placeholder = r.placeholder ∧
      r'.buffer = (r.buffer ++ chunk).drop (cut-offset) ∧
      r'.leftContext = lastChars LOOKBEHIND_CONTEXT
        (r.leftContext ++ (r.buffer ++ chunk).take (cut-offset)) ∧
      r'.stats.redactions = emitted.2.redactions := by
  intro whole offset cut emitted
  refine ⟨{r with
    buffer := (r.buffer ++ chunk).drop (cut-offset)
    leftContext := lastChars LOOKBEHIND_CONTEXT
      (r.leftContext ++ (r.buffer ++ chunk).take (cut-offset))
    stats := {emitted.2 with
      maxBuffer := max emitted.2.maxBuffer
        (max (r.buffer ++ chunk).length ((r.buffer ++ chunk).drop (cut-offset)).length)
      charactersOut := emitted.2.charactersOut + emitted.1.length}},
    ?_,opened,capped,rfl,rfl,by dsimp only,rfl⟩
  rw [StreamRedactor.feed,opened,capped]
  simp only [Bool.false_eq_true,if_false,some]
  rfl

theorem InStep.feed {text out : Str} {base : Nat} {r : StreamRedactor}
    (state : InStep u text base out r) (chunk : Str)
    (next : slice text (base+r.buffer.length) (base+r.buffer.length+chunk.length) = chunk) :
    ∃ emit r' base', r.feed u chunk = .ok (emit,r') ∧ InStep u text base' (out++emit) r' ∧
      base'+r'.buffer.length = base+r.buffer.length+chunk.length ∧
      r'.placeholder = r.placeholder := by
  by_cases empty : chunk = []
  · subst chunk
    exact ⟨[],r,base,by simp [StreamRedactor.feed,state.opened],by simpa using state,by simp,rfl⟩
  · have old := state.window
    have inside : base+r.buffer.length+chunk.length ≤ text.length := by
      have sized := congrArg List.length next
      simp only [slice,List.length_drop,List.length_take] at sized
      have positive : 0 < chunk.length := List.length_pos_of_ne_nil empty
      omega
    have w : Window text base (base+r.buffer.length+chunk.length) r.leftContext (r.buffer++chunk) := by
      refine ⟨by omega,inside,old.context,?_⟩
      rw [← slice_append text (Nat.le_add_right base r.buffer.length) (Nat.le_add_right _ _),next,
        ← old.buffer]
    obtain ⟨r',fed,opened,capped,placed,kept,context,stats⟩ :=
      feed_eq u r chunk state.opened empty state.capped
    obtain ⟨low,high,clean,taken⟩ := w.cut_spec u
    obtain ⟨emitted,recorded⟩ := w.emission u r.placeholder (received r.stats chunk)
    have size := w.context_length
    have room := w.buffer_length
    have lower := (cutOf_spec u (r.leftContext++(r.buffer++chunk)) (r.buffer++chunk)
      r.leftContext.length).1
    generalize cutOf u (r.leftContext++(r.buffer++chunk)) (r.buffer++chunk)
      r.leftContext.length = cut at *
    generalize moved : base-r.leftContext.length+cut = base' at *
    have advance : base' = base+(cut-r.leftContext.length) := by omega
    have rest : r'.buffer = slice text base' (base+r.buffer.length+chunk.length) := by
      rw [kept,w.buffer,slice,List.drop_drop,← advance,slice]
    have raw : (r.buffer++chunk).take (cut-r.leftContext.length) = slice text base base' := by
      rw [w.buffer,slice_eq,slice_eq,List.take_take,advance]
      congr 1
      omega
    have length : r'.buffer.length = base+r.buffer.length+chunk.length-base' := by
      rw [rest,slice_length text inside]
    have order : base' ≤ base+r.buffer.length+chunk.length := high
    refine ⟨_,r',base',fed,⟨opened,capped,?_,?_,?_,?_⟩,by omega,placed⟩
    · have last : base'+r'.buffer.length = base+r.buffer.length+chunk.length := by omega
      rw [last]
      refine ⟨order,inside,?_,rest⟩
      rw [context,raw,old.context,lastChars_append _ _ _ context_kept,← slice_zero,← slice_zero,
        slice_append text (Nat.zero_le base) low]
    · exact (scanner u text).clean_trans (Nat.zero_le base) low state.clean clean
    · rw [placed,state.written,emitted]
      exact (splice_cut (scanner u text) text r.placeholder (Nat.le_refl 0) (Nat.zero_le base) low
        state.clean).symm
    · intro label
      rw [stats,recorded label,(scanner u text).taken_append (Nat.zero_le base) low state.clean,
        List.map_append,List.count_append,← state.counted label]
      rfl

theorem InStep.feedAll {text out : Str} {base : Nat} {r : StreamRedactor}
    (state : InStep u text base out r) (chunks : List Str)
    (next : text.drop (base+r.buffer.length) = chunks.flatten) :
    ∃ emit r' base', r.feedAll u chunks = .ok (emit,r') ∧ InStep u text base' (out++emit) r' ∧
      base'+r'.buffer.length = text.length ∧ r'.placeholder = r.placeholder := by
  induction chunks generalizing out base r with
  | nil =>
    have ended : text.length ≤ base+r.buffer.length := List.drop_eq_nil_iff.mp next
    have inside := state.window.inside
    exact ⟨[],r,base,rfl,by simpa using state,by omega,rfl⟩
  | cons chunk rest ih =>
    have sized := congrArg List.length next
    simp only [List.length_drop,List.flatten_cons,List.length_append] at sized
    have here : slice text (base+r.buffer.length) (base+r.buffer.length+chunk.length) = chunk := by
      rw [slice_eq,next,Nat.add_sub_cancel_left]
      exact List.take_left
    obtain ⟨emit,r₁,base₁,fed,state₁,last₁,placed₁⟩ := state.feed u chunk here
    have next₁ : text.drop (base₁+r₁.buffer.length) = rest.flatten := by
      rw [last₁,← List.drop_drop,next]
      exact List.drop_left
    obtain ⟨more,r₂,base₂,fedAll,state₂,last₂,placed₂⟩ := ih state₁ next₁
    refine ⟨emit++more,r₂,base₂,?_,by simpa using state₂,last₂,placed₂.trans placed₁⟩
    simp only [StreamRedactor.feedAll,fed,fedAll,bind,Except.bind]
    rfl

theorem InStep.flush {text out : Str} {base : Nat} {r : StreamRedactor}
    (state : InStep u text base out r) (ended : base+r.buffer.length = text.length) :
    out ++ (r.flush u).1 = redactComplete u text r.placeholder ∧
      ∀ label, (r.flush u).2.stats.redactions label =
        (((scanner u text).hits 0).map Hit.label).count label := by
  have w := state.window
  rw [ended] at w
  have size := w.context_length
  have room := w.buffer_length
  have order := w.order
  have front := w.front_length
  have whole : text.take (base-r.leftContext.length) ++ (r.leftContext++r.buffer) = text := by
    rw [← w.split,List.take_length]
  have scan := w.hits u
  rw [List.take_length] at scan
  have place : base-r.leftContext.length+r.leftContext.length = base := by omega
  have last : base-r.leftContext.length+(r.leftContext++r.buffer).length = text.length := by
    rw [List.length_append]
    omega
  have all : (scanner u text).hits 0 = (scanner u text).taken 0 base ++ (scanner u text).hits base :=
    (scanner u text).hits_cut (Nat.zero_le base) state.clean
  constructor
  · have rest : (r.flush u).1 =
        splice text r.placeholder text.length base ((scanner u text).hits base) := by
      simp only [StreamRedactor.flush,state.opened,Bool.false_eq_true,if_false,redactCompleteFrom,
        redactRange_eq]
      have shifted := splice_shift (text.take (base-r.leftContext.length)) (r.leftContext++r.buffer)
        r.placeholder (r.leftContext++r.buffer).length r.leftContext.length
        ((scanner u (r.leftContext++r.buffer)).hits r.leftContext.length)
      rw [front,whole,place,last,← scan] at shifted
      exact shifted.symm
    rw [rest,redactComplete_eq,state.written]
    exact (splice_cut (scanner u text) text r.placeholder (Nat.le_refl 0) (Nat.zero_le base)
      (by omega) state.clean).symm
  · intro label
    have rest : (r.flush u).2.stats.redactions label = r.stats.redactions label +
        (((scanner u text).hits base).map Hit.label).count label := by
      simp only [StreamRedactor.flush,state.opened,Bool.false_eq_true,if_false,redactCompleteFrom,
        redactRange_eq,recordAll_redactions]
      rw [scan,List.map_map,taken_whole]
      rfl
    rw [rest,state.counted label,all,List.map_append,List.count_append]

theorem feedAll_flush {chunks : List Str} {placeholder out : Str} {r : StreamRedactor}
    (fed : (StreamRedactor.init MAX_HOLDBACK placeholder).feedAll u chunks = .ok (out,r)) :
    out ++ (r.flush u).1 = redactComplete u chunks.flatten placeholder := by
  obtain ⟨text,r',base,run,state,ended,placed⟩ :=
    (InStep.init u chunks.flatten placeholder).feedAll u chunks (by simp [StreamRedactor.init])
  rw [fed,Except.ok.injEq,Prod.mk.injEq] at run
  obtain ⟨rfl,rfl⟩ := run
  have written := (state.flush u ended).1
  rwa [List.nil_append,placed] at written

theorem feedAll_snoc {r last final : StreamRedactor} {chunks : List Str} {out safe chunk : Str}
    (fed : r.feedAll u chunks = .ok (out,last)) (next : last.feed u chunk = .ok (safe,final)) :
    r.feedAll u (chunks ++ [chunk]) = .ok (out ++ safe,final) := by
  induction chunks generalizing r out with
  | nil =>
    simp only [StreamRedactor.feedAll,Except.ok.injEq,Prod.mk.injEq] at fed
    obtain ⟨rfl,rfl⟩ := fed
    simp [StreamRedactor.feedAll,next,bind,Except.bind,pure,Except.pure]
  | cons first rest ih =>
    simp only [StreamRedactor.feedAll,List.cons_append,bind,Except.bind] at fed ⊢
    cases head : r.feed u first with
    | error e => simp [head] at fed
    | ok pair =>
      simp only [head] at fed ⊢
      cases tail : pair.2.feedAll u rest with
      | error e => simp [tail] at fed
      | ok done =>
        obtain ⟨more,stop⟩ := done
        simp only [tail,pure,Except.pure,Except.ok.injEq,Prod.mk.injEq] at fed
        obtain ⟨rfl,rfl⟩ := fed
        simp only [ih tail,pure,Except.pure,List.append_assoc]

theorem redactCompleteStats_redactions (text placeholder : Str) (label : Label) :
    (redactCompleteStats u text .zero placeholder).2.redactions label =
      (((scanner u text).hits 0).map Hit.label).count label := by
  simp only [redactCompleteStats,redactRange_eq,recordAll_redactions]
  rw [taken_whole,RedactionStats.zero,Nat.zero_add]

/-- Cutting a text into chunks, feeding them and flushing gives the redaction of the whole
text, and the counts of the whole-string pass. -/
theorem streaming_redacts_whole (chunks : List Str) (placeholder : Str) :
    ∃ out r, (StreamRedactor.init MAX_HOLDBACK placeholder).feedAll u chunks = .ok (out,r) ∧
      out ++ (r.flush u).1 = redactComplete u chunks.flatten placeholder ∧
      (r.flush u).2.stats.redactions =
        (redactCompleteStats u chunks.flatten .zero placeholder).2.redactions := by
  obtain ⟨out,r,base,fed,state,ended,placed⟩ :=
    (InStep.init u chunks.flatten placeholder).feedAll u chunks (by simp [StreamRedactor.init])
  obtain ⟨text,counts⟩ := state.flush u ended
  refine ⟨out,r,fed,?_,?_⟩
  · rw [List.nil_append] at text
    rw [text,placed]
    rfl
  · ext label
    rw [counts label,redactCompleteStats_redactions]

end GatewaySuite.Guardrail
