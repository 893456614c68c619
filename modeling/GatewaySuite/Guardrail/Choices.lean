import GatewaySuite.Guardrail.Turns

/-! One redactor for every choice of a stream. It keeps the choices apart as long as a
choice's turn ends with nothing withheld; what it then writes for a choice is what the
choice's own text gives, unless a turn starts at a key whose word boundary only one of the
two texts shows, or a match of the choice reaches over the flush. -/
namespace GatewaySuite.Guardrail
open Lib Python
variable (u : Unicode)

/-- The contents that the redactor is fed before its flush. -/
def fedBefore : List Task → List (Option Int × Str)
  | .feed owner content::rest => (owner,content)::fedBefore rest
  | _ => []

/-- The index that the flush is written under. -/
def flushOwner : List Task → Option Int
  | .flush owner::_ => owner
  | _::rest => flushOwner rest
  | [] => none

/-- The contents that are redacted one by one after the flush. -/
def fedBehind : List Task → List (Option Int × Str)
  | .whole owner content::rest => (owner,content)::fedBehind rest
  | _::rest => fedBehind rest
  | [] => []

/-- The matches of texts scanned one by one, at their places in the joined text. -/
def matchesApart : Nat → List Str → List Match
  | _,[] => []
  | place,text::rest =>
    (iterMatches u text 0).map (Hit.shift place) ++ matchesApart (place+text.length) rest

/-- The text of a choice before the flush, and each of its contents behind the flush. -/
def partsOf (fed later : List (Option Int × Str)) (i : Option Int) : List Str :=
  under (· == i) fed :: (later.filter fun x => x.1 == i).map Prod.snd

/-- In the text of a choice with contents behind the flush no match depends on their being
scanned apart. -/
def Joined (tasks : List Task) : Prop :=
  ∀ x ∈ fedBehind tasks, let parts := partsOf (fedBefore tasks) (fedBehind tasks) x.1
    (iterMatches u parts.flatten 0).map Hit.span = (matchesApart u 0 parts).map Hit.span

instance (tasks : List Task) : Decidable (Joined u tasks) := inferInstanceAs (Decidable (∀ x ∈ _,_))

/-- The condition under which the schedule keeps the choices apart. -/
structure Separate (tasks : List Task) : Prop where
  settled : Settled u (flushOwner tasks) (turns none [] (fedBefore tasks))
  alike : ∀ turn ∈ placed [] (fun _ => []) (turns none [] (fedBefore tasks)), turn.Alike u
  joined : Joined u tasks

def fedBy (redactor : StreamRedactor) (chunk : Str) : StreamRedactor :=
  match redactor.feed u chunk with
  | .ok (_,next) => next
  | .error _ => redactor

/-- The redactor releases characters under the index of their own choice alone. `held` has
the indices of the characters in the buffer. -/
def Attributed : StreamRedactor → List (Option Int) → List Task → Prop
  | _,_,[] => True
  | r,held,.feed owner content::rest =>
    let next := fedBy u r content
    let owners := held ++ List.replicate content.length owner
    let released := owners.length-next.buffer.length
    (∀ x ∈ owners.take released, x = owner) ∧ Attributed next (owners.drop released) rest
  | r,held,.flush owner::rest => (∀ x ∈ held, x = owner) ∧ Attributed (r.flush u).2 [] rest
  | r,held,.whole _ _::rest => Attributed r held rest

theorem plan_parts (fed later : List (Option Int × Str)) (owner : Option Int) :
    let tasks := fed.map feedTask ++ .flush owner :: later.map wholeTask
    fedBefore tasks = fed ∧ flushOwner tasks = owner ∧ fedBehind tasks = later := by
  intro tasks
  have behind : fedBehind (later.map wholeTask) = later := by
    induction later with
    | nil => rfl
    | cons x rest ih => simp only [List.map_cons,wholeTask,fedBehind] at ih ⊢; rw [ih]
  induction fed with
  | nil => exact ⟨rfl,rfl,behind⟩
  | cons x rest ih => exact ⟨congrArg (x :: ·) ih.1,ih.2.1,ih.2.2⟩

theorem matchesApart_start (place : Nat) (texts : List Str) :
    ∀ h ∈ matchesApart u place texts, place ≤ h.start := by
  induction texts generalizing place with
  | nil => simp [matchesApart]
  | cons text rest ih =>
    intro h member
    rcases List.mem_append.mp member with first | later
    · obtain ⟨old,_,rfl⟩ := List.mem_map.mp first
      exact Nat.le_add_right place old.start
    · have low := ih (place+text.length) h later
      omega

theorem splice_apart (front : Str) (texts : List Str) :
    splice (front ++ texts.flatten) DEFAULT_PLACEHOLDER (front ++ texts.flatten).length front.length
        (matchesApart u front.length texts) =
      (texts.map fun text => redactComplete u text DEFAULT_PLACEHOLDER).flatten := by
  induction texts generalizing front with
  | nil => simp [matchesApart,splice]
  | cons text rest ih =>
    have tail := ih (front ++ text)
    have size : (front ++ text).length = front.length+text.length := List.length_append
    have within : (front ++ text).length ≤ (front ++ text ++ rest.flatten).length := by simp
    have inside : ∀ h ∈ (iterMatches u text 0).map (Hit.shift front.length),
        h.start < h.stop ∧ h.stop ≤ (front ++ text).length := by
      intro h member
      obtain ⟨old,found,rfl⟩ := List.mem_map.mp member
      rw [iterMatches_eq] at found
      have bounds := (scanner u text).hit_bounds 0 old found
      have top : old.stop ≤ text.length := bounds.2.2.1
      simp only [Hit.shift,size]
      omega
    have first : splice (front ++ text ++ rest.flatten) DEFAULT_PLACEHOLDER (front ++ text).length
        front.length ((iterMatches u text 0).map (Hit.shift front.length)) =
          redactComplete u text DEFAULT_PLACEHOLDER := by
      rw [splice_left _ _ _ _ le_rfl fun h member => (inside h member).1,size,splice_front,
        iterMatches_eq,redactComplete_eq]
    rw [List.flatten_cons,← List.append_assoc,matchesApart,← size,
      splice_append _ _ _ _ (by omega) within (fun h member => (inside h member).2)
        (matchesApart_start u _ rest),first,tail]
    rfl

theorem redactComplete_apart {texts : List Str}
    (same : (iterMatches u texts.flatten 0).map Hit.span = (matchesApart u 0 texts).map Hit.span) :
    redactComplete u texts.flatten DEFAULT_PLACEHOLDER =
      (texts.map fun text => redactComplete u text DEFAULT_PLACEHOLDER).flatten := by
  rw [redactComplete_eq,← iterMatches_eq,splice_spans _ _ _ _ same]
  exact splice_apart u [] texts

/-- The shared redactor in the middle of a turn: `stream` is the text before the turn, `text`
the turn's own so far, `sofar` what was written in it. -/
structure Shared (r : StreamRedactor) (stream text sofar : Str) : Prop where
  opened : r.closed = false
  capped : r.maxHoldback = MAX_HOLDBACK
  marked : r.placeholder = DEFAULT_PLACEHOLDER
  ended : holdback u stream MAX_HOLDBACK = 0
  fed : ∃ chunks, chunks.flatten = stream ++ text ∧
    (StreamRedactor.init MAX_HOLDBACK DEFAULT_PLACEHOLDER).feedAll u chunks =
      .ok (redactBehind u [] stream ++ sofar,r)
  kept : ∃ gone, text = gone ++ r.buffer ∧
    ∀ p < gone.length, text.length-p ≤ MAX_HOLDBACK → ¬ OpenAt u text p
  held : holdback u text MAX_HOLDBACK = 0 → r.buffer = []

theorem Shared.init : Shared u (.init MAX_HOLDBACK DEFAULT_PLACEHOLDER) [] [] [] where
  opened := rfl
  capped := rfl
  marked := rfl
  ended := rfl
  fed := ⟨[],rfl,by rw [redactBehind_nil]; rfl⟩
  kept := ⟨[],rfl,by simp⟩
  held := fun _ => rfl

namespace Shared
variable {u : Unicode} {r : StreamRedactor} {stream text sofar : Str}

theorem buffer_nil (shared : Shared u r stream text sofar) :
    r.buffer = [] ↔ holdback u text MAX_HOLDBACK = 0 := by
  refine ⟨fun empty => ?_,shared.held⟩
  obtain ⟨gone,split,closed⟩ := shared.kept
  rw [empty,List.append_nil] at split
  rw [holdback_zero]
  intro p below
  rw [split] at below
  exact closed p below

private theorem closed_step {gone buffer content : Str} {cut : Nat}
    (closed : ∀ p < gone.length, (gone ++ buffer).length-p ≤ MAX_HOLDBACK → ¬ OpenAt u (gone ++ buffer) p)
    (high : cut ≤ (buffer ++ content).length-holdback u (buffer ++ content) MAX_HOLDBACK) :
    ∀ p < (gone ++ (buffer ++ content).take cut).length,
      (gone ++ (buffer ++ content)).length-p ≤ MAX_HOLDBACK →
      ¬ OpenAt u (gone ++ (buffer ++ content)) p := by
  intro p below fits opened
  simp only [List.length_append,List.length_take] at below fits high
  rcases Nat.lt_or_ge p gone.length with early | late
  · refine closed p early (by rw [List.length_append]; omega) ?_
    rw [← List.append_assoc] at opened
    exact opened.left (by rw [List.length_append]; omega)
  -- what the window withholds covers every open position of it
  · obtain ⟨q,rfl⟩ := Nat.exists_eq_add_of_le late
    have near : (buffer ++ content).length-q ≤ MAX_HOLDBACK := by
      rw [List.length_append]
      omega
    have covered := holdback_covers u (by rw [List.length_append]; omega) near
      (OpenAt.behind.mp opened)
    rw [List.length_append] at covered
    omega

theorem feed (shared : Shared u r stream text sofar) (content : Str) :
    ∃ safe next, r.feed u content = .ok (safe,next) ∧
      Shared u next stream (text ++ content) (sofar ++ safe) ∧
      next.buffer.length ≤ r.buffer.length+content.length := by
  by_cases empty : content = []
  · subst content
    refine ⟨[],r,by simp [StreamRedactor.feed,shared.opened],?_,Nat.le_refl _⟩
    simpa using shared
  · obtain ⟨next,run,opened,capped,placed,kept,_⟩ :=
      feed_window u r content shared.opened empty shared.capped
    obtain ⟨chunks,whole,fed⟩ := shared.fed
    obtain ⟨gone,split,closed⟩ := shared.kept
    have high := windowCut_le u r.leftContext (r.buffer ++ content)
    have total : text ++ content = gone ++ (r.buffer ++ content) := by rw [split,List.append_assoc]
    refine ⟨_,next,run,⟨opened,capped,placed.trans shared.marked,shared.ended,?_,?_,?_⟩,?_⟩
    · refine ⟨chunks ++ [content],by simp [whole],?_⟩
      rw [← List.append_assoc]
      exact feedAll_snoc u fed run
    · rw [total,kept]
      rw [split] at closed
      exact ⟨_,by rw [List.append_assoc,List.take_append_drop],closed_step closed high⟩
    · intro ended
      rw [total] at ended
      rw [kept,windowCut_full u _ (holdback_behind u ended),List.drop_length]
    · rw [kept,List.length_drop,List.length_append]
      omega

theorem flush (shared : Shared u r stream text sofar) :
    sofar ++ (r.flush u).1 = redactBehind u stream text := by
  obtain ⟨chunks,whole,fed⟩ := shared.fed
  have all := feedAll_flush u fed
  rw [whole,← redactBehind_start,redactBehind_append u shared.ended,List.nil_append,
    List.append_assoc] at all
  exact List.append_cancel_left all

theorem flush_nil (shared : Shared u r stream text sofar) (empty : r.buffer = []) :
    (r.flush u).1 = [] := by
  rw [flush_window u r shared.opened,empty,
    (windowScanner u r.leftContext []).hits_top (Nat.le_refl 0)]
  rfl

/-- A turn that ends with nothing withheld is written when the next one starts. -/
theorem turn (shared : Shared u r stream text sofar) (ended : holdback u text MAX_HOLDBACK = 0) :
    sofar = redactBehind u stream text ∧ Shared u r (stream ++ text) [] [] := by
  have empty := shared.held ended
  have written : sofar = redactBehind u stream text := by
    rw [← shared.flush,shared.flush_nil empty,List.append_nil]
  obtain ⟨chunks,whole,fed⟩ := shared.fed
  refine ⟨written,shared.opened,shared.capped,shared.marked,holdback_append u shared.ended ended,
    ⟨chunks,by rw [whole,List.append_nil],?_⟩,⟨[],empty.symm,by simp⟩,fun _ => empty⟩
  rw [fed,written,redactBehind_append u shared.ended,List.nil_append,List.append_nil]

end Shared

/-- While every turn ends with nothing withheld, the feeds and the flush write for each index
its turns, each redacted behind the text of the stream. -/
theorem Shared.feeds {u : Unicode} {r : StreamRedactor} {stream text sofar : Str}
    {holder flushed : Option Int} (shared : Shared u r stream text sofar)
    (fed : List (Option Int × Str)) (settled : Settled u flushed (turns holder text fed))
    (own : Option Int → Str) :
    ∃ written next, performAll u r (fed.map feedTask) = .ok (written,next) ∧
      ∀ i, (if i = holder then sofar else []) ++ under (· == i) written ++
          (if i = flushed then (next.flush u).1 else []) =
        under (· == i) ((placed stream own (turns holder text fed)).map
          fun turn => (turn.owner,redactBehind u turn.stream turn.text)) := by
  induction fed generalizing r stream text sofar holder own with
  | nil =>
    obtain ⟨ends,_⟩ := settled
    refine ⟨[],r,rfl,fun i => ?_⟩
    simp only [turns,placed,List.map_cons,List.map_nil,under_own,under_nil,List.append_nil]
    rw [← shared.flush]
    rcases ends with ended | ⟨_,rfl⟩
    · rw [shared.flush_nil (shared.held ended),ite_self,List.append_nil,List.append_nil]
    · split_ifs <;> simp
  | cons x rest ih =>
    obtain ⟨owner,content⟩ := x
    have step {redactor next : StreamRedactor} {safe : Str} (run : redactor.feed u content = .ok (safe,next)) :
        perform u redactor (feedTask (owner,content)) = .ok ((owner,safe),next) := by
      simp [feedTask,perform,run,bind,Except.bind,pure,Except.pure]
    rw [turns] at settled ⊢
    by_cases joins : content = [] ∨ owner = holder
    · rw [if_pos joins] at settled ⊢
      obtain ⟨safe,next,run,shared',_⟩ := shared.feed content
      obtain ⟨written,last,runs,same⟩ := ih shared' settled own
      refine ⟨(owner,safe)::written,last,?_,fun i => ?_⟩
      · simp only [List.map_cons,performAll,step run,runs,bind,Except.bind,pure,Except.pure]
      · rw [← same i,under_own]
        rcases joins with rfl | rfl
        · obtain ⟨rfl,rfl⟩ : [] = safe ∧ r = next := by
            simpa [StreamRedactor.feed,shared.opened] using run
          simp
        · by_cases mine : i = owner <;> simp [mine]
    · rw [if_neg joins] at settled ⊢
      obtain ⟨ends,after⟩ := settled
      have ended : holdback u text MAX_HOLDBACK = 0 := by
        rcases ends with ended | ⟨none,_⟩
        · exact ended
        · exact absurd none (turns_some owner content rest)
      obtain ⟨wrote,fresh⟩ := shared.turn ended
      obtain ⟨safe,next,run,shared',_⟩ := fresh.feed content
      rw [List.nil_append,List.nil_append] at shared'
      obtain ⟨written,last,runs,same⟩ :=
        ih shared' after (Function.update own holder (own holder ++ text))
      refine ⟨(owner,safe)::written,last,?_,fun i => ?_⟩
      · simp only [List.map_cons,performAll,step run,runs,bind,Except.bind,pure,Except.pure]
      · rw [placed,List.map_cons,under_own,under_own,← same i,wrote]
        simp only [List.append_assoc]

theorem fedBy_eq {r next : StreamRedactor} {content safe : Str} (run : r.feed u content = .ok (safe,next)) :
    fedBy u r content = next := by
  simp only [fedBy,run]

private theorem mixed_step {held : List (Option Int)} {owner z : Option Int} {n k : Nat}
    (positive : 0 < n) (alone : ∀ z ∈ (held ++ List.replicate n owner).take k, z = owner)
    (inside : z ∈ held) (other : z ≠ owner) :
    z ∈ (held ++ List.replicate n owner).drop k ∧ owner ∈ (held ++ List.replicate n owner).drop k := by
  rcases Nat.lt_or_ge held.length k with beyond | short
  · rw [List.take_append,List.take_of_length_le beyond.le] at alone
    exact absurd (alone z (List.mem_append_left _ inside)) other
  · rw [List.take_append_of_le_length short] at alone
    rw [List.drop_append_of_le_length short]
    have kept : z ∈ held.drop k := by
      rw [← List.take_append_drop k held] at inside
      exact (List.mem_append.mp inside).resolve_left fun gone => other (alone z gone)
    exact ⟨List.mem_append_left _ kept,
      List.mem_append_right _ (List.mem_replicate.mpr ⟨by omega,rfl⟩)⟩

private theorem owners_length {held : List (Option Int)} {buffer next : Str} {owner : Option Int} {n : Nat}
    (size : held.length = buffer.length) (short : next.length ≤ buffer.length+n) :
    ((held ++ List.replicate n owner).drop
      ((held ++ List.replicate n owner).length-next.length)).length = next.length := by
  rw [List.length_drop,List.length_append,List.length_replicate]
  omega

/-- Characters of two choices in the buffer stay together until one of them is released
under the index of the other. -/
theorem Shared.mixed {u : Unicode} {r : StreamRedactor} {stream text sofar : Str}
    (shared : Shared u r stream text sofar) {held : List (Option Int)}
    (size : held.length = r.buffer.length) {x y : Option Int} (first : x ∈ held) (second : y ∈ held)
    (differ : x ≠ y) (fed : List (Option Int × Str)) (flushed : Option Int) (rest : List Task) :
    ¬ Attributed u r held (fed.map feedTask ++ .flush flushed :: rest) := by
  induction fed generalizing r text sofar held x y with
  | nil =>
    rintro ⟨all,_⟩
    exact differ ((all x first).trans (all y second).symm)
  | cons task more ih =>
    obtain ⟨owner,content⟩ := task
    obtain ⟨safe,next,run,shared',short⟩ := shared.feed content
    rintro ⟨alone,after⟩
    rw [fedBy_eq u run] at alone after
    by_cases empty : content = []
    · obtain ⟨rfl,rfl⟩ : [] = safe ∧ r = next := by
        simpa [StreamRedactor.feed,shared.opened,empty] using run
      have same : (held ++ List.replicate content.length owner).drop
          ((held ++ List.replicate content.length owner).length-r.buffer.length) = held := by
        simp [empty,size]
      rw [same] at after
      exact ih shared size first second differ after
    · obtain ⟨z,inside,other⟩ : ∃ z ∈ held, z ≠ owner := by
        by_cases mine : x = owner
        · exact ⟨y,second,fun same => differ (mine.trans same.symm)⟩
        · exact ⟨x,first,mine⟩
      obtain ⟨one,two⟩ := mixed_step (List.length_pos_of_ne_nil empty) alone inside other
      exact ih shared' (owners_length size short) one two other after

/-- Every character is released under its own index exactly if every turn ends with nothing
withheld, or is the last one and of the index of the flush. -/
theorem Shared.attributed_iff {u : Unicode} {r : StreamRedactor} {stream text sofar : Str}
    {holder : Option Int} (shared : Shared u r stream text sofar) (fed : List (Option Int × Str))
    (flushed : Option Int) (later : List (Option Int × Str)) :
    Attributed u r (List.replicate r.buffer.length holder)
        (fed.map feedTask ++ .flush flushed :: later.map wholeTask) ↔
      Settled u flushed (turns holder text fed) := by
  induction fed generalizing r stream text sofar holder with
  | nil =>
    have behind (redactor : StreamRedactor) : Attributed u redactor [] (later.map wholeTask) := by
      induction later with
      | nil => trivial
      | cons x rest ih => exact ih
    simp only [List.map_nil,List.nil_append,Attributed,behind,and_true,turns,Settled,true_and,
      List.mem_replicate,ne_eq,List.length_eq_zero_iff,shared.buffer_nil,and_imp]
    constructor
    · intro released
      by_cases ended : holdback u text MAX_HOLDBACK = 0
      · exact Or.inl ended
      · exact Or.inr (released holder ended rfl)
    · rintro ends x held rfl
      exact ends.resolve_left held
  | cons x rest ih =>
    obtain ⟨owner,content⟩ := x
    obtain ⟨safe,next,run,shared',short⟩ := shared.feed content
    rw [turns]
    simp only [List.map_cons,List.cons_append,feedTask,Attributed,fedBy_eq u run]
    by_cases same : content = [] ∨ owner = holder
    · have owners : List.replicate r.buffer.length holder ++ List.replicate content.length owner =
          List.replicate (r.buffer.length+content.length) holder := by
        rcases same with rfl | rfl
        · simp
        · exact List.replicate_append_replicate
      have remains : r.buffer.length+content.length-
          (r.buffer.length+content.length-next.buffer.length) = next.buffer.length := by omega
      rw [if_pos same,owners,List.length_replicate,List.take_replicate,List.drop_replicate,remains,
        ih shared',and_iff_right_iff_imp]
      intro _ x member
      obtain ⟨some,rfl⟩ := List.mem_replicate.mp member
      rcases same with rfl | rfl
      · obtain ⟨rfl,rfl⟩ : [] = safe ∧ r = next := by
          simpa [StreamRedactor.feed,shared.opened] using run
        simp at some
      · rfl
    · rw [if_neg same]
      obtain ⟨full,foreign⟩ := not_or.mp same
      by_cases ended : holdback u text MAX_HOLDBACK = 0
      · have fresh := (shared.turn ended).2
        obtain ⟨_,_,again,started,_⟩ := fresh.feed content
        obtain ⟨rfl,rfl⟩ := Prod.mk.inj (Except.ok.inj (run.symm.trans again))
        rw [shared.held ended,List.length_nil,Nat.zero_add] at short
        have remains : content.length-(content.length-next.buffer.length) = next.buffer.length := by omega
        rw [shared.held ended,List.length_nil,List.replicate_zero,List.nil_append,
          List.length_replicate,List.take_replicate,List.drop_replicate,remains,ih started,Settled,
          and_iff_right fun x member => (List.mem_replicate.mp member).2,and_iff_right (Or.inl ended)]
        rfl
      · constructor
        · rintro ⟨alone,after⟩
          have filled : 0 < r.buffer.length :=
            List.length_pos_of_ne_nil (mt shared.buffer_nil.mp ended)
          obtain ⟨one,two⟩ := mixed_step (List.length_pos_of_ne_nil full) alone
            (List.mem_replicate.mpr ⟨filled.ne',rfl⟩) (Ne.symm foreign)
          exact absurd after
            (shared'.mixed (owners_length (by simp) short) one two (Ne.symm foreign) rest flushed _)
        · rintro ⟨ends,_⟩
          rcases ends with closed | ⟨none,_⟩
          · exact absurd closed ended
          · exact absurd none (turns_some owner content rest)

/-- Before the first turn the buffer is empty. -/
theorem Shared.start (fed later : List (Option Int × Str)) (flushed : Option Int) :
    Attributed u (.init MAX_HOLDBACK DEFAULT_PLACEHOLDER) []
        (fed.map feedTask ++ .flush flushed :: later.map wholeTask) ↔
      Settled u flushed (turns none [] fed) :=
  (Shared.init u).attributed_iff fed flushed later

def messageOf (choice : Dict) : Option Str :=
  (((choice.get "message").bind Json.dict?).bind fun message => message.get "content").bind Json.str?

theorem redactMessage_spec (choice : Dict) :
    choiceIndex (redactMessage u choice) = choiceIndex choice ∧
      messageOf (redactMessage u choice) =
        (messageOf choice).map fun text => redactComplete u text DEFAULT_PLACEHOLDER := by
  have apart : lit "index" ≠ lit "message" := by decide
  unfold redactMessage
  split
  next message found =>
    split
    next content text =>
      refine ⟨by simp only [choiceIndex,Dict.get_set_ne _ _ apart],?_⟩
      simp [messageOf,found,text,Json.dict?,Json.str?]
    next silent =>
      refine ⟨rfl,?_⟩
      have nothing : messageOf choice = none := by
        simp only [messageOf,found,Option.bind_some,Json.dict?]
        cases shape : Dict.get message "content" with
        | none => rfl
        | some value => cases value <;> simp_all [Json.str?]
      rw [nothing,Option.map_none]
  next silent =>
    refine ⟨rfl,?_⟩
    have nothing : messageOf choice = none := by
      simp only [messageOf]
      cases shape : Dict.get choice "message" with
      | none => rfl
      | some value => cases value <;> simp_all [Json.dict?]
    rw [nothing,Option.map_none]

theorem choicesOf_redactBody (data : Dict) :
    choicesOf (redactBody u data) = (choicesOf data).map (redactMessage u) := by
  unfold redactBody
  split
  next items found =>
    simp only [choicesOf,Dict.get_set,found,List.filterMap_map,List.map_filterMap]
    congr 1
    funext item
    cases item <;> rfl
  next absent =>
    have nothing : choicesOf data = [] := by
      unfold choicesOf
      split
      next items found => exact absurd found (absent items)
      next => rfl
    rw [nothing,List.map_nil]

theorem partsOf_flatten (fed later : List (Option Int × Str)) (i : Option Int) :
    (partsOf fed later i).flatten = under (· == i) (fed ++ later) := by
  rw [under_append]
  rfl

theorem Joined.parts {u : Unicode} {tasks : List Task} (joined : Joined u tasks) (i : Option Int) :
    redactComplete u (under (· == i) (fedBefore tasks ++ fedBehind tasks)) DEFAULT_PLACEHOLDER =
      redactComplete u (under (· == i) (fedBefore tasks)) DEFAULT_PLACEHOLDER ++
        under (· == i) ((fedBehind tasks).map fun x => (x.1,redactComplete u x.2 DEFAULT_PLACEHOLDER)) := by
  have apart : (iterMatches u (partsOf (fedBefore tasks) (fedBehind tasks) i).flatten 0).map Hit.span =
      (matchesApart u 0 (partsOf (fedBefore tasks) (fedBehind tasks) i)).map Hit.span := by
    by_cases some : ∃ x ∈ fedBehind tasks, x.1 = i
    · obtain ⟨x,member,rfl⟩ := some
      exact joined x member
    · have none : (fedBehind tasks).filter (fun x => x.1 == i) = [] := by
        rw [List.filter_eq_nil_iff]
        exact fun x member same => some ⟨x,member,eq_of_beq same⟩
      have still : Hit.shift 0 = (id : Match → Match) := by
        funext h
        simp [Hit.shift]
      rw [partsOf,none]
      simp [matchesApart,still]
  have later : ((partsOf (fedBefore tasks) (fedBehind tasks) i).tail.map
      fun text => redactComplete u text DEFAULT_PLACEHOLDER).flatten =
        under (· == i) ((fedBehind tasks).map fun x => (x.1,redactComplete u x.2 DEFAULT_PLACEHOLDER)) := by
    simp only [partsOf,List.tail_cons,under,List.filter_map,List.map_map]
    rfl
  rw [← partsOf_flatten,redactComplete_apart u apart,← later]
  rfl

/-- While the schedule keeps the choices apart, the stream releases every character under the
index of its own choice and delivers under each index the redaction of that choice's text, as
a body with those texts does that does not stream. A stream that does so keeps to the
condition, unless a match of a choice depends on the flush. -/
theorem choices_redacted (loads : Loads) (lines : List Str)
    (parses : ∀ line ∈ lines, ∀ error, readLine u loads line ≠ .raises error) :
    let tasks := schedule (lines.map (readLine u loads)) false none
    let text := fun i => under (· == i) (upstream (lines.map (readLine u loads)))
    ∃ out last, redactSseStream u loads lines (.init MAX_HOLDBACK DEFAULT_PLACEHOLDER) =
        (out,last,none) ∧
      (Separate u tasks →
        Attributed u (.init MAX_HOLDBACK DEFAULT_PLACEHOLDER) [] tasks ∧
        (∀ i, under (· == i) (delivered out) = redactComplete u (text i) DEFAULT_PLACEHOLDER) ∧
        ∀ data, (∀ choice ∈ choicesOf data, messageOf choice = some (text (choiceIndex choice))) →
          ∀ choice ∈ choicesOf (redactBody u data),
            messageOf choice = some (under (· == choiceIndex choice) (delivered out))) ∧
      (Attributed u (.init MAX_HOLDBACK DEFAULT_PLACEHOLDER) [] tasks → Joined u tasks →
        (∀ i, under (· == i) (delivered out) = redactComplete u (text i) DEFAULT_PLACEHOLDER) →
        Separate u tasks) := by
  intro tasks text
  obtain ⟨out,next,_,whole,renders⟩ :=
    redactSseStream_spec u loads lines (.init MAX_HOLDBACK DEFAULT_PLACEHOLDER) rfl parses
  obtain ⟨fed,owner,later,all,planned⟩ := schedule_shape (lines.map (readLine u loads)) none
  obtain ⟨before,flush,behind⟩ := plan_parts fed later owner
  rw [← planned] at before flush behind
  have attributed : Attributed u (.init MAX_HOLDBACK DEFAULT_PLACEHOLDER) [] tasks ↔
      Settled u owner (turns none [] fed) := by
    simp only [tasks,planned]
    exact Shared.start u fed later owner
  rw [planned] at renders
  obtain ⟨written,performed,same⟩ := renders.performed
  obtain ⟨feeds,redactor,fedRun,rfl⟩ := performAll_plan u performed
  have agree (settled : Settled u owner (turns none [] fed)) (joined : Joined u tasks) :
      (∀ i, under (· == i) (delivered (out ++ (sseEnd u next).1)) =
        redactComplete u (text i) DEFAULT_PLACEHOLDER) ↔
      ∀ turn ∈ placed [] (fun _ => []) (turns none [] fed), turn.Alike u := by
    obtain ⟨feeds',redactor',fedRun',streamed⟩ := (Shared.init u).feeds fed settled fun _ => []
    obtain ⟨rfl,rfl⟩ := Prod.mk.inj (Except.ok.inj (fedRun.symm.trans fedRun'))
    rw [← turns_agree u _ (settled.fenced rfl fun _ => rfl)]
    refine forall_congr' fun i => ?_
    have owned := settled.owned [] (fun _ => []) i
    have parts := joined.parts i
    rw [turns_under,ite_self,List.nil_append,redactBehind_start] at owned
    rw [before,behind,← all,owned] at parts
    have wrote := streamed i
    rw [ite_self,List.nil_append] at wrote
    rw [same,under_append,under_own,← List.append_assoc,wrote,parts]
    exact List.append_left_inj _
  have streams (separate : Separate u tasks) (i : Option Int) :
      under (· == i) (delivered (out ++ (sseEnd u next).1)) =
        redactComplete u (text i) DEFAULT_PLACEHOLDER := by
    obtain ⟨settled,alike,joined⟩ := separate
    rw [before,flush] at settled
    rw [before] at alike
    exact (agree settled joined).mpr alike i
  refine ⟨out ++ (sseEnd u next).1,(sseEnd u next).2,whole,fun separate => ⟨?_,streams separate,?_⟩,?_⟩
  · have settled := separate.settled
    rw [before,flush] at settled
    exact attributed.mpr settled
  · intro data given choice member
    rw [choicesOf_redactBody] at member
    obtain ⟨old,inside,rfl⟩ := List.mem_map.mp member
    obtain ⟨index,content⟩ := redactMessage_spec u old
    rw [content,index,given old inside,Option.map_some,streams separate]
  · intro released joined right
    have settled := attributed.mp released
    exact ⟨by rwa [before,flush],by rw [before]; exact (agree settled joined).mp right,joined⟩

def finishFrame (index : Int) : Dict :=
  [(lit "choices",.arr [.obj [(lit "index",.int index),(lit "delta",.obj []),
    (lit "finish_reason",.str (lit "stop"))]])]

def finishPayload (index : Str) : Str :=
  lit "\x7b\"choices\": [\x7b\"index\": " ++ index ++
    lit ", \"delta\": \x7b\x7d, \"finish_reason\": \"stop\"\x7d]\x7d"

def closingFrame (index : Int) (content : Str) : Dict :=
  [(lit "choices",.arr [.obj [(lit "index",.int index),
    (lit "delta",.obj [(lit "content",.str content)]),(lit "finish_reason",.str (lit "stop"))]])]

def closingPayload (index content : Str) : Str :=
  lit "\x7b\"choices\": [\x7b\"index\": " ++ index ++
    lit ", \"delta\": \x7b\"content\": \"" ++ content ++ lit "\"\x7d, \"finish_reason\": \"stop\"\x7d]\x7d"

/-- Turns that end at a blank behind a comma; the first choice to finish is flushed, and the
other one goes on. -/
def apartLoads : Loads := tableLoads
  [(chatPayload (lit "0") (lit "Hi, "),chatFrame 0 (lit "Hi, ")),
    (chatPayload (lit "1") (lit "a@b.co, "),chatFrame 1 (lit "a@b.co, ")),
    (closingPayload (lit "0") (lit "Bye."),closingFrame 0 (lit "Bye.")),
    (closingPayload (lit "1") (lit "c@d.co"),closingFrame 1 (lit "c@d.co"))]

def apartLines : List Str :=
  [chatPayload (lit "0") (lit "Hi, "),chatPayload (lit "1") (lit "a@b.co, "),
    closingPayload (lit "0") (lit "Bye."),closingPayload (lit "1") (lit "c@d.co"),
    lit "[DONE]"].map (lit "data: " ++ ·)

theorem choices_redacted_apart :
    ∃ out last, redactSseStream asciiUnicode apartLoads apartLines
        (.init MAX_HOLDBACK DEFAULT_PLACEHOLDER) = (out,last,none) ∧
      under (· == some 0) (delivered out) = lit "Hi, Bye." ∧
      under (· == some 1) (delivered out) = lit "[REDACTED], [REDACTED]" := by
  obtain ⟨out,last,run,right,_⟩ := choices_redacted asciiUnicode apartLoads apartLines
    fun line _ => readLine_parses asciiUnicode (tableLoads_parses _) line
  obtain ⟨_,agree,_⟩ := right ⟨by decide +kernel,by decide +kernel,by decide +kernel⟩
  exact ⟨out,last,run,(agree (some 0)).trans (by decide +kernel),
    (agree (some 1)).trans (by decide +kernel)⟩

/-- Two choices in turn: the tail held for the first is written under the second. -/
theorem held_tail_changes_choice :
    let loads := tableLoads [(chatPayload (lit "0") (lit "Hello"),chatFrame 0 (lit "Hello")),
      (chatPayload (lit "1") (lit " world"),chatFrame 1 (lit " world")),
      (finishPayload (lit "0"),finishFrame 0),(finishPayload (lit "1"),finishFrame 1)]
    let lines := [chatPayload (lit "0") (lit "Hello"),chatPayload (lit "1") (lit " world"),
      finishPayload (lit "0"),finishPayload (lit "1"),lit "[DONE]"].map (lit "data: " ++ ·)
    let out := (redactSseStream asciiUnicode loads lines (.init MAX_HOLDBACK DEFAULT_PLACEHOLDER)).1
    let text := fun i => under (· == i) (upstream (lines.map (readLine asciiUnicode loads)))
    text (some 0) = lit "Hello" ∧ under (· == some 0) (delivered out) = [] ∧
      under (· == some 1) (delivered out) = lit "Hello world" ∧
      ¬ ∀ i, under (· == i) (delivered out) =
        redactComplete asciiUnicode (text i) DEFAULT_PLACEHOLDER := by
  intro loads lines out text
  have read : text (some 0) = lit "Hello" := by decide +kernel
  have lost : under (· == some 0) (delivered out) = [] := by decide +kernel
  refine ⟨read,lost,by decide +kernel,fun agree => ?_⟩
  have first := agree (some 0)
  rw [lost,read] at first
  have kept : redactComplete asciiUnicode (lit "Hello") DEFAULT_PLACEHOLDER = lit "Hello" := by
    decide +kernel
  rw [kept] at first
  cases first

end GatewaySuite.Guardrail
