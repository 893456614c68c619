import GatewaySuite.Router.Turns
import Mathlib.Data.List.Lemmas

/-! The invariant of the system. What the ledger holds for a call and which of its
transactions are outstanding is determined by where the call is, whatever the other calls
do; a cancelled call leaves a transaction behind in a few known ways. -/
namespace GatewaySuite.Router
open Python Limiter Lib
variable (limiter : SlidingWindowRateLimiter)

/-- The ledger's entry for the reservation of call `c`, before anything became of it. -/
def Call.hold (call : Call) (c : Nat) : Entry :=
  opened c call.apiKey call.estimated call.reservedAt

def held (hold : Entry) : Reservation := ⟨hold.id,hold.apiKey,hold.estimate⟩

def Commits (id : Nat) (works : List Work) : Prop :=
  ∀ work ∈ works, ∃ actual, work = .commit id actual

/-- A reservation that a cancelled call releases, by whether the release has run. A commit
that nobody waits for may be outstanding beside it. -/
inductive Draining (hold : Entry) : Bool → List Entry → List Work → Prop
  | asked (actual : Option Int) (front back : List Work) (before : Commits hold.id front)
      (behind : Commits hold.id back) :
      Draining hold false [{hold with actual := actual}] (front ++ .release hold.id::back)
  | given (actual : Option Int) (works : List Work) (commits : Commits hold.id works) :
      Draining hold true [{hold with actual := actual, released := true}] works

/-- The entries and the outstanding transactions of a call, by its program counter. -/
inductive Sound (hold : Entry) : Pc → List Entry → List Work → Prop
  | reserving : Sound hold (.reserve none) [] [.reserve hold.apiKey hold.estimate hold.createdAt]
  | refusing (error : ReserveError) : Sound hold (.reserve (some (.error error))) [] []
  | reserved : Sound hold (.reserve (some (.ok (held hold)))) [hold] []
  | attempting (provider : Provider) (rest : List Provider) (timeoutS : ℚ) :
      Sound hold (.attempt (held hold) provider rest timeoutS) [hold] []
  | committing (completion : Completion) :
      Sound hold (.commit (held hold) completion false) [hold]
        [.commit hold.id completion.totalTokens]
  | committed (completion : Completion) :
      Sound hold (.commit (held hold) completion true)
        [{hold with actual := some completion.totalTokens}] []
  | releasing (exn : Exn) (plain : exn ≠ .cancelled) :
      Sound hold (.release (held hold) exn false) [hold] [.release hold.id]
  | released (exn : Exn) (plain : exn ≠ .cancelled) :
      Sound hold (.release (held hold) exn true) [{hold with released := true}] []
  | draining (done : Bool) (holds : List Entry) (works : List Work)
      (state : Draining hold done holds works) :
      Sound hold (.release (held hold) .cancelled done) holds works
  | returned (response : RoutedResponse) :
      Sound hold (.ended (.returned response))
        [{hold with actual := some response.completion.totalTokens}] []
  | refused (exn : Exn) (plain : exn ≠ .cancelled) : Sound hold (.ended (.refused exn)) [] []
  | failed (exn : Exn) (plain : exn ≠ .cancelled) :
      Sound hold (.ended (.failed exn)) [{hold with released := true}] []
  | drained (done : Bool) (holds : List Entry) (works : List Work)
      (state : Draining hold done holds works) :
      Sound hold (.ended (.failed .cancelled)) holds works
  -- the thread of the reserve goes on, and nobody takes what it reserves
  | hungUp :
      Sound hold (.ended (.refused .cancelled)) []
        [.reserve hold.apiKey hold.estimate hold.createdAt]
  | hungUpRefused : Sound hold (.ended (.refused .cancelled)) [] []
  | leaked : Sound hold (.ended (.refused .cancelled)) [hold] []

def Work.belongs (id : Nat) : Work → Prop
  | .reserve _ _ _ => True
  | .commit other _ => other = id
  | .release other => other = id

theorem commits_nil (id : Nat) : Commits id [] := by simp [Commits]

theorem commits_belong {id : Nat} {works : List Work} (commits : Commits id works) :
    ∀ work ∈ works, work.belongs id := by
  intro work member
  obtain ⟨actual,rfl⟩ := commits work member
  rfl

theorem draining_belongs {hold : Entry} {done : Bool} {holds : List Entry} {works : List Work}
    (draining : Draining hold done holds works) : ∀ work ∈ works, work.belongs hold.id := by
  cases draining with
  | asked actual front back before behind =>
    intro work member
    rcases List.mem_append.mp member with inside | inside
    · exact commits_belong before work inside
    · rcases List.mem_cons.mp inside with rfl | inside
      · rfl
      · exact commits_belong behind work inside
  | given actual works commits => exact commits_belong commits

theorem sound_belongs {hold : Entry} {pc : Pc} {holds : List Entry} {works : List Work}
    (sound : Sound hold pc holds works) : ∀ work ∈ works, work.belongs hold.id := by
  cases sound with
  | draining done holds works state => exact draining_belongs state
  | drained done holds works state => exact draining_belongs state
  | _ => simp [Work.belongs]

theorem asked_again {hold : Entry} (actual : Option Int) {works : List Work}
    (commits : Commits hold.id works) :
    Sound hold (.release (held hold) .cancelled false) [{hold with actual := actual}]
      (works ++ [.release hold.id]) :=
  Sound.draining false _ _ (Draining.asked actual works [] commits (commits_nil hold.id))

theorem turned_sound {c : Nat} {call next : Call} {cancelled : Bool} {holds : List Entry}
    {works : List Work} (turned : call.Turned next cancelled)
    (sound : Sound (call.hold c) call.pc holds works) :
    Sound (next.hold c) next.pc holds (works ++ next.submits) := by
  obtain ⟨frame,turn,_⟩ := turned
  have same : next.hold c = call.hold c := by
    rw [frame]
    rfl
  rw [same]
  unfold Call.submits
  generalize next.pc = after at turn ⊢
  generalize call.pc = before at turn sound
  generalize call.hold c = hold at sound ⊢
  cases turn with
  | refuse error exn plain =>
    cases sound
    exact Sound.refused exn plain
  | dial reservation provider rest timeoutS =>
    cases sound
    exact Sound.attempting provider rest timeoutS
  | expire reservation exn plain =>
    cases sound
    exact Sound.releasing exn plain
  | failover reservation first second rest rest' timeoutS timeoutS' =>
    cases sound
    exact Sound.attempting second rest' timeoutS'
  | complete reservation provider rest timeoutS completion =>
    cases sound
    exact Sound.committing completion
  | fail reservation provider rest timeoutS exn plain =>
    cases sound
    exact Sound.releasing exn plain
  | respond reservation response =>
    cases sound
    exact Sound.returned response
  | raise reservation exn =>
    rw [List.append_nil]
    cases sound with
    | released exn plain => exact Sound.failed exn plain
    | draining done holds works state => exact Sound.drained true holds works state
  | hangUp result =>
    rw [List.append_nil]
    cases sound with
    | reserving => exact Sound.hungUp
    | refusing error => exact Sound.hungUpRefused
    | reserved => exact Sound.leaked
  | abort reservation provider rest timeoutS =>
    cases sound
    exact asked_again hold.actual (commits_nil hold.id)
  | abortCommit reservation completion done =>
    cases sound with
    | committing =>
      have commits : Commits hold.id [.commit hold.id completion.totalTokens] := by simp [Commits]
      exact asked_again hold.actual commits
    | committed => exact asked_again (some completion.totalTokens) (commits_nil hold.id)
  | abandon reservation exn done =>
    rw [List.append_nil]
    cases sound with
    | releasing exn plain =>
      exact Sound.drained false _ _
        (Draining.asked hold.actual [] [] (commits_nil hold.id) (commits_nil hold.id))
    | released exn plain =>
      exact Sound.drained true _ _ (Draining.given hold.actual [] (commits_nil hold.id))
    | draining done holds works state => exact Sound.drained done holds works state

/-- What a finished transaction does to the entries of the call that asked for it. -/
inductive Effect (id : Nat) : Work → Finished → List Entry → List Entry → Prop
  | refuse (apiKey : Str) (estimate : Int) (now : ℚ) (error : ReserveError) (holds : List Entry) :
      Effect id (.reserve apiKey estimate now) (.reserved (.error error)) holds holds
  | grant (apiKey : Str) (estimate : Int) (now : ℚ) (holds : List Entry) :
      Effect id (.reserve apiKey estimate now) (.reserved (.ok ⟨id,apiKey,estimate⟩)) holds
        (holds ++ [opened id apiKey estimate now])
  | commit (actual : Int) (holds : List Entry) :
      Effect id (.commit id actual) .committed holds
        (holds.map fun e => {e with actual := some actual})
  | release (holds : List Entry) :
      Effect id (.release id) .released holds (holds.map fun e => {e with released := true})

theorem commits_erase {id : Nat} {front back : List Work} {work : Work}
    (commits : Commits id (front ++ work::back)) : Commits id (front ++ back) := by
  intro other member
  apply commits other
  rw [List.mem_append] at member ⊢
  exact member.imp_right (List.mem_cons_of_mem work)

theorem effect_draining {hold : Entry} {done : Bool} {work : Work} {finished : Finished}
    {holds holds' : List Entry} {works front back : List Work} (listed : works = front ++ work::back)
    (effect : Effect hold.id work finished holds holds')
    (draining : Draining hold done holds works) :
    (work = .release hold.id ∧ Draining hold true holds' (front ++ back)) ∨
      ((∃ actual, work = .commit hold.id actual) ∧ Draining hold done holds' (front ++ back)) := by
  cases draining with
  | asked actual asked asked' before behind =>
    rcases List.append_eq_append_iff.mp listed with ⟨gap,rfl,split⟩ | ⟨gap,rfl,split⟩
    · cases gap with
      | nil =>
        obtain ⟨rfl,rfl⟩ := List.cons_eq_cons.mp split
        cases effect
        rw [List.append_nil]
        refine Or.inl ⟨rfl,Draining.given actual _ ?_⟩
        exact List.forall_mem_append.mpr ⟨before,behind⟩
      | cons first gap =>
        obtain ⟨rfl,rfl⟩ := List.cons_eq_cons.mp split
        obtain ⟨count,rfl⟩ := behind work (by simp)
        cases effect
        rw [List.append_assoc,List.cons_append]
        exact Or.inr ⟨⟨count,rfl⟩,
          Draining.asked (some count) asked _ before (commits_erase behind)⟩
    · cases gap with
      | nil =>
        obtain ⟨rfl,rfl⟩ := List.cons_eq_cons.mp split
        cases effect
        rw [List.append_nil] at before
        refine Or.inl ⟨rfl,Draining.given actual _ ?_⟩
        exact List.forall_mem_append.mpr ⟨before,behind⟩
      | cons first gap =>
        obtain ⟨rfl,rfl⟩ := List.cons_eq_cons.mp split
        obtain ⟨count,rfl⟩ := before work (by simp)
        cases effect
        have drain := Draining.asked (some count) (front ++ gap) asked' (commits_erase before) behind
        rw [List.append_assoc] at drain
        exact Or.inr ⟨⟨count,rfl⟩,drain⟩
  | given actual works commits =>
    subst listed
    obtain ⟨count,rfl⟩ := commits work (by simp)
    cases effect
    exact Or.inr ⟨⟨count,rfl⟩,Draining.given (some count) _ (commits_erase commits)⟩

/-- A finished transaction keeps the invariant of the call, whether or not the call takes its
result. -/
theorem effect_sound {hold : Entry} {pc : Pc} {work : Work} {finished : Finished}
    {holds holds' : List Entry} {front back : List Work} (effect : Effect hold.id work finished holds holds')
    (sound : Sound hold pc holds (front ++ work::back))
    (whole : opened hold.id hold.apiKey hold.estimate hold.createdAt = hold) :
    Sound hold (pc.deliver finished) holds' (front ++ back) := by
  generalize listed : front ++ work::back = works at sound
  have alone {other : Work} (single : front ++ work::back = [other]) :
      work = other ∧ front ++ back = [] := by
    rcases List.append_eq_singleton_iff.mp single with ⟨rfl,tail⟩ | ⟨_,tail⟩
    · simpa using tail
    · simp at tail
  cases sound with
  | reserving =>
    obtain ⟨rfl,rest⟩ := alone listed
    rw [rest]
    cases effect with
    | refuse apiKey estimate now error holds => exact Sound.refusing error
    | grant apiKey estimate now holds =>
      rw [List.nil_append,whole]
      exact Sound.reserved
  | committing completion =>
    obtain ⟨rfl,rest⟩ := alone listed
    rw [rest]
    cases effect
    exact Sound.committed completion
  | releasing exn plain =>
    obtain ⟨rfl,rest⟩ := alone listed
    rw [rest]
    cases effect
    exact Sound.released exn plain
  | draining done holds works state =>
    rcases effect_draining listed.symm effect state with ⟨rfl,given⟩ | ⟨⟨actual,rfl⟩,still⟩
    · cases effect
      cases done <;> exact Sound.draining true _ _ given
    · cases effect
      cases done <;> exact Sound.draining _ _ _ still
  | drained done holds works state =>
    rcases effect_draining listed.symm effect state with ⟨rfl,given⟩ | ⟨_,still⟩
    · cases effect
      exact Sound.drained true _ _ given
    · exact Sound.drained done _ _ still
  | hungUp =>
    obtain ⟨rfl,rest⟩ := alone listed
    rw [rest]
    cases effect with
    | refuse apiKey estimate now error holds => exact Sound.hungUpRefused
    | grant apiKey estimate now holds =>
      rw [List.nil_append,whole]
      exact Sound.leaked
  | _ => exact absurd listed (by simp)

theorem works_append (jobs more : List Job) (c : Nat) :
    works (jobs ++ more) c = works jobs c ++ works more c := by simp [works]

theorem works_submitted (c c' : Nat) (submitted : List Work) :
    works (submitted.map (Job.mk c)) c' = if c = c' then submitted else [] := by
  unfold works
  rw [List.filter_map,List.map_map]
  split_ifs with same
  · simp [Function.comp_def,same]
  · simp [Function.comp_def,same]

theorem works_cons (job : Job) (jobs : List Job) (c : Nat) :
    works (job::jobs) c = (if job.call = c then [job.work] else []) ++ works jobs c := by
  unfold works
  by_cases mine : job.call = c <;> simp [mine]

theorem works_eraseIdx {jobs : List Job} {i : Nat} {job : Job} (listed : jobs[i]? = some job) :
    (∃ front back, works jobs job.call = front ++ job.work::back ∧
      works (jobs.eraseIdx i) job.call = front ++ back) ∧
    ∀ c, c ≠ job.call → works (jobs.eraseIdx i) c = works jobs c := by
  obtain ⟨before,behind,whole,left⟩ : ∃ before behind, jobs = before ++ job::behind ∧
      jobs.eraseIdx i = before ++ behind := by
    obtain ⟨inside,rfl⟩ := List.getElem?_eq_some_iff.mp listed
    exact ⟨jobs.take i,jobs.drop (i+1),by simp,List.eraseIdx_eq_take_drop_succ jobs i⟩
  rw [left,whole]
  refine ⟨⟨works before job.call,works behind job.call,?_,?_⟩,?_⟩
  · rw [works_append,works_cons,if_pos rfl]
    rfl
  · rw [works_append]
  · intro c other
    rw [works_append,works_append,works_cons,if_neg other.symm,List.nil_append]

theorem holds_append (ledger more : List Entry) (c : Nat) :
    holds (ledger ++ more) c = holds ledger c ++ holds more c := by simp [holds]

theorem holds_map (ledger : List Entry) (c : Nat) (change kept : Entry → Entry)
    (same : ∀ e, (change e).id = e.id)
    (seen : ∀ e, e.id = c → {change e with evicted := false} = kept {e with evicted := false}) :
    holds (ledger.map change) c = (holds ledger c).map kept := by
  unfold holds
  rw [List.filter_map,List.map_map,List.map_map]
  have keys : (fun e => decide (e.id = c)) ∘ change = fun e => decide (e.id = c) := by
    ext e
    simp [same]
  rw [keys]
  apply List.map_congr_left
  intro e member
  exact seen e (by simpa using (List.mem_filter.mp member).2)

theorem holds_evict (ledger : List Entry) (cutoff : ℚ) (c : Nat) :
    holds (ledger.map fun e => if e.createdAt < cutoff then {e with evicted := true} else e) c =
      holds ledger c := by
  rw [holds_map ledger c _ id (fun e => by split_ifs <;> rfl)
    (fun e _ => by split_ifs <;> rfl),List.map_id]

theorem holds_addEntry (ledger : List Entry) (cutoff : ℚ) (entry : Entry) (c : Nat)
    (whole : entry.evicted = false) :
    holds (addEntry ledger cutoff entry) c =
      holds ledger c ++ if entry.id = c then [entry] else [] := by
  rw [addEntry,holds_append,holds_evict]
  congr 1
  unfold holds
  obtain ⟨id,apiKey,estimate,createdAt,actual,released,evicted⟩ := entry
  cases whole
  by_cases mine : id = c <;> simp [mine]

theorem holds_update (ledger : List Entry) (owner c : Nat) (change : Entry → Entry)
    (same : ∀ e, (change e).id = e.id)
    (seen : ∀ e, {change e with evicted := false} = change {e with evicted := false}) :
    holds (ledger.map fun e => if e.id = owner then change e else e) c =
      if owner = c then (holds ledger c).map change else holds ledger c := by
  have ids (e : Entry) : (if e.id = owner then change e else e).id = e.id := by
    split_ifs
    · exact same e
    · rfl
  split_ifs with mine
  · apply holds_map ledger c _ change ids
    intro e own
    rw [if_pos (own.trans mine.symm)]
    exact seen e
  · rw [holds_map ledger c _ id ids,List.map_id]
    intro e own
    rw [if_neg fun other => mine (other.symm.trans own)]
    rfl

theorem holds_settle (ledger : List Entry) (owner c : Nat) (actual : Int) :
    holds (settle ledger owner actual) c =
      if owner = c then (holds ledger c).map fun e => {e with actual := some actual}
      else holds ledger c :=
  holds_update ledger owner c _ (fun _ => rfl) (fun _ => rfl)

theorem holds_giveBack (ledger : List Entry) (owner c : Nat) :
    holds (giveBack ledger owner) c =
      if owner = c then (holds ledger c).map fun e => {e with released := true}
      else holds ledger c :=
  holds_update ledger owner c _ (fun _ => rfl) (fun _ => rfl)

theorem perform_effect (books : Books) (newId : Nat) (work : Work) (mine : work.belongs newId) :
    Effect newId work (perform limiter books newId work).1 (holds books.ledger newId)
        (holds (perform limiter books newId work).2.ledger newId) ∧
      ∀ c, c ≠ newId →
        holds (perform limiter books newId work).2.ledger c = holds books.ledger c := by
  cases work with
  | reserve apiKey estimate now =>
    rcases books.reserve_cases limiter apiKey estimate now newId with
      ⟨error,refused⟩ | ⟨next,made,_,_,ledger⟩
    · dsimp only [perform]
      rw [refused]
      exact ⟨Effect.refuse apiKey estimate now error _,fun _ _ => rfl⟩
    · simp only [perform,made,ledger]
      have added (c : Nat) := holds_addEntry books.ledger (now - limiter.window)
        (opened newId apiKey estimate now) c rfl
      constructor
      · rw [added,if_pos (show (opened newId apiKey estimate now).id = newId from rfl)]
        exact Effect.grant apiKey estimate now _
      · intro c other
        have foreign : (opened newId apiKey estimate now).id ≠ c := Ne.symm other
        rw [added,if_neg foreign,List.append_nil]
  | commit id actual =>
    cases mine
    simp only [perform,Books.commit]
    constructor
    · rw [holds_settle,if_pos rfl]
      exact Effect.commit actual _
    · intro c other
      rw [holds_settle,if_neg other.symm]
  | release id =>
    cases mine
    simp only [perform,Books.release]
    constructor
    · rw [holds_giveBack,if_pos rfl]
      exact Effect.release _
    · intro c other
      rw [holds_giveBack,if_neg other.symm]

/-- The invariant, for every call at once; a number that no call has yet holds nothing. -/
def Coherent (s : System) : Prop :=
  ∀ c, match s.calls[c]? with
    | none => holds s.books.ledger c = [] ∧ works s.jobs c = []
    | some call => Sound (call.hold c) call.pc (holds s.books.ledger c) (works s.jobs c)

theorem start_coherent (breakers : Nat → CircuitBreaker) : Coherent (System.start breakers) := by
  intro c
  exact ⟨rfl,rfl⟩

theorem listed_belongs {s : System} (coherent : Coherent s) {i : Nat} {job : Job}
    (listed : s.jobs[i]? = some job) : job.work.belongs job.call := by
  obtain ⟨⟨front,back,whole,_⟩,_⟩ := works_eraseIdx listed
  have here := coherent job.call
  rw [whole] at here
  cases known : s.calls[job.call]? with
  | none =>
    rw [known] at here
    simp at here
  | some call =>
    rw [known] at here
    exact sound_belongs here job.work (by simp)

theorem step_coherent (s : System) (event : Event) (next : System) (coherent : Coherent s)
    (stepped : s.step limiter event = some next) : Coherent next := by
  cases event with
  | route router apiKey prompt maxTokens requestId started reservedAt =>
    simp only [System.step,Option.some.injEq] at stepped
    subst next
    intro c
    have here := coherent c
    rw [works_append,works_submitted]
    rcases Nat.lt_trichotomy c s.calls.length with old | rfl | beyond
    · rw [List.getElem?_append_left old,if_neg old.ne',List.append_nil]
      exact here
    · rw [List.getElem?_eq_none le_rfl] at here
      rw [List.getElem?_concat_length,if_pos rfl,here.1,here.2]
      exact Sound.reserving
    · have longer : (s.calls ++ [Call.enter router apiKey prompt maxTokens requestId started
          reservedAt]).length ≤ c := by
        rw [List.length_append]
        exact beyond
      rw [List.getElem?_eq_none beyond.le] at here
      rw [List.getElem?_eq_none longer,if_neg beyond.ne,List.append_nil]
      exact here
  | transaction i =>
    obtain ⟨job,listed,moved⟩ := Option.map_eq_some_iff.mp stepped
    subst next
    obtain ⟨⟨front,back,whole,left⟩,others⟩ := works_eraseIdx listed
    have here := coherent job.call
    rw [whole] at here
    cases known : s.calls[job.call]? with
    | none =>
      rw [known] at here
      simp at here
    | some call =>
      rw [known] at here
      obtain ⟨effect,frame⟩ :=
        perform_effect limiter s.books job.call job.work (listed_belongs coherent listed)
      intro c
      by_cases own : job.call = c
      · subst c
        simp only [List.getElem?_modify_eq,known,left]
        exact effect_sound effect here rfl
      · simp only [List.getElem?_modify_ne _ _ own,frame c (Ne.symm own),others c (Ne.symm own)]
        exact coherent c
  | wake c wakeup =>
    obtain ⟨call,known,moves⟩ := Option.bind_eq_some_iff.mp stepped
    obtain ⟨moved,woken,rfl⟩ := Option.map_eq_some_iff.mp moves
    intro c'
    have here := coherent c'
    simp only [System.put]
    rw [works_append,works_submitted]
    by_cases own : c = c'
    · subst c'
      rw [known] at here
      rw [List.getElem?_set_self (List.getElem?_eq_some_iff.mp known).1,if_pos rfl]
      exact turned_sound (Call.wake_turned woken) here
    · rw [List.getElem?_set_ne own,if_neg own,List.append_nil]
      exact here

end GatewaySuite.Router
