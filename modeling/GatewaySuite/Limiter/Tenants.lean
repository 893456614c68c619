import GatewaySuite.Limiter.Transactions

/-! Tenants share one table and sweep each other's old rows, and do not notice. Two tables look
the same to a key if they agree on its rows in every window that is still to be read. -/
namespace GatewaySuite.Limiter
open Python
variable (limiter : SlidingWindowRateLimiter)

theorem reserveSync_congr {table other : List Row} {apiKey : Str} {now : ℚ}
    (same : selectRows table apiKey (now - limiter.window) =
      selectRows other apiKey (now - limiter.window)) (estimate : Int) (newId : Nat) :
    (reserveSync limiter table apiKey estimate now newId).1 =
      (reserveSync limiter other apiKey estimate now newId).1 := by
  unfold reserveSync sumTokens oldestCreated
  dsimp only
  rw [same]
  split_ifs <;> rfl

theorem selectRows_append (first second : List Row) (apiKey : Str) (cutoff : ℚ) :
    selectRows (first++second) apiKey cutoff =
      selectRows first apiKey cutoff ++ selectRows second apiKey cutoff :=
  List.filter_append ..

theorem selectRows_swept (table : List Row) (apiKey : Str) {cutoff later : ℚ} (forward : cutoff ≤ later) :
    selectRows (table.filter fun row => !decide (row.createdAt < cutoff)) apiKey later =
      selectRows table apiKey later := by
  unfold selectRows
  rw [List.filter_filter]
  apply List.filter_congr
  intro row _
  by_cases recent : later ≤ row.createdAt
  · simp [recent,forward.trans recent]
  · simp [recent]

theorem selectRows_commit (table : List Row) (id : Nat) (actual : Int) (apiKey : Str) (cutoff : ℚ) :
    selectRows (commitSync table id actual) apiKey cutoff =
      commitSync (selectRows table apiKey cutoff) id actual := by
  unfold selectRows commitSync
  rw [List.filter_map]
  congr 1
  apply List.filter_congr
  intro row _
  by_cases mine : row.id = id <;> simp [mine]

theorem selectRows_release (table : List Row) (id : Nat) (apiKey : Str) (cutoff : ℚ) :
    selectRows (releaseSync table id) apiKey cutoff =
      releaseSync (selectRows table apiKey cutoff) id := by
  unfold selectRows releaseSync
  rw [List.filter_filter,List.filter_filter]
  apply List.filter_congr
  intro row _
  exact Bool.and_comm _ _

/-- Every identifier is of one key: `uuid4` draws none twice, and a commit or a release is given
the reservation that a reserve returned. -/
structure Owned (owner : Nat → Str) (table : List Row) (operations : List Operation) : Prop where
  rows : ∀ row ∈ table, owner row.id = row.apiKey
  operations : ∀ op ∈ operations, ∀ id ∈ op.row?, owner id = op.apiKey

theorem execute_rows {table : List Row} {op : Operation} {row : Row}
    (member : row ∈ (execute limiter table op).2) :
    (∃ old ∈ table, row.id = old.id ∧ row.apiKey = old.apiKey) ∨
      (op.row? = some row.id ∧ op.apiKey = row.apiKey) := by
  cases op with
  | reserve newId apiKey estimate now =>
    simp only [execute] at member
    cases made : reserveSync limiter table apiKey estimate now newId with
    | mk result after =>
      rw [made] at member
      cases result with
      | error error =>
        rw [reserveSync_error made] at member
        exact Or.inl ⟨row,member,rfl,rfl⟩
      | ok reservation =>
        obtain ⟨_,_,_,rfl⟩ := reserveSync_ok made
        obtain old | new := List.mem_append.mp member
        · exact Or.inl ⟨row,List.mem_of_mem_filter old,rfl,rfl⟩
        · rw [List.mem_singleton] at new
          subst row
          exact Or.inr ⟨rfl,rfl⟩
  | commit reservation actual =>
    obtain ⟨old,inside,rfl⟩ := List.mem_map.mp member
    refine Or.inl ⟨old,inside,?_⟩
    split_ifs <;> exact ⟨rfl,rfl⟩
  | release reservation => exact Or.inl ⟨row,List.mem_of_mem_filter member,rfl,rfl⟩
  | usage apiKey now => exact Or.inl ⟨row,member,rfl,rfl⟩

theorem Owned.step {owner : Nat → Str} {table : List Row} {op : Operation} {rest : List Operation}
    (owned : Owned owner table (op::rest)) : Owned owner (execute limiter table op).2 rest where
  rows := by
    intro row member
    obtain ⟨old,inside,id,key⟩ | ⟨id,key⟩ := execute_rows limiter member
    · rw [id,key]
      exact owned.rows old inside
    · rw [← key]
      exact owned.operations op List.mem_cons_self row.id id
  operations := fun later inside => owned.operations later (List.mem_cons_of_mem op inside)

theorem selectRows_reserve (table : List Row) (apiKey : Str) {cutoff later : ℚ} (new : Row)
    (forward : cutoff ≤ later) :
    selectRows (table.filter (fun row => !decide (row.createdAt < cutoff)) ++ [new]) apiKey later =
      selectRows table apiKey later ++ selectRows [new] apiKey later := by
  rw [selectRows_append,selectRows_swept table apiKey forward]

/-- A call of another key leaves the key's rows of every window that is not read before it. -/
theorem execute_others {owner : Nat → Str} {table : List Row} {op : Operation}
    {rest : List Operation} (owned : Owned owner table (op::rest)) {apiKey : Str}
    (other : op.apiKey ≠ apiKey) {later : ℚ} (forward : ∀ now ∈ op.reading, now ≤ later) :
    selectRows (execute limiter table op).2 apiKey (later - limiter.window) =
      selectRows table apiKey (later - limiter.window) := by
  have foreign {id : Nat} (named : op.row? = some id) :
      ∀ row ∈ selectRows table apiKey (later - limiter.window), row.id ≠ id := by
    intro row member same
    apply other
    rw [← owned.operations op List.mem_cons_self id named,← same,
      owned.rows row (List.mem_of_mem_filter member)]
    have counts := (List.mem_filter.mp member).2
    rw [Bool.and_eq_true,beq_iff_eq] at counts
    exact counts.1
  cases op with
  | reserve newId key estimate now =>
    simp only [execute]
    cases made : reserveSync limiter table key estimate now newId with
    | mk result after =>
      cases result with
      | error error => rw [reserveSync_error made]
      | ok reservation =>
        obtain ⟨_,_,_,rfl⟩ := reserveSync_ok made
        have early : now ≤ later := forward now rfl
        have unseen : selectRows [⟨newId,key,estimate,now,.reserved⟩] apiKey
            (later - limiter.window) = [] := by
          have distinct : ¬key = apiKey := other
          simp [selectRows,distinct]
        rw [selectRows_reserve table apiKey _ (by linarith),unseen,List.append_nil]
  | commit reservation actual =>
    simp only [execute]
    rw [selectRows_commit]
    have kept : commitSync (selectRows table apiKey (later - limiter.window)) reservation.id actual =
        (selectRows table apiKey (later - limiter.window)).map id := by
      apply List.map_congr_left
      intro row member
      rw [if_neg (foreign rfl row member),id]
    rw [kept,List.map_id]
  | release reservation =>
    simp only [execute]
    rw [selectRows_release]
    apply List.filter_eq_self.mpr
    intro row member
    simpa using foreign rfl row member
  | usage key now => rfl

/-- A call of the key itself keeps two tables alike that look alike to it. -/
theorem execute_own {table other : List Row} {op : Operation}
    (now_same : ∀ now ∈ op.reading, selectRows table op.apiKey (now - limiter.window) =
      selectRows other op.apiKey (now - limiter.window)) :
    (execute limiter table op).1 = (execute limiter other op).1 ∧
      ∀ later, (∀ now ∈ op.reading, now ≤ later) →
        selectRows table op.apiKey (later - limiter.window) =
          selectRows other op.apiKey (later - limiter.window) →
        selectRows (execute limiter table op).2 op.apiKey (later - limiter.window) =
          selectRows (execute limiter other op).2 op.apiKey (later - limiter.window) := by
  cases op with
  | reserve newId apiKey estimate now =>
    have decided := reserveSync_congr limiter (now_same now rfl) estimate newId
    refine ⟨congrArg Result.reserved decided,fun later forward same => ?_⟩
    simp only [execute,Operation.apiKey] at decided same ⊢
    cases made : reserveSync limiter table apiKey estimate now newId with
    | mk result after =>
      cases made' : reserveSync limiter other apiKey estimate now newId with
      | mk result' after' =>
        rw [made,made'] at decided
        change result = result' at decided
        subst result'
        cases result with
        | error error => rw [reserveSync_error made,reserveSync_error made',same]
        | ok reservation =>
          obtain ⟨_,_,_,rfl⟩ := reserveSync_ok made
          obtain ⟨_,_,_,rfl⟩ := reserveSync_ok made'
          have early : now ≤ later := forward now rfl
          rw [selectRows_reserve table apiKey _ (by linarith),
            selectRows_reserve other apiKey _ (by linarith),same]
  | commit reservation actual =>
    refine ⟨rfl,fun later _ same => ?_⟩
    simp only [execute] at same ⊢
    rw [selectRows_commit,selectRows_commit,same]
  | release reservation =>
    refine ⟨rfl,fun later _ same => ?_⟩
    simp only [execute] at same ⊢
    rw [selectRows_release,selectRows_release,same]
  | usage apiKey now =>
    refine ⟨?_,fun later _ same => same⟩
    have seen := now_same now rfl
    simp only [execute,usageSync,sumTokens,Operation.apiKey] at seen ⊢
    rw [seen]

theorem results_alike {owner : Nat → Str} {table other : List Row} {operations : List Operation}
    (owned : Owned owner table operations)
    (ordered : (operations.filterMap Operation.reading).Pairwise (· ≤ ·)) {apiKey : Str}
    (alike : ∀ now ∈ operations.filterMap Operation.reading,
      selectRows table apiKey (now - limiter.window) =
        selectRows other apiKey (now - limiter.window)) :
    (results limiter table operations).filter (fun x => x.1.apiKey == apiKey) =
      results limiter other (operations.filter fun op => op.apiKey == apiKey) := by
  induction operations generalizing table other with
  | nil => rfl
  | cons op rest ih =>
    have forward : ∀ later ∈ rest.filterMap Operation.reading, ∀ now ∈ op.reading, now ≤ later := by
      intro later member now read
      rw [List.filterMap_cons_some read,List.pairwise_cons] at ordered
      exact ordered.1 later member
    have ordered' : (rest.filterMap Operation.reading).Pairwise (· ≤ ·) := by
      apply List.Pairwise.sublist _ ordered
      exact (List.sublist_cons_self op rest).filterMap _
    have alike' : ∀ now ∈ rest.filterMap Operation.reading,
        selectRows table apiKey (now - limiter.window) =
          selectRows other apiKey (now - limiter.window) := by
      intro now member
      apply alike
      exact ((List.sublist_cons_self op rest).filterMap _).subset member
    by_cases own : op.apiKey = apiKey
    · subst apiKey
      have now_same : ∀ now ∈ op.reading, selectRows table op.apiKey (now - limiter.window) =
          selectRows other op.apiKey (now - limiter.window) := by
        intro now read
        apply alike
        rw [List.filterMap_cons_some read]
        exact List.mem_cons_self
      obtain ⟨returned,after⟩ := execute_own limiter now_same
      have tail := ih (owned.step limiter) ordered'
        fun later member => after later (forward later member) (alike' later member)
      simp only [results,List.filter_cons,beq_self_eq_true,if_true,returned,tail]
    · have tail := ih (owned.step limiter) ordered' fun later member =>
        (execute_others limiter owned own (forward later member)).trans (alike' later member)
      simp only [results,List.filter_cons,beq_eq_false_iff_ne.mpr own,Bool.false_eq_true,if_false,tail]

/-- Deleting every call of the other keys from a run, with clock readings that do not decrease
in the order of the transactions, leaves everything returned to a key. -/
theorem tenants_isolated {owner : Nat → Str} {table : List Row} {operations : List Operation}
    (owned : Owned owner table operations)
    (ordered : (operations.filterMap Operation.reading).Pairwise (· ≤ ·)) (apiKey : Str) :
    (results limiter table operations).filter (fun x => x.1.apiKey == apiKey) =
      results limiter table (operations.filter fun op => op.apiKey == apiKey) :=
  results_alike limiter owned ordered fun _ _ => rfl

/-- Two tenants, the second of which sweeps the first one's row. -/
def sharedRun : List Operation :=
  [.reserve 0 (lit "tenant-a") 40 0,.reserve 1 (lit "tenant-b") 90 30,
    .commit ⟨0,lit "tenant-a",40⟩ 50,.reserve 2 (lit "tenant-b") 10 70,
    .reserve 3 (lit "tenant-a") 60 70,.usage (lit "tenant-a") 70]

theorem tenants_isolated_shared :
    (results ⟨100,60⟩ [] sharedRun).filter (fun x => x.1.apiKey == lit "tenant-a") =
      results ⟨100,60⟩ [] (sharedRun.filter fun op => op.apiKey == lit "tenant-a") :=
  @tenants_isolated ⟨100,60⟩ (fun id => if id = 0 ∨ id = 3 then lit "tenant-a" else lit "tenant-b")
    [] sharedRun ⟨by simp,by decide +kernel⟩ (by decide +kernel) (lit "tenant-a")

end GatewaySuite.Limiter
