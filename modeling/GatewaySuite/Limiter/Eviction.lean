import GatewaySuite.Limiter.Transactions

/-! The sweep of old rows, against a limiter that keeps them. The ledger of the sweeping limiter
knows both tables: its entries that are present, and those that would be if none were evicted. -/
namespace GatewaySuite.Limiter
open Python Lib
variable (limiter : SlidingWindowRateLimiter)

/-- `_reserve_sync` without its `DELETE`. -/
def reserveKeeping (table : List Row) (apiKey : Str) (estimatedTokens : Int) (now : ℚ) (newId : Nat) :
    Except ReserveError Reservation × List Row :=
  match reserveSync limiter table apiKey estimatedTokens now newId with
  | (.error error,_) => (.error error,table)
  | (.ok reservation,_) =>
    (.ok reservation,table ++ [⟨newId,apiKey,estimatedTokens,now,.reserved⟩])

def executeKeeping (table : List Row) : Operation → Result × List Row
  | .reserve newId apiKey estimatedTokens now =>
    let (result,table) := reserveKeeping limiter table apiKey estimatedTokens now newId
    (.reserved result,table)
  | op => execute limiter table op

/-- The admission decisions, the counts in refusals, and the snapshots. -/
inductive Observation where
  | invalid
  | refused (used : Int)
  | granted (reservation : Reservation)
  | snapshot (usage : UsageSnapshot)
  | done
deriving DecidableEq

def Result.observation : Result → Observation
  | .reserved (.error .ValueError) => .invalid
  | .reserved (.error (.exceeded exc)) => .refused exc.used
  | .reserved (.ok reservation) => .granted reservation
  | .snapshot usage => .snapshot usage
  | .done => .done

def observations (execute : List Row → Operation → Result × List Row) :
    List Row → List Operation → List Observation
  | _,[] => []
  | table,op::rest =>
    (execute table op).1.observation :: observations execute (execute table op).2 rest

def unevicted (ledger : List Entry) : List Entry := ledger.map fun e => {e with evicted := false}

/-- What the evicted rows of a key would hold in a window, were they still there. -/
def hiddenTokens (ledger : List Entry) (apiKey : Str) (cutoff : ℚ) : Int :=
  sumTokens (rows (unevicted (ledger.filter Entry.evicted))) apiKey cutoff

namespace Entry

def ofRow (row : Row) : Entry :=
  ⟨row.id,row.apiKey,row.tokens,row.createdAt,
    if row.state = .committed then some row.tokens else none,false,false⟩

theorem ofRow_row (row : Row) : (ofRow row).row = row := by
  obtain ⟨id,apiKey,tokens,createdAt,state⟩ := row
  cases state <;> rfl

end Entry

namespace Books

def ofTable (table : List Row) : Books where
  table := table
  ledger := table.map Entry.ofRow
  balanced := by
    induction table with
    | nil => rfl
    | cons row rest ih =>
      rw [List.map_cons,rows_cons,← ih,Entry.ofRow_row]
      rfl

def execute (books : Books) : Operation → Books
  | .reserve newId apiKey estimatedTokens now =>
    (books.reserve limiter apiKey estimatedTokens now newId).2
  | .commit reservation actualTokens => books.commit reservation.id actualTokens
  | .release reservation => books.release reservation.id
  | .usage _ _ => books

theorem execute_table (books : Books) (op : Operation) :
    (Limiter.execute limiter books.table op).2 = (books.execute limiter op).table := by
  cases op with
  | reserve newId apiKey estimate now =>
    exact congrArg Prod.snd (books.reserve_reserveSync limiter apiKey estimate now newId).symm
  | commit reservation actual => rfl
  | release reservation => rfl
  | usage apiKey now => rfl

/-- The table of a limiter that has never swept. -/
def keptTable (books : Books) : List Row := rows (unevicted books.ledger)

end Books

theorem unevicted_append (first second : List Entry) :
    unevicted (first++second) = unevicted first ++ unevicted second := List.map_append ..

theorem sumTokens_append (first second : List Row) (apiKey : Str) (cutoff : ℚ) :
    sumTokens (first++second) apiKey cutoff =
      sumTokens first apiKey cutoff + sumTokens second apiKey cutoff := by
  simp [sumTokens,selectRows]

theorem sum_unevicted (ledger : List Entry) (apiKey : Str) (cutoff : ℚ) :
    sumTokens (rows (unevicted ledger)) apiKey cutoff =
      sumTokens (rows ledger) apiKey cutoff + hiddenTokens ledger apiKey cutoff := by
  induction ledger with
  | nil => rfl
  | cons e rest ih =>
    have split : unevicted (e::rest) = unevicted [e] ++ unevicted rest := rfl
    have front : rows (e::rest) = rows [e] ++ rows rest := rows_append [e] rest
    rw [split,rows_append,sumTokens_append,ih,front,sumTokens_append]
    unfold hiddenTokens
    cases gone : e.evicted with
    | true =>
      have absent : rows [e] = [] := by simp [rows,Entry.present,gone]
      have hidden : unevicted (e :: rest.filter Entry.evicted) =
          unevicted [e] ++ unevicted (rest.filter Entry.evicted) := rfl
      rw [List.filter_cons_of_pos gone,hidden,rows_append,sumTokens_append,absent]
      simp [sumTokens,selectRows]
      omega
    | false =>
      have same : unevicted [e] = [e] := by simp [unevicted,← gone]
      rw [List.filter_cons_of_neg (by simp [gone]),same]
      omega

theorem unevicted_settle (ledger : List Entry) (id : Nat) (actual : Int) :
    unevicted (settle ledger id actual) = settle (unevicted ledger) id actual := by
  unfold unevicted settle
  rw [List.map_map,List.map_map]
  apply List.map_congr_left
  intro e _
  by_cases mine : e.id = id <;> simp [mine]

theorem unevicted_giveBack (ledger : List Entry) (id : Nat) :
    unevicted (giveBack ledger id) = giveBack (unevicted ledger) id := by
  unfold unevicted giveBack
  rw [List.map_map,List.map_map]
  apply List.map_congr_left
  intro e _
  by_cases mine : e.id = id <;> simp [mine]

theorem unevicted_addEntry (ledger : List Entry) (cutoff : ℚ) (entry : Entry) :
    unevicted (addEntry ledger cutoff entry) = unevicted ledger ++ unevicted [entry] := by
  unfold addEntry
  rw [unevicted_append]
  congr 1
  unfold unevicted
  rw [List.map_map]
  apply List.map_congr_left
  intro e _
  by_cases old : e.createdAt < cutoff <;> simp [old]

def decision (used : Int) (newId : Nat) (apiKey : Str) (estimatedTokens : Int) : Observation :=
  if estimatedTokens < 0 then .invalid
  else if used + estimatedTokens > limiter.limit then .refused used
  else .granted ⟨newId,apiKey,estimatedTokens⟩

theorem reserveSync_decision (table : List Row) (apiKey : Str) (estimate : Int) (now : ℚ) (newId : Nat) :
    (Result.reserved (reserveSync limiter table apiKey estimate now newId).1).observation =
      decision limiter (sumTokens table apiKey (now - limiter.window)) newId apiKey estimate := by
  unfold reserveSync decision
  dsimp only
  split_ifs <;> rfl

theorem reserveKeeping_decision (table : List Row) (apiKey : Str) (estimate : Int) (now : ℚ)
    (newId : Nat) :
    (Result.reserved (reserveKeeping limiter table apiKey estimate now newId).1).observation =
      decision limiter (sumTokens table apiKey (now - limiter.window)) newId apiKey estimate := by
  rw [← reserveSync_decision]
  unfold reserveKeeping
  split
  next error after refused => rw [refused]
  next reservation after made => rw [made]

/-- Whether a call can tell that rows are gone. -/
def Unnoticed (books : Books) : Operation → Prop
  | .reserve _ apiKey estimatedTokens now =>
    let used := sumTokens books.table apiKey (now - limiter.window)
    let hidden := hiddenTokens books.ledger apiKey (now - limiter.window)
    hidden = 0 ∨ estimatedTokens < 0 ∨
      (used + estimatedTokens ≤ limiter.limit ∧ used + hidden + estimatedTokens ≤ limiter.limit)
  | .usage apiKey now => hiddenTokens books.ledger apiKey (now - limiter.window) = 0
  | .commit _ _ => True
  | .release _ => True

theorem decision_unnoticed (used hidden : Int) (newId : Nat) (apiKey : Str) (estimate : Int) :
    decision limiter used newId apiKey estimate = decision limiter (used + hidden) newId apiKey estimate ↔
      hidden = 0 ∨ estimate < 0 ∨
        (used + estimate ≤ limiter.limit ∧ used + hidden + estimate ≤ limiter.limit) := by
  unfold decision
  by_cases negative : estimate < 0
  · simp [negative]
  · rw [if_neg negative,if_neg negative]
    by_cases full : used + estimate > limiter.limit
    · rw [if_pos full]
      by_cases full' : used + hidden + estimate > limiter.limit
      · rw [if_pos full',Observation.refused.injEq]
        omega
      · rw [if_neg full']
        apply iff_of_false (by simp)
        omega
    · rw [if_neg full]
      by_cases full' : used + hidden + estimate > limiter.limit
      · rw [if_pos full']
        apply iff_of_false (by simp)
        omega
      · rw [if_neg full']
        apply iff_of_true rfl
        omega

theorem observation_unnoticed (books : Books) (op : Operation) :
    (execute limiter books.table op).1.observation =
        (executeKeeping limiter books.keptTable op).1.observation ↔ Unnoticed limiter books op := by
  cases op with
  | reserve newId apiKey estimate now =>
    simp only [execute,executeKeeping]
    rw [reserveSync_decision,reserveKeeping_decision,Books.keptTable,sum_unevicted,← books.balanced]
    exact decision_unnoticed limiter _ _ newId apiKey estimate
  | commit reservation actual => exact iff_of_true rfl trivial
  | release reservation => exact iff_of_true rfl trivial
  | usage apiKey now =>
    simp only [execute,executeKeeping,usageSync,Books.keptTable,sum_unevicted,← books.balanced,
      Result.observation,Unnoticed,Observation.snapshot.injEq,UsageSnapshot.mk.injEq,true_and,and_true]
    constructor <;> intro same <;> omega

/-- As long as no call can tell, the limiter that keeps its rows has the kept table. -/
theorem executeKeeping_table (books : Books) (op : Operation)
    (same : (execute limiter books.table op).1.observation =
      (executeKeeping limiter books.keptTable op).1.observation) :
    (executeKeeping limiter books.keptTable op).2 = (books.execute limiter op).keptTable := by
  cases op with
  | reserve newId apiKey estimate now =>
    simp only [execute,executeKeeping,Books.execute] at same ⊢
    unfold reserveKeeping at same ⊢
    obtain ⟨error,refused⟩ | ⟨next,made,_,_,admitted⟩ :=
      books.reserve_cases limiter apiKey estimate now newId
    · have answer := congrArg Prod.fst (books.reserve_reserveSync limiter apiKey estimate now newId)
      rw [refused] at answer ⊢
      rw [← answer] at same
      split
      next => rfl
      next reservation after kept =>
        rw [kept] at same
        cases error <;> cases same
    · have answer := congrArg Prod.fst (books.reserve_reserveSync limiter apiKey estimate now newId)
      rw [made] at answer ⊢
      rw [← answer] at same
      split
      next error after kept =>
        rw [kept] at same
        cases error <;> cases same
      next =>
        rw [Books.keptTable,Books.keptTable,admitted,unevicted_addEntry,rows_append]
        rfl
  | commit reservation actual =>
    simp only [executeKeeping,execute,Books.execute,Books.keptTable,Books.commit]
    rw [unevicted_settle,commitSync_rows]
  | release reservation =>
    simp only [executeKeeping,execute,Books.execute,Books.keptTable,Books.release]
    rw [unevicted_giveBack,releaseSync_rows]
  | usage apiKey now => rfl

theorem observations_unnoticed (operations : List Operation) (past : List (Books × Operation))
    (books : Books) :
    observations (execute limiter) books.table operations =
        observations (executeKeeping limiter) books.keptTable operations ↔
      Along (fun _ books op => Unnoticed limiter books op)
        (fun books op => some (books.execute limiter op)) past books operations := by
  induction operations generalizing past books with
  | nil => exact iff_of_true rfl trivial
  | cons op rest ih =>
    simp only [observations,Along,List.cons.injEq,Option.some.injEq,forall_eq']
    rw [← observation_unnoticed]
    apply and_congr_right
    intro same
    rw [executeKeeping_table limiter books op same,books.execute_table]
    exact ih (past ++ [(books,op)]) (books.execute limiter op)

theorem ofTable_keptTable (table : List Row) : (Books.ofTable table).keptTable = table := by
  have fresh : unevicted (table.map Entry.ofRow) = table.map Entry.ofRow := by
    unfold unevicted
    rw [List.map_map]
    rfl
  rw [Books.keptTable,Books.ofTable,fresh]
  exact (Books.ofTable table).balanced.symm

/-- In a run whose calls come in any order of their clock readings, the sweep goes unnoticed
exactly if no call reads a window in which evicted rows would make a difference. -/
theorem eviction_invisible (table : List Row) (operations : List Operation) :
    observations (execute limiter) table operations =
        observations (executeKeeping limiter) table operations ↔
      Along (fun _ books op => Unnoticed limiter books op)
        (fun books op => some (books.execute limiter op)) [] (Books.ofTable table) operations := by
  have runs := observations_unnoticed limiter operations [] (Books.ofTable table)
  rw [ofTable_keptTable] at runs
  exact runs

/-- The clock of the last call was read before that of the one that sweeps, and its own window
still reaches back to the row that is gone. -/
theorem late_transaction_misses_row :
    ¬∀ (limiter : SlidingWindowRateLimiter) (operations : List Operation),
      observations (execute limiter) [] operations =
        observations (executeKeeping limiter) [] operations := by
  intro every
  let operations : List Operation := [.reserve 0 (lit "tenant-a") 60 0,
    .reserve 1 (lit "tenant-b") 10 61,.reserve 2 (lit "tenant-a") 60 59]
  have same := every ⟨100,60⟩ operations
  have swept : observations (execute ⟨100,60⟩) [] operations =
      [.granted ⟨0,lit "tenant-a",60⟩,.granted ⟨1,lit "tenant-b",10⟩,.granted ⟨2,lit "tenant-a",60⟩] := by
    decide +kernel
  have kept : observations (executeKeeping ⟨100,60⟩) [] operations =
      [.granted ⟨0,lit "tenant-a",60⟩,.granted ⟨1,lit "tenant-b",10⟩,.refused 60] := by
    decide +kernel
  rw [swept,kept] at same
  simp at same

end GatewaySuite.Limiter
