import GatewaySuite.Limiter.Store

/-! The ledger keeps what the table forgets: every reservation ever admitted, with what
became of it. The table is the ledger's view of the entries that are still present. -/
namespace GatewaySuite.Limiter
open Python

structure Entry where
  id : Nat
  apiKey : Str
  estimate : Int
  createdAt : ℚ
  actual : Option Int
  released : Bool
  evicted : Bool

namespace Entry

def present (e : Entry) : Bool := !e.released && !e.evicted

def row (e : Entry) : Row :=
  ⟨e.id,e.apiKey,e.actual.getD e.estimate,e.createdAt,
    if e.actual.isSome then .committed else .reserved⟩

/-- What a reservation is charged: the actual count if committed, the estimate if not, zero
if released. -/
def charge (e : Entry) : Int := if e.released then 0 else e.actual.getD e.estimate

def overrun (e : Entry) : Int :=
  if e.released then 0 else
    match e.actual with
    | some actual => max 0 (actual - e.estimate)
    | none => 0

end Entry

def rows (ledger : List Entry) : List Row := (ledger.filter Entry.present).map Entry.row

def addEntry (ledger : List Entry) (cutoff : ℚ) (entry : Entry) : List Entry :=
  ledger.map (fun e => if e.createdAt < cutoff then {e with evicted := true} else e) ++ [entry]

def settle (ledger : List Entry) (id : Nat) (actual : Int) : List Entry :=
  ledger.map fun e => if e.id = id then {e with actual := some actual} else e

def giveBack (ledger : List Entry) (id : Nat) : List Entry :=
  ledger.map fun e => if e.id = id then {e with released := true} else e

def opened (id : Nat) (apiKey : Str) (estimate : Int) (now : ℚ) : Entry :=
  ⟨id,apiKey,estimate,now,none,false,false⟩

theorem rows_cons (e : Entry) (rest : List Entry) :
    rows (e::rest) = (if e.present then [e.row] else []) ++ rows rest := by
  unfold rows
  cases here : e.present <;> simp [here]

theorem rows_append (first second : List Entry) :
    rows (first++second) = rows first ++ rows second := by simp [rows]

theorem evict_rows (ledger : List Entry) (cutoff : ℚ) :
    rows (ledger.map fun e => if e.createdAt < cutoff then {e with evicted := true} else e) =
      (rows ledger).filter fun row => !decide (row.createdAt < cutoff) := by
  induction ledger with
  | nil => rfl
  | cons e rest ih =>
    rw [List.map_cons,rows_cons,rows_cons,List.filter_append,ih]
    congr 1
    by_cases old : e.createdAt < cutoff
    · cases here : e.present <;> simp [old,Entry.present,Entry.row]
    · cases here : e.present <;> simp [old,here,Entry.row]

theorem commitSync_rows (ledger : List Entry) (id : Nat) (actual : Int) :
    commitSync (rows ledger) id actual = rows (settle ledger id actual) := by
  induction ledger with
  | nil => rfl
  | cons e rest ih =>
    unfold settle commitSync at ih ⊢
    rw [List.map_cons,rows_cons,rows_cons,List.map_append,ih]
    congr 1
    by_cases mine : e.id = id
    · cases here : e.present <;> simp_all [Entry.present,Entry.row]
    · cases here : e.present <;> simp [mine,here,Entry.row]

theorem releaseSync_rows (ledger : List Entry) (id : Nat) :
    releaseSync (rows ledger) id = rows (giveBack ledger id) := by
  induction ledger with
  | nil => rfl
  | cons e rest ih =>
    unfold giveBack releaseSync at ih ⊢
    rw [List.map_cons,rows_cons,rows_cons,List.filter_append,ih]
    congr 1
    by_cases mine : e.id = id
    · cases here : e.present <;> simp [mine,Entry.present,Entry.row]
    · cases here : e.present <;> simp [mine,here,Entry.row]

theorem reserveSync_ok {self : SlidingWindowRateLimiter} {table after : List Row} {apiKey : Str}
    {estimate : Int} {now : ℚ} {newId : Nat} {reservation : Reservation}
    (made : reserveSync self table apiKey estimate now newId = (.ok reservation,after)) :
    reservation = ⟨newId,apiKey,estimate⟩ ∧ 0 ≤ estimate ∧
      sumTokens table apiKey (now - self.window) + estimate ≤ self.limit ∧
      after = table.filter (fun row => !decide (row.createdAt < now - self.window)) ++
        [⟨newId,apiKey,estimate,now,.reserved⟩] := by
  unfold reserveSync at made
  dsimp only at made
  split_ifs at made with negative full
  · cases made
  · cases made
  · cases made
    exact ⟨rfl,by omega,by omega,rfl⟩

theorem reserveSync_error {self : SlidingWindowRateLimiter} {table after : List Row} {apiKey : Str}
    {estimate : Int} {now : ℚ} {newId : Nat} {error : ReserveError}
    (refused : reserveSync self table apiKey estimate now newId = (.error error,after)) :
    after = table := by
  unfold reserveSync at refused
  dsimp only at refused
  split_ifs at refused <;> cases refused <;> rfl

structure Books where
  table : List Row
  ledger : List Entry
  balanced : table = rows ledger

namespace Books

def empty : Books := ⟨[],[],rfl⟩

def reserve (self : SlidingWindowRateLimiter) (books : Books) (apiKey : Str) (estimate : Int)
    (now : ℚ) (newId : Nat) : Except ReserveError Reservation × Books :=
  match made : reserveSync self books.table apiKey estimate now newId with
  | (.error error,_) => (.error error,books)
  | (.ok reservation,table) =>
    (.ok reservation,
      ⟨table,addEntry books.ledger (now - self.window) (opened newId apiKey estimate now),by
        rw [(reserveSync_ok made).2.2.2,addEntry,rows_append,evict_rows,← books.balanced]
        rfl⟩)

def commit (books : Books) (id : Nat) (actual : Int) : Books :=
  ⟨commitSync books.table id actual,settle books.ledger id actual,
    books.balanced ▸ commitSync_rows books.ledger id actual⟩

def release (books : Books) (id : Nat) : Books :=
  ⟨releaseSync books.table id,giveBack books.ledger id,
    books.balanced ▸ releaseSync_rows books.ledger id⟩

theorem reserve_reserveSync (self : SlidingWindowRateLimiter) (books : Books) (apiKey : Str)
    (estimate : Int) (now : ℚ) (newId : Nat) :
    ((books.reserve self apiKey estimate now newId).1,
      (books.reserve self apiKey estimate now newId).2.table) =
        reserveSync self books.table apiKey estimate now newId := by
  unfold reserve
  split
  next error table refused => rw [refused,reserveSync_error refused]
  next reservation table made => exact made.symm

/-- What a reserve can do: refuse and leave the books, or grant within the limit. -/
theorem reserve_cases (self : SlidingWindowRateLimiter) (books : Books) (apiKey : Str)
    (estimate : Int) (now : ℚ) (newId : Nat) :
    (∃ error, books.reserve self apiKey estimate now newId = (.error error,books)) ∨
    ∃ next, books.reserve self apiKey estimate now newId =
        (.ok ⟨newId,apiKey,estimate⟩,next) ∧
      0 ≤ estimate ∧
      sumTokens books.table apiKey (now - self.window) + estimate ≤ self.limit ∧
      next.ledger = addEntry books.ledger (now - self.window) (opened newId apiKey estimate now) := by
  unfold reserve
  split
  next error table refused => exact Or.inl ⟨error,rfl⟩
  next reservation table made =>
    obtain ⟨same,nonneg,room,_⟩ := reserveSync_ok made
    subst same
    exact Or.inr ⟨_,rfl,nonneg,room,rfl⟩

end Books
end GatewaySuite.Limiter
