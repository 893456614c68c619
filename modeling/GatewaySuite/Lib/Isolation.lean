import Mathlib.Data.List.Basic
import Mathlib.Tactic.Common

/-! Machines that answer every request. Some requests are isolated from the others if no other
changes what they see, and what they see decides how they are answered. -/
namespace GatewaySuite.Lib
variable {S E R : Type} (answer : S → E → R × S)

def replies : S → List E → List (E × R)
  | _,[] => []
  | s,e::rest => (e,(answer s e).1) :: replies (answer s e).2 rest

def leaves (s : S) (requests : List E) : S := requests.foldl (fun s e => (answer s e).2) s

/-- Without the others, the isolated requests get the same replies and leave a state that looks
the same to them. -/
theorem replies_isolated (mine : E → Bool) (alike : S → S → Prop) {requests : List E}
    (others : ∀ s t, ∀ e ∈ requests, alike s t → mine e = false → alike (answer s e).2 t)
    (own : ∀ s t, ∀ e ∈ requests, alike s t → mine e = true →
      (answer s e).1 = (answer t e).1 ∧ alike (answer s e).2 (answer t e).2)
    {s t : S} (start : alike s t) :
    (replies answer s requests).filter (fun entry => mine entry.1) =
        replies answer t (requests.filter mine) ∧
      alike (leaves answer s requests) (leaves answer t (requests.filter mine)) := by
  induction requests generalizing s t with
  | nil => exact ⟨rfl,start⟩
  | cons e rest ih =>
    have tail {s t : S} (start : alike s t) :=
      ih (fun s t x member => others s t x (List.mem_cons_of_mem e member))
        (fun s t x member => own s t x (List.mem_cons_of_mem e member)) start
    cases kind : mine e with
    | false =>
      rw [replies,List.filter_cons_of_neg (by simp [kind]),List.filter_cons_of_neg (by simp [kind])]
      exact tail (others s t e List.mem_cons_self start kind)
    | true =>
      obtain ⟨same,after⟩ := own s t e List.mem_cons_self start kind
      obtain ⟨later,left⟩ := tail after
      rw [replies,List.filter_cons_of_pos (by simp [kind]),List.filter_cons_of_pos (by simp [kind]),
        replies,later,same]
      exact ⟨rfl,left⟩

end GatewaySuite.Lib
