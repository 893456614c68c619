import Mathlib.Data.List.Basic
import Mathlib.Tactic.Common

/-! Entries that are filed under a key. A selection that leaves nothing out under any key leaves
nothing out at all. -/
namespace GatewaySuite.Lib
variable {α β κ : Type}

open Classical in
/-- Under each key, the entries of the first list come in the second, in their order. -/
def KeptUnder (key : α → κ) (entries selected : List α) : Prop :=
  ∀ k, (entries.filter fun x => decide (key x = k)).Sublist
    (selected.filter fun x => decide (key x = k))

theorem KeptUnder.refl (key : α → κ) (entries : List α) : KeptUnder key entries entries :=
  fun _ => List.Sublist.refl _

open Classical in
theorem KeptUnder.eq {key : α → κ} {entries selected : List α} (kept : KeptUnder key entries selected)
    (selection : selected.Sublist entries) : selected = entries := by
  induction selection with
  | slnil => rfl
  | @cons selected entries x rest _ =>
    have long := (kept (key x)).length_le
    have short := (rest.filter fun y => decide (key y = key x)).length_le
    rw [List.filter_cons_of_pos (by simp),List.length_cons] at long
    omega
  | @cons_cons selected entries x rest ih =>
    have tail : KeptUnder key entries selected := by
      intro k
      have here := kept k
      by_cases same : key x = k
      · rw [List.filter_cons_of_pos (by simpa using same),
          List.filter_cons_of_pos (by simpa using same)] at here
        exact List.cons_sublist_cons.mp here
      · rwa [List.filter_cons_of_neg (by simpa using same),
          List.filter_cons_of_neg (by simpa using same)] at here
    rw [ih tail]

/-- The entries of the parts that a test admits. -/
def admitted (test : α → Bool) (part : α → List β) (xs : List α) : List β :=
  xs.flatMap fun x => if test x then part x else []

theorem admitted_sublist (test : α → Bool) (part : α → List β) (xs : List α) :
    (admitted test part xs).Sublist (xs.flatMap part) := by
  induction xs with
  | nil => exact .slnil
  | cons x rest ih =>
    rw [admitted,List.flatMap_cons,List.flatMap_cons]
    refine List.Sublist.append ?_ ih
    split_ifs
    · exact List.Sublist.refl _
    · exact List.nil_sublist _

theorem admitted_all (test : α → Bool) (part : α → List β) (xs : List α) :
    admitted test part xs = xs.flatMap part ↔ ∀ x ∈ xs, part x ≠ [] → test x = true := by
  induction xs with
  | nil => simp [admitted]
  | cons x rest ih =>
    rw [admitted,List.flatMap_cons,List.flatMap_cons,List.forall_mem_cons,← ih]
    cases here : test x with
    | true => simp [admitted]
    | false =>
      rw [if_neg Bool.false_ne_true,List.nil_append]
      by_cases none : part x = []
      · simp [none,admitted]
      · refine iff_of_false (fun same => ?_) (fun all => absurd (all.1 none) Bool.false_ne_true)
        have short := (admitted_sublist test part rest).length_le
        have long := List.length_pos_of_ne_nil none
        rw [admitted,same,List.length_append] at short
        omega

end GatewaySuite.Lib
