import Mathlib.Algebra.Group.Hom.Defs

/-! Check sums: the weight of a digit depends on its place. Putting another digit in one
place, or swapping two neighbours, leaves the sum only if the weights of these places do. -/
namespace GatewaySuite.Lib
variable {D G H : Type}

/-- The sum of the weighted digits, the first of which stands at place `i`. -/
def checksum [AddMonoid G] (weight : Nat → D → G) : Nat → List D → G
  | _,[] => 0
  | i,d::rest => weight i d + checksum weight (i+1) rest

theorem checksum_append [AddMonoid G] (weight : Nat → D → G) (i : Nat) (front back : List D) :
    checksum weight i (front ++ back) =
      checksum weight i front + checksum weight (i+front.length) back := by
  induction front generalizing i with
  | nil => simp [checksum]
  | cons d rest ih =>
    have place : i+1+rest.length = i+(d::rest).length := by
      rw [List.length_cons]
      omega
    rw [List.cons_append,checksum,checksum,ih,place,add_assoc]

theorem foldl_checksum [AddMonoid G] (weight : Nat → D → G) (i : Nat) (digits : List D) (total : G) :
    (digits.zipIdx i).foldl (fun total x => total + weight x.2 x.1) total =
      total + checksum weight i digits := by
  induction digits generalizing i total with
  | nil => simp [checksum]
  | cons d rest ih => rw [List.zipIdx_cons,List.foldl_cons,ih,checksum,add_assoc]

theorem map_checksum [AddMonoid G] [AddMonoid H] (f : G →+ H) (weight : Nat → D → G) (i : Nat)
    (digits : List D) :
    f (checksum weight i digits) = checksum (fun j d => f (weight j d)) i digits := by
  induction digits generalizing i with
  | nil => exact f.map_zero
  | cons d rest ih => rw [checksum,checksum,f.map_add,ih]

section Errors
variable [AddCancelCommMonoid G] (weight : Nat → D → G) (i : Nat) (front back : List D) (a b : D)

theorem checksum_replace :
    checksum weight i (front ++ a::back) = checksum weight i (front ++ b::back) ↔
      weight (i+front.length) a = weight (i+front.length) b := by
  rw [checksum_append,checksum_append,checksum,checksum,add_right_inj,add_left_inj]

theorem checksum_swap :
    checksum weight i (front ++ a::b::back) = checksum weight i (front ++ b::a::back) ↔
      weight (i+front.length) a + weight (i+front.length+1) b =
        weight (i+front.length) b + weight (i+front.length+1) a := by
  simp only [checksum_append,checksum,← add_assoc (weight _ _),add_right_inj,add_left_inj]

end Errors
end GatewaySuite.Lib
