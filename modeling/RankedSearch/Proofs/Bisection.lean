import Mathlib.Data.List.TakeWhile
import RankedSearch.History

/-!
# Bisection finds the boundary

A predicate that holds on the front of an interval and fails on the rest has one
boundary, and bisection returns it (`bisect_eq_of_boundary`). On a list whose
elements that satisfy the predicate all stand in front, the partition point is
therefore the number of elements that a scan from the left passes
(`partitionPoint_eq_length_takeWhile`), and these are all that satisfy the predicate
(`Partitioned.length_takeWhile`).
-/

set_option autoImplicit false

namespace RankedSearch

theorem bisect_eq_of_boundary {p : Nat → Bool} {boundary : Nat} (fuel lo hi : Nat)
    (above : lo ≤ boundary) (below : boundary ≤ hi)
    (front : ∀ i, i < boundary → p i = true) (rest : ∀ i, boundary ≤ i → i < hi → p i = false)
    (enough : hi - lo ≤ fuel) : bisect p fuel lo hi = boundary := by
  fun_induction bisect p fuel lo hi with
  | case1 lo hi => omega
  | case2 lo hi fuel nonempty middle holds ih =>
      -- the middle satisfies the predicate, so the boundary lies behind it
      have behind : middle < boundary := Nat.lt_of_not_le fun before =>
        Bool.eq_false_iff.mp (rest middle before (by omega)) holds
      exact ih behind below rest (by omega)
  | case3 lo hi fuel nonempty middle fails ih =>
      have before : boundary ≤ middle := Nat.le_of_not_lt fun behind =>
        fails (front middle behind)
      exact ih above before (fun i start stop => rest i start (by omega)) (by omega)
  | case4 lo hi fuel single => omega

section PartitionPoint

variable {α : Type} {p : α → Bool} {xs : List α}

/-- The elements that satisfy the predicate stand in front of those that do not. -/
def Partitioned (p : α → Bool) (xs : List α) : Prop :=
  xs.Pairwise fun a b => p b = true → p a = true

theorem Partitioned.dropWhile_fails (partitioned : Partitioned p xs) :
    ∀ a ∈ xs.dropWhile p, p a = false := by
  induction xs with
  | nil => simp
  | cons x xs ih =>
      obtain ⟨first, tail⟩ := List.pairwise_cons.mp partitioned
      by_cases holds : p x = true
      · rw [List.dropWhile_cons_of_pos holds]
        exact ih tail
      · rw [List.dropWhile_cons_of_neg holds]
        intro a member
        rcases List.mem_cons.mp member with rfl | inTail
        · exact Bool.eq_false_iff.mpr holds
        · exact Bool.eq_false_iff.mpr fun later => holds (first a inTail later)

/-- The elements that a scan from the left passes are all that satisfy the predicate. -/
theorem Partitioned.length_takeWhile (partitioned : Partitioned p xs) :
    (xs.takeWhile p).length = xs.countP p := by
  have passed : (xs.takeWhile p).countP p = (xs.takeWhile p).length := by
    rw [List.countP_eq_length]
    intro a member
    exact List.mem_takeWhile_imp member
  have left : (xs.dropWhile p).countP p = 0 := by
    rw [List.countP_eq_zero]
    intro a member
    simp [partitioned.dropWhile_fails a member]
  calc
    (xs.takeWhile p).length
        = (xs.takeWhile p).countP p + (xs.dropWhile p).countP p := by rw [passed, left, Nat.add_zero]
    _ = (xs.takeWhile p ++ xs.dropWhile p).countP p := List.countP_append.symm
    _ = xs.countP p := by rw [List.takeWhile_append_dropWhile]

/-- A front satisfies the predicate exactly if enough elements do. -/
theorem Partitioned.forall_mem_take_iff (partitioned : Partitioned p xs) {k : Nat}
    (inside : k ≤ xs.length) : (∀ a ∈ xs.take k, p a = true) ↔ k ≤ xs.countP p := by
  constructor
  · intro holds
    calc
      k = (xs.take k).length := (List.length_take_of_le inside).symm
      _ = (xs.take k).countP p := (List.countP_eq_length.mpr holds).symm
      _ ≤ xs.countP p := (List.take_sublist k xs).countP_le
  · intro enough a member
    rw [← partitioned.length_takeWhile] at enough
    have split : xs.takeWhile p ++ xs.dropWhile p = xs := List.takeWhile_append_dropWhile
    rw [← split, List.take_append_of_le_length enough] at member
    exact List.mem_takeWhile_imp (List.mem_of_mem_take member)

/-- Bisection finds the place that a linear scan finds. -/
theorem partitionPoint_eq_length_takeWhile (partitioned : Partitioned p xs) :
    partitionPoint p xs = (xs.takeWhile p).length := by
  have split : xs = xs.takeWhile p ++ xs.dropWhile p := List.takeWhile_append_dropWhile.symm
  refine bisect_eq_of_boundary _ _ _ (Nat.zero_le _) (List.takeWhile_prefix p).length_le ?_ ?_
    (Nat.le_refl _)
  · intro i inFront
    rw [split, List.getElem?_append_left inFront, List.getElem?_eq_getElem inFront]
    have holds : p (xs.takeWhile p)[i] = true :=
      List.mem_takeWhile_imp (List.getElem_mem inFront)
    exact holds
  · intro i behind inside
    rw [split, List.length_append] at inside
    rw [split, List.getElem?_append_right behind,
      List.getElem?_eq_getElem (by omega)]
    exact partitioned.dropWhile_fails _ (List.getElem_mem _)

theorem partitionPoint_le_length (partitioned : Partitioned p xs) :
    partitionPoint p xs ≤ xs.length := by
  rw [partitionPoint_eq_length_takeWhile partitioned]
  exact (List.takeWhile_prefix p).length_le

/-- It is the index at which the scan stops. -/
theorem partitionPoint_eq_findIdx (partitioned : Partitioned p xs) :
    partitionPoint p xs = xs.findIdx fun a => !p a := by
  rw [partitionPoint_eq_length_takeWhile partitioned, List.takeWhile_eq_take_findIdx_not,
    List.length_take_of_le List.findIdx_le_length]

/-- The elements in front of the partition point are those that satisfy the predicate. -/
theorem Partitioned.holds_iff_lt (partitioned : Partitioned p xs) {i : Nat} {a : α}
    (here : xs[i]? = some a) : p a = true ↔ i < partitionPoint p xs := by
  have split : xs = xs.takeWhile p ++ xs.dropWhile p := List.takeWhile_append_dropWhile.symm
  rw [partitionPoint_eq_length_takeWhile partitioned]
  rw [split] at here
  by_cases inFront : i < (xs.takeWhile p).length
  · rw [List.getElem?_append_left inFront] at here
    exact iff_of_true (List.mem_takeWhile_imp (List.mem_of_getElem? here)) inFront
  · rw [List.getElem?_append_right (Nat.le_of_not_lt inFront)] at here
    have fails := partitioned.dropWhile_fails a (List.mem_of_getElem? here)
    exact iff_of_false (Bool.eq_false_iff.mp fails) inFront

end PartitionPoint
end RankedSearch
