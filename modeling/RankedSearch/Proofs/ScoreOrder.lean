import Mathlib.Order.MinMax
import RankedSearch.Score

/-!
# The order of scores

The place of a word in the total order of words (`Binary64.totalKey`) determines
the word, so scores are linearly ordered by it. Two scores that rank no worse
than each other are equal: a tie is a tie of the words themselves.
-/

set_option autoImplicit false

namespace RankedSearch

namespace Binary64

/-- A word is its sign and its magnitude. -/
theorem toNat_bits (x : Binary64) :
    x.bits.toNat = (if x.isNegative then signWeight else 0) + x.magnitude := by
  have bound := x.bits.toNat_lt
  by_cases sign : signWeight ≤ x.bits.toNat
  · simp only [isNegative, magnitude, sign, decide_true, if_true]
    simp only [signWeight] at sign ⊢
    omega
  · simp only [isNegative, magnitude, sign, decide_false, Bool.false_eq_true, if_false]
    simp only [signWeight] at sign ⊢
    omega

theorem totalKey_injective : Function.Injective totalKey := by
  intro x y same
  have sameBits : x.bits.toNat = y.bits.toNat := by
    rw [toNat_bits x, toNat_bits y]
    simp only [totalKey] at same
    split at same <;> split at same <;> simp_all <;> omega
  cases x
  cases y
  exact congrArg Binary64.mk (UInt64.toNat_inj.mp sameBits)

end Binary64

namespace Score

theorem word_injective : Function.Injective Score.word := by
  intro a b same
  cases a
  cases b
  cases same
  rfl

/-- Scores are ordered by the places of their words. -/
instance : LinearOrder Score where
  le a b := a.word.totalKey ≤ b.word.totalKey
  le_refl a := Int.le_refl _
  le_trans a b c := Int.le_trans
  le_antisymm a b first second :=
    word_injective (Binary64.totalKey_injective (Int.le_antisymm first second))
  le_total a b := Int.le_total _ _
  toDecidableLE a b := inferInstanceAs (Decidable (a.word.totalKey ≤ b.word.totalKey))
  toDecidableEq := inferInstance
  min := Score.min
  min_def a b := by
    simp only [Score.min, Score.le, decide_eq_true_eq]

instance : Std.LawfulOrderMin Score where
  le_min_iff _ _ _ := le_min_iff
  min_eq_or a b := min_choice a b

@[simp] theorem le_eq_true {a b : Score} : a.le b = true ↔ a ≤ b := decide_eq_true_iff

@[simp] theorem le_eq_false {a b : Score} : a.le b = false ↔ b < a := by
  rw [← Bool.not_eq_true, le_eq_true, not_le]

/-- Some of several scores have the least score among them if none of the others
is lower than all of them. -/
theorem min?_eq_of_covers {xs ys : List Score} (inside : ∀ x ∈ xs, x ∈ ys)
    (covers : ∀ y ∈ ys, ∃ x ∈ xs, x ≤ y) : xs.min? = ys.min? := by
  cases least : ys.min? with
  | none =>
      rw [List.min?_eq_none_iff] at least ⊢
      subst least
      exact List.eq_nil_iff_forall_not_mem.mpr fun x member => List.not_mem_nil (inside x member)
  | some m =>
      obtain ⟨member, lower⟩ := List.min?_eq_some_iff.mp least
      obtain ⟨x, chosen, below⟩ := covers m member
      have same : x = m := le_antisymm below (lower x (inside x chosen))
      exact List.min?_eq_some_iff.mpr ⟨same ▸ chosen, fun y other => lower y (inside y other)⟩

theorem min?_eq_of_perm {xs ys : List Score} (perm : xs.Perm ys) : xs.min? = ys.min? :=
  min?_eq_of_covers (fun _ member => perm.mem_iff.mp member)
    fun y member => ⟨y, perm.mem_iff.mpr member, le_refl y⟩

/-- Of several groups only the least score of each counts. -/
theorem min?_append_filterMap_min? (xs : List Score) (groups : List (List Score)) :
    (xs ++ groups.filterMap List.min?).min? = (xs ++ groups.flatten).min? := by
  refine min?_eq_of_covers ?_ ?_
  · intro s member
    rcases List.mem_append.mp member with same | least
    · exact List.mem_append_left _ same
    · obtain ⟨group, inside, found⟩ := List.mem_filterMap.mp least
      exact List.mem_append_right _ (List.mem_flatten_of_mem inside (List.min?_mem found))
  · intro s member
    rcases List.mem_append.mp member with same | later
    · exact ⟨s, List.mem_append_left _ same, le_refl s⟩
    · obtain ⟨group, inside, own⟩ := List.mem_flatten.mp later
      obtain ⟨m, least⟩ := Option.isSome_iff_exists.mp (List.isSome_min?_of_mem own)
      refine ⟨m, List.mem_append_right _ (List.mem_filterMap.mpr ⟨group, inside, least⟩), ?_⟩
      exact (List.min?_eq_some_iff.mp least).2 s own

end Score
end RankedSearch
