import RankedSearch.Proofs.Retention

/-!
# What the order of arrival decides

When outcomes arrive in another order, other outcomes of a tied score may be
retained, and single admissions and evictions differ. The scores that are
retained do not, and neither do the counts (`Retains.alike`): the sorted scores
of all complete outcomes are the same, and so is their front. The first of them is
the least score of all (`Retains.bestScore?_eq`).
-/

set_option autoImplicit false

namespace RankedSearch

variable {os ps : List Outcome}

/-! ## Scores of a ranking -/

theorem mem_arrivedFrom {n : Nat} {e : Entry} (member : e ∈ arrivedFrom n os) :
    e.outcome ∈ os ∧ e.outcome.score = some e.score := by
  obtain ⟨⟨⟨s, o⟩, i⟩, indexed, rfl⟩ := List.mem_map.mp member
  obtain ⟨p, inside, scored⟩ := List.mem_filterMap.mp (List.fst_mem_of_mem_zipIdx indexed)
  obtain ⟨t, complete, pair⟩ := Option.map_eq_some_iff.mp scored
  cases pair
  exact ⟨inside, complete⟩

theorem mem_arrived {e : Entry} (member : e ∈ arrived os) :
    e.outcome ∈ os ∧ e.outcome.score = some e.score := @mem_arrivedFrom os 0 e member

theorem map_score_arrived (os : List Outcome) :
    (arrived os).map Entry.score = os.filterMap Outcome.score := by
  induction os using List.reverseRecOn with
  | nil => rfl
  | append_singleton os o ih =>
      cases complete : o.score with
      | none => simp [arrived_concat_incomplete complete, ih, complete]
      | some s => simp [arrived_concat_complete complete, ih, complete]

/-- The scores of a ranking are those that were handed in. -/
theorem map_score_ranking_perm (os : List Outcome) :
    ((ranking (arrived os)).map Entry.score).Perm (os.filterMap Outcome.score) :=
  map_score_arrived os ▸ (ranking_perm _).map Entry.score

theorem map_score_ranking_sorted (os : List Outcome) :
    ((ranking (arrived os)).map Entry.score).Pairwise fun a b => a ≤ b :=
  List.pairwise_map.mpr (ranking_sorted _)

/-- The sorted scores do not depend on the order of arrival. -/
theorem map_score_ranking_of_perm (perm : os.Perm ps) :
    (ranking (arrived os)).map Entry.score = (ranking (arrived ps)).map Entry.score := by
  have same := ((map_score_ranking_perm os).trans (perm.filterMap Outcome.score)).trans
    (map_score_ranking_perm ps).symm
  exact same.eq_of_pairwise (fun _ _ _ _ => le_antisymm) (map_score_ranking_sorted os)
    (map_score_ranking_sorted ps)

/-- A ranking begins with the least score. -/
theorem head?_map_score_ranking (os : List Outcome) :
    ((ranking (arrived os)).map Entry.score).head? = (os.filterMap Outcome.score).min? := by
  have least : ((ranking (arrived os)).map Entry.score).Pairwise fun a b => min a b = a :=
    (map_score_ranking_sorted os).imp min_eq_left
  rw [← List.min?_eq_head? least]
  exact Score.min?_eq_of_perm (map_score_ranking_perm os)

namespace History

variable {h k : History}

/-! ## Alike histories -/

/-- Two histories that retain the same scores in the same order and have counted
the same. -/
structure Alike (h k : History) : Prop where
  scores : h.all.map Outcome.score = k.all.map Outcome.score
  evicted : h.evicted = k.evicted
  ignored : h.ignored = k.ignored

theorem Alike.size_eq (alike : h.Alike k) : h.size = k.size := by
  have lengths := congrArg List.length alike.scores
  simpa [all, size] using lengths

theorem bestScore?_eq (h : History) : h.bestScore? = (h.all.map Outcome.score).head?.join := by
  rw [bestScore?, best?, first?, all, List.map_map, List.head?_map]
  cases h.entries.head? <;> rfl

theorem Alike.bestScore?_eq (alike : h.Alike k) : h.bestScore? = k.bestScore? := by
  rw [History.bestScore?_eq, History.bestScore?_eq, alike.scores]

theorem Alike.orSentinel (alike : h.Alike k) : h.orSentinel.Alike k.orSentinel := by
  have sizes : h.entries.length = k.entries.length := alike.size_eq
  have empty : h.isEmpty = k.isEmpty := by
    rw [Bool.eq_iff_iff, isEmpty, isEmpty, List.isEmpty_iff_length_eq_zero,
      List.isEmpty_iff_length_eq_zero, sizes]
  rw [History.orSentinel, History.orSentinel, empty]
  split
  · exact ⟨rfl, rfl, rfl⟩
  · exact alike

theorem Retains.scores_eq (retains : h.Retains os) :
    h.all.map Outcome.score =
      (((ranking (arrived os)).map Entry.score).take h.capacity).map some := by
  rw [all, List.map_map, retains.entries, ← List.map_take, List.map_map]
  refine List.map_congr_left fun e member => ?_
  exact (mem_arrived ((ranking_perm _).mem_iff.mp (List.mem_of_mem_take member))).2

/-- The best score of a history is the least of all that it was handed, whether
it retains them or not. -/
theorem Retains.bestScore?_eq (retains : h.Retains os) :
    h.bestScore? = (os.filterMap Outcome.score).min? := by
  have some : h.capacity ≠ 0 := Nat.one_le_iff_ne_zero.mp retains.positive
  rw [h.bestScore?_eq, retains.scores_eq, List.head?_map, List.head?_take, if_neg some,
    head?_map_score_ranking]
  cases (os.filterMap Outcome.score).min? <;> rfl

theorem bestScore?_orSentinel (h : History) : h.orSentinel.bestScore? = h.bestScore? := by
  rw [bestScore?, bestScore?, best?, best?, first?, first?, entries_orSentinel]

/-- **The order of arrival leaves alike histories**, if they have the same capacity. -/
theorem Retains.alike (first : h.Retains os) (second : k.Retains ps) (perm : os.Perm ps)
    (capacity : h.capacity = k.capacity) : h.Alike k where
  scores := by
    rw [first.scores_eq, second.scores_eq, map_score_ranking_of_perm perm, capacity]
  evicted := by
    rw [first.evicted, second.evicted, perm.countP_eq, capacity]
  ignored := by
    rw [first.ignored, second.ignored, perm.countP_eq]

end History
end RankedSearch
