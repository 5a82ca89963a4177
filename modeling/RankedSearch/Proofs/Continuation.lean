import RankedSearch.Proofs.Admission

/-!
# Going on with a history

A history is handed more outcomes after it was full and has dropped some. What it
dropped does not matter any more: to rank everything together and cut it off leaves
the same as to rank what is still there and what comes new (`take_ranking_append`),
because what is cut off behind the front of a ranking never comes back.

So a history that goes on retains the front of the stable sort of what it retained
and of the complete outcomes that it is handed (`History.Retains.continues`).
-/

set_option autoImplicit false

namespace RankedSearch

/-! ## Later arrivals -/

theorem map_outcome_arrivedFrom (n : Nat) (os : List Outcome) :
    (arrivedFrom n os).map Entry.outcome = os.filter Outcome.isComplete := by
  induction os generalizing n with
  | nil => rfl
  | cons o os ih =>
      cases complete : o.score with
      | none =>
          have missing : o.isComplete = false := by simp [Outcome.isComplete, complete]
          rw [List.filter_cons_of_neg (by simp [missing]), ← ih n]
          simp [arrivedFrom, complete]
      | some s =>
          have present : o.isComplete = true := by simp [Outcome.isComplete, complete]
          rw [List.filter_cons_of_pos present, ← ih (n + 1)]
          simp [arrivedFrom, complete, List.zipIdx_cons]

/-! ## The front of a ranking -/

/-- What is dropped early does not come back: the front of a ranking is that of the
earlier front and the later arrivals. -/
theorem take_ranking_append {es fs : List Entry} (ordered : InArrivalOrder (es ++ fs)) (n : Nat) :
    (ranking ((ranking es).take n ++ fs)).take n = (ranking (es ++ fs)).take n := by
  induction fs using List.reverseRecOn with
  | nil =>
      have sorted := (ranking_sorted es).sublist (List.take_sublist n _)
      rw [List.append_nil, List.append_nil, ranking_eq_self sorted, List.take_take, min_self]
  | append_singleton fs e ih =>
      rw [← List.append_assoc] at ordered ⊢
      obtain ⟨earlier, _, newest⟩ := List.pairwise_append.mp ordered
      obtain ⟨before, after, across⟩ := List.pairwise_append.mp earlier
      have kept : ∀ f ∈ (ranking es).take n, f ∈ es := by
        intro f member
        exact (ranking_perm es).mem_iff.mp (List.mem_of_mem_take member)
      -- The front is out of order, but where scores tie it is not.
      have ties : TiesInOrder ((ranking es).take n ++ fs) := by
        refine List.pairwise_append.mpr ⟨?_, InArrivalOrder.ties after, ?_⟩
        · exact (ranked_ranking before).ties.sublist (List.take_sublist n _)
        · intro f inFront g later _
          exact across f (kept f inFront) g later
      have latest : ∀ f ∈ (ranking es).take n ++ fs, f.arrival < e.arrival := by
        intro f member
        refine newest f ?_ e (List.mem_singleton_self e)
        rcases List.mem_append.mp member with inFront | later
        · exact List.mem_append_left fs (kept f inFront)
        · exact List.mem_append_right es later
      rw [← List.append_assoc, ties.ranking_concat latest, ranking_concat ordered,
        ← take_insertBehind_take e (ranking (es ++ fs)), ← ih earlier, take_insertBehind_take]

/-! ## Outcomes by rank -/

/-- Whether a complete outcome ranks no worse than another one. -/
def Outcome.ranksNoWorse (o p : Outcome) : Bool := p.score.any fun s => o.scoresNoWorse s

/-- On outcomes, a ranking is the stable sort by score. -/
theorem map_outcome_ranking {es : List Entry}
    (scored : ∀ e ∈ es, e.outcome.score = some e.score) :
    (ranking es).map Entry.outcome = (es.map Entry.outcome).mergeSort Outcome.ranksNoWorse := by
  refine List.map_mergeSort ?_
  intro e member f other
  simp [Outcome.ranksNoWorse, Outcome.scoresNoWorse, scored e member, scored f other]

namespace History

variable {old next : History} {os ps : List Outcome}

/-! ## Going on -/

/-- What a history has become after it was handed more outcomes: it retains the front of
the stable sort of what it retained before and the complete ones among them, and the
counters tell what it does not retain. -/
structure Continues (old : History) (os : List Outcome) (next : History) : Prop where
  owner : next.owner = old.owner
  capacity : next.capacity = old.capacity
  all : next.all =
    ((old.all ++ os.filter Outcome.isComplete).mergeSort Outcome.ranksNoWorse).take old.capacity
  evicted : next.evicted =
    old.evicted + (old.size + os.countP Outcome.isComplete - old.capacity)
  ignored : next.ignored = old.ignored + os.countP fun o => !o.isComplete

theorem Retains.addAll (retains : old.Retains os) (ps : List Outcome) :
    (old.addAll ps).Retains (os ++ ps) := by
  induction ps using List.reverseRecOn with
  | nil =>
      rw [List.append_nil]
      exact retains
  | append_singleton ps o ih =>
      rw [addAll_concat, ← List.append_assoc]
      exact ih.add o

/-- Going on from what is retained is ranking the whole past together. -/
theorem Retains.entries_addAll (retains : old.Retains os) (ps : List Outcome) :
    (old.addAll ps).entries =
      (ranking (old.entries ++ arrivedFrom old.arrivals ps)).take old.capacity := by
  have numbered : old.arrivals = (arrived os).length := by
    rw [retains.arrivals, length_arrived]
  have ordered := arrived_inArrivalOrder (os ++ ps)
  rw [arrived_append] at ordered
  rw [(retains.addAll ps).entries, capacity_addAll, arrived_append, retains.entries, numbered]
  exact (take_ranking_append ordered old.capacity).symm

theorem Retains.continues (retains : old.Retains os) (ps : List Outcome) :
    Continues old ps (old.addAll ps) where
  owner := owner_addAll old ps
  capacity := capacity_addAll old ps
  all := by
    have scored : ∀ e ∈ old.entries ++ arrivedFrom old.arrivals ps,
        e.outcome.score = some e.score := by
      intro e member
      rcases List.mem_append.mp member with before | later
      · exact retains.score_outcome before
      · exact (mem_arrivedFrom later).2
    rw [History.all, retains.entries_addAll, List.map_take, map_outcome_ranking scored,
      List.map_append, map_outcome_arrivedFrom, ← History.all]
  evicted := by
    have sizes := retains.length_entries
    rw [(retains.addAll ps).evicted, retains.evicted, List.countP_append, capacity_addAll, size,
      sizes]
    omega
  ignored := by
    rw [(retains.addAll ps).ignored, retains.ignored, List.countP_append]

end History
end RankedSearch
