import Mathlib.Data.List.Induction
import RankedSearch.Proofs.Bisection
import RankedSearch.Proofs.Ranking

/-!
# What a history retains

A history sees its outcomes one at a time and forgets what it evicts. Even so,
after any outcomes it holds exactly the front of their ranking, as if it had
sorted the whole past. `History.Retains` says this of a history and its past;
one addition keeps it (`Retains.add`), so every sequence of additions does
(`retains_addAll`). The counters then follow from the lengths.
-/

set_option autoImplicit false

namespace RankedSearch

/-- In entries sorted by score, those that score no worse stand in front. -/
theorem partitioned_of_sorted {es : List Entry}
    (sorted : es.Pairwise fun a b => a.score ≤ b.score) (s : Score) :
    Partitioned (fun e => e.score.le s) es :=
  sorted.imp fun le holds => Score.le_eq_true.mpr (le.trans (Score.le_eq_true.mp holds))

namespace History

variable {h : History} {os : List Outcome} {o : Outcome} {s : Score}

/-! ## One outcome -/

@[simp] theorem add_incomplete (h : History) (incomplete : o.score = none) :
    h.add o = (.ignored, { h with ignored := h.ignored + 1 }) := by
  simp only [add, incomplete]

@[simp] theorem add_complete (h : History) (complete : o.score = some s) :
    h.add o = h.enter s o := by
  simp only [add, complete]

@[simp] theorem owner_add (h : History) (o : Outcome) : (h.add o).2.owner = h.owner := by
  cases complete : o.score with
  | none => rw [add_incomplete h complete]
  | some s =>
      rw [add_complete h complete, enter]
      split <;> rfl

@[simp] theorem capacity_add (h : History) (o : Outcome) : (h.add o).2.capacity = h.capacity := by
  cases complete : o.score with
  | none => rw [add_incomplete h complete]
  | some s =>
      rw [add_complete h complete, enter]
      split <;> rfl

/-- Only an incomplete outcome is ignored. -/
theorem admission_add_eq_ignored_iff (h : History) (o : Outcome) :
    (h.add o).1 = .ignored ↔ o.score = none := by
  cases complete : o.score with
  | none => simp [add_incomplete h complete]
  | some s =>
      rw [add_complete h complete, enter]
      split
      · simp
      · split
        · split <;> simp
        · simp

/-- The place found by bisection is the one behind every entry that ranks no worse. -/
theorem insertIdx_place {e : Entry} (sorted : h.entries.Pairwise fun a b => a.score ≤ b.score)
    (scored : e.score = s) : h.entries.insertIdx (h.place s) e = insertBehind e h.entries := by
  rw [place, partitionPoint_eq_length_takeWhile (partitioned_of_sorted sorted s)]
  generalize h.entries = es
  induction es with
  | nil => rfl
  | cons x es ih =>
      rcases lt_or_ge s x.score with lower | higher
      · have fails : ¬ x.score.le s = true := fun holds => (Score.le_eq_true.mp holds).not_gt lower
        rw [List.takeWhile_cons, if_neg fails, insertBehind_cons_of_lt es (scored ▸ lower)]
        rfl
      · rw [List.takeWhile_cons, if_pos (Score.le_eq_true.mpr higher), List.length_cons,
          List.insertIdx_succ_cons, insertBehind_cons_of_le es (scored ▸ higher), ih]

/-- A complete outcome is inserted into the ranking, and what then exceeds the
capacity is cut off and counted. -/
theorem enter_eq (sorted : h.entries.Pairwise fun a b => a.score ≤ b.score)
    (bounded : h.entries.length ≤ h.capacity) :
    (h.enter s o).2 =
      { h with
        entries := (insertBehind ⟨s, h.arrivals, o⟩ h.entries).take h.capacity
        arrivals := h.arrivals + 1
        evicted := h.evicted + (h.entries.length + 1 - h.capacity) } := by
  have length := length_insertBehind ⟨s, h.arrivals, o⟩ h.entries
  have entered : h.entries.insertIdx (h.place s) ⟨s, h.arrivals, o⟩ =
      insertBehind ⟨s, h.arrivals, o⟩ h.entries := insertIdx_place sorted rfl
  simp only [enter, entered]
  split
  · rename_i fits
    rw [List.take_of_length_le fits, show h.entries.length + 1 - h.capacity = 0 by omega]
    rfl
  · rename_i exceeds
    rw [List.dropLast_eq_take, length, show h.entries.length + 1 - 1 = h.capacity by omega,
      show h.entries.length + 1 - h.capacity = 1 by omega]

/-! ## A whole past -/

/-- A history is what the outcomes `os` leave, when they are handed in one after
the other. -/
structure Retains (h : History) (os : List Outcome) : Prop where
  positive : 1 ≤ h.capacity
  entries : h.entries = (ranking (arrived os)).take h.capacity
  arrivals : h.arrivals = os.countP Outcome.isComplete
  evicted : h.evicted = os.countP Outcome.isComplete - h.capacity
  ignored : h.ignored = os.countP fun o => !o.isComplete

theorem retains_empty (owner : Option ExperimentId) (capacity : Nat) :
    Retains (empty owner capacity) [] where
  positive := Nat.le_max_right capacity 1
  entries := by simp [empty, arrived, ranking]
  arrivals := rfl
  evicted := by simp [empty]
  ignored := rfl

namespace Retains

theorem length_entries (retains : Retains h os) :
    h.entries.length = min h.capacity (os.countP Outcome.isComplete) := by
  rw [retains.entries, List.length_take, (ranking_perm _).length_eq, length_arrived]

theorem sorted (retains : Retains h os) : h.entries.Pairwise fun a b => a.score ≤ b.score :=
  retains.entries ▸ List.Pairwise.sublist (List.take_sublist _ _) (ranking_sorted _)

theorem add_of_incomplete (retains : Retains h os) (incomplete : o.score = none) :
    Retains (h.add o).2 (os ++ [o]) := by
  have missing : o.isComplete = false := by simp [Outcome.isComplete, incomplete]
  rw [add_incomplete h incomplete]
  exact
    { positive := retains.positive
      entries := by rw [arrived_concat_incomplete incomplete]; exact retains.entries
      arrivals := by simp [missing, retains.arrivals]
      evicted := by simp [missing, retains.evicted]
      ignored := by simp [missing, retains.ignored] }

theorem add_of_complete (retains : Retains h os) (complete : o.score = some s) :
    Retains (h.add o).2 (os ++ [o]) := by
  have present : o.isComplete = true := by simp [Outcome.isComplete, complete]
  have length := retains.length_entries
  have next : arrived (os ++ [o]) = arrived os ++ [⟨s, (arrived os).length, o⟩] :=
    arrived_concat_complete complete
  have numbered : h.arrivals = (arrived os).length := by
    rw [retains.arrivals, length_arrived]
  rw [add_complete h complete, enter_eq retains.sorted (by omega)]
  exact
    { positive := retains.positive
      entries := by
        show List.take h.capacity _ = List.take h.capacity _
        rw [next, ranking_concat (next ▸ arrived_inArrivalOrder (os ++ [o])), ← numbered,
          ← take_insertBehind_take _ (ranking (arrived os)), ← retains.entries]
      arrivals := by simp [present, retains.arrivals]
      evicted := by
        simp only [List.countP_append, List.countP_singleton, present, if_true]
        have evicted := retains.evicted
        omega
      ignored := by simp [present, retains.ignored] }

theorem add (retains : Retains h os) (o : Outcome) : Retains (h.add o).2 (os ++ [o]) := by
  cases complete : o.score with
  | none => exact retains.add_of_incomplete complete
  | some s => exact retains.add_of_complete complete

end Retains

theorem addAll_append (h : History) (os ps : List Outcome) :
    h.addAll (os ++ ps) = (h.addAll os).addAll ps := List.foldl_append

theorem addAll_concat (h : History) (os : List Outcome) (o : Outcome) :
    h.addAll (os ++ [o]) = ((h.addAll os).add o).2 := by
  simp [addAll, List.foldl_append]

theorem owner_addAll (h : History) (os : List Outcome) : (h.addAll os).owner = h.owner := by
  induction os using List.reverseRecOn with
  | nil => rfl
  | append_singleton os o ih => rw [addAll_concat, owner_add, ih]

theorem capacity_addAll (h : History) (os : List Outcome) :
    (h.addAll os).capacity = h.capacity := by
  induction os using List.reverseRecOn with
  | nil => rfl
  | append_singleton os o ih => rw [addAll_concat, capacity_add, ih]

theorem retains_addAll (owner : Option ExperimentId) (capacity : Nat) (os : List Outcome) :
    Retains ((empty owner capacity).addAll os) os := by
  induction os using List.reverseRecOn with
  | nil => exact retains_empty owner capacity
  | append_singleton os o ih => exact addAll_concat _ os o ▸ ih.add o

theorem Retains.first?_eq_some_iff (retains : Retains h os) {e : Entry} :
    h.first? = some e ↔ e ∈ arrived os ∧ ∀ f ∈ arrived os, e.rank ≤ f.rank := by
  have ranked := ranked_ranking (arrived_inArrivalOrder os)
  have members (f : Entry) : f ∈ ranking (arrived os) ↔ f ∈ arrived os :=
    (ranking_perm _).mem_iff
  rw [first?, retains.entries, List.head?_take, if_neg (by have := retains.positive; omega),
    ranked.head?_eq_some_iff]
  simp only [members]

/-- **A history agrees with sorting its whole past.** Whatever outcomes are
handed to a fresh history, it retains the front of their stable sort, as the
very entries that they made on arrival; the counters tell how many it does not
retain, and its best outcome is the earliest of the least score among all. -/
theorem addAll_keeps_front_of_ranking (owner : Option ExperimentId) (capacity : Nat)
    (os : List Outcome) :
    let h := (empty owner capacity).addAll os
    let bound := max capacity 1
    let complete := os.countP Outcome.isComplete
    h.entries = (ranking (arrived os)).take bound ∧
      h.all = ((ranking (arrived os)).take bound).map Entry.outcome ∧
      h.size = min bound complete ∧
      h.evicted = complete - h.size ∧
      h.ignored = os.countP (fun o => !o.isComplete) ∧
      h.best? = h.first?.map Entry.outcome ∧
      ∀ e, h.first? = some e ↔
        e ∈ arrived os ∧ ∀ f ∈ arrived os,
          e.score.le f.score = true ∧ (f.score = e.score → e.arrival ≤ f.arrival) := by
  intro h bound complete
  have retains : Retains h os := retains_addAll owner capacity os
  have capacityKept : h.capacity = bound := capacity_addAll _ os
  have entries : h.entries = (ranking (arrived os)).take bound :=
    capacityKept ▸ retains.entries
  have size : h.size = min bound complete := capacityKept ▸ retains.length_entries
  refine ⟨entries, congrArg (List.map Entry.outcome) entries, size, ?_, retains.ignored, rfl, ?_⟩
  · have evicted : h.evicted = complete - bound := capacityKept ▸ retains.evicted
    omega
  · intro e
    rw [retains.first?_eq_some_iff]
    simp only [Entry.rank_le]

/-! ## As reported -/

/-- A history as it is reported. -/
def orSentinel (h : History) : History := if h.isEmpty then sentinel else h

@[simp] theorem entries_orSentinel (h : History) : h.orSentinel.entries = h.entries := by
  rw [orSentinel]
  split
  · rename_i empty
    exact (List.isEmpty_iff.mp empty).symm
  · rfl

/-- A history that retains nothing has evicted nothing. -/
theorem Retains.evicted_orSentinel (retains : h.Retains os) : h.orSentinel.evicted = h.evicted := by
  rw [orSentinel]
  split
  · rename_i empty
    have none : h.entries.length = 0 := by rw [List.isEmpty_iff.mp empty]; rfl
    have length := retains.length_entries
    have positive := retains.positive
    have evicted := retains.evicted
    show 0 = h.evicted
    omega
  · rfl

/-- What was handed in complete is retained or evicted. -/
theorem Retains.size_add_evicted (retains : h.Retains os) :
    h.orSentinel.size + h.orSentinel.evicted = os.countP Outcome.isComplete := by
  have length := retains.length_entries
  have evicted := retains.evicted
  rw [retains.evicted_orSentinel, size, entries_orSentinel]
  omega

end History
end RankedSearch
