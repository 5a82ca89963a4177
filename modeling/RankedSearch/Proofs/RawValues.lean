import RankedSearch.Metric
import RankedSearch.Proofs.ExactValue
import RankedSearch.Proofs.Retention

/-!
# Ranking raw values

A trial reports a raw value of its metric, and what is ranked is a score that is
computed from it. The way there turns the order around where larger values are
better and drops the sign of a zero; the way back undoes the first and leaves the
second, so it gives a word for the same number (`Metric.units_fromScore_score`).

Both ways are exact, so the scores of trials rank as their raw values do in the
direction of the metric (`RawTrial.score_le`), ties included. A history to which
the trials are added therefore retains the front of the stable sort of the trials
by raw value, and on the way back it shows these raw values
(`Metric.addAll_keeps_best_raw_values`).
-/

set_option autoImplicit false

namespace RankedSearch

/-- A trial that ends with a finite raw value of its metric. -/
structure RawTrial where
  raw : Binary64
  isFinite : raw.isFinite = true
  now : Timestamp
  summary : String

namespace Metric

variable {m : Metric}

/-! ## There and back -/

theorem isFinite_toScore (m : Metric) {raw : Binary64} (finite : raw.isFinite = true) :
    (m.toScore raw).isFinite = true := by
  unfold toScore
  split
  · rw [Binary64.isFinite_negate, finite]
  · exact finite

theorem units_toScore (m : Metric) (raw : Binary64) :
    (m.toScore raw).units = if m.isMaximized then -raw.units else raw.units := by
  unfold toScore
  split
  · exact Binary64.units_negate raw
  · rfl

theorem units_fromScore (m : Metric) (score : Binary64) :
    (m.fromScore score).units = if m.isMaximized then -score.units else score.units :=
  m.units_toScore score

/-- Whether one raw value is as good as another in the direction of the metric. -/
def prefers (m : Metric) (a b : Binary64) : Bool :=
  if m.isMaximized then decide (b.units ≤ a.units) else decide (a.units ≤ b.units)

theorem prefers_of_isMaximized {a b : Binary64} (maximized : m.isMaximized = true) :
    m.prefers a b = true ↔ b.units ≤ a.units := by
  rw [prefers, if_pos maximized, decide_eq_true_iff]

theorem prefers_of_not_isMaximized {a b : Binary64} (minimized : m.isMaximized = false) :
    m.prefers a b = true ↔ a.units ≤ b.units := by
  rw [prefers, if_neg (Bool.not_eq_true _ ▸ minimized), decide_eq_true_iff]

/-- A raw value is preferred exactly if the number that is ranked is no larger. -/
theorem prefers_iff {a b : Binary64} :
    m.prefers a b = true ↔ (m.toScore a).units ≤ (m.toScore b).units := by
  rw [units_toScore, units_toScore]
  cases direction : m.isMaximized with
  | true =>
      rw [prefers_of_isMaximized direction, if_pos rfl, if_pos rfl]
      omega
  | false =>
      rw [prefers_of_not_isMaximized direction, if_neg Bool.false_ne_true,
        if_neg Bool.false_ne_true]

end Metric

namespace RawTrial

variable {m : Metric} {t u : RawTrial}

/-- The score under which a trial is ranked. -/
def score (m : Metric) (t : RawTrial) : Score where
  word := (m.toScore t.raw).unsignZero
  isFinite := Score.isFinite_unsignZero (m.isFinite_toScore t.isFinite)
  ne_negativeZero := Score.unsignZero_ne_negativeZero _

/-- The outcome that a trial makes. -/
def outcome (m : Metric) (t : RawTrial) : Outcome :=
  Outcome.ofScore t.now (some (t.score m)) t.summary

/-- A finite raw value completes its trial in every metric. -/
theorem completed_eq (m : Metric) (t : RawTrial) :
    Outcome.completed t.now (m.toScore t.raw) t.summary = .ok (t.outcome m) := by
  have scored : Score.ofWord? (m.toScore t.raw) = some (t.score m) :=
    dif_pos (m.isFinite_toScore t.isFinite)
  rw [Outcome.completed, scored]
  rfl

/-- On the way back a score gives the number that the trial reported. -/
theorem units_fromScore_score (m : Metric) (t : RawTrial) :
    (m.fromScore (t.score m).word).units = t.raw.units := by
  rw [Metric.units_fromScore, score, Binary64.units_unsignZero, Metric.units_toScore]
  split
  · exact Int.neg_neg t.raw.units
  · rfl

/-- Scores rank as the raw values do in the direction of the metric. -/
theorem score_le : t.score m ≤ u.score m ↔ m.prefers t.raw u.raw = true := by
  rw [Score.le_iff_units_le, Metric.prefers_iff, score, score, Binary64.units_unsignZero,
    Binary64.units_unsignZero]

/-- Scores tie exactly if the raw values are the same number. -/
theorem score_eq_iff : t.score m = u.score m ↔ t.raw.units = u.raw.units := by
  constructor
  · intro tie
    rw [← units_fromScore_score m t, tie, units_fromScore_score]
  · intro same
    have both : m.prefers t.raw u.raw = true ∧ m.prefers u.raw t.raw = true := by
      rw [Metric.prefers_iff, Metric.prefers_iff, Metric.units_toScore, Metric.units_toScore, same]
      exact ⟨Int.le_refl _, Int.le_refl _⟩
    exact le_antisymm (score_le.mpr both.1) (score_le.mpr both.2)

/-- The entry that a trial makes when it is the one of a given number. -/
def entry (m : Metric) (p : RawTrial × Nat) : Entry := ⟨p.1.score m, p.2, p.1.outcome m⟩

theorem arrived_outcomes (m : Metric) (trials : List RawTrial) :
    arrived (trials.map (outcome m)) = trials.zipIdx.map (entry m) := by
  have pairs : (trials.map (outcome m)).filterMap (fun o => o.score.map fun s => (s, o)) =
      trials.map fun t => (t.score m, t.outcome m) := by
    rw [List.filterMap_map, ← List.filterMap_eq_map]
    rfl
  rw [arrived, pairs, List.zipIdx_map, List.map_map]
  rfl

end RawTrial

namespace Metric

variable {m : Metric} {trials : List RawTrial}

/-! ## Sorting by raw value -/

/-- Trials with their numbers, sorted from the best raw value to the worst. Equal
numbers stay in order. -/
def preference (m : Metric) (trials : List RawTrial) : List (RawTrial × Nat) :=
  trials.zipIdx.mergeSort fun a b => m.prefers a.1.raw b.1.raw

theorem length_preference (m : Metric) (trials : List RawTrial) :
    (m.preference trials).length = trials.length := by
  rw [preference, List.length_mergeSort, List.length_zipIdx]

theorem getElem?_of_mem_preference {p : RawTrial × Nat} (member : p ∈ m.preference trials) :
    trials[p.2]? = some p.1 :=
  List.mem_zipIdx_iff_getElem?.mp (List.mem_mergeSort.mp member)

/-- The ranking of the outcomes is the sort of the trials. -/
theorem ranking_outcomes (m : Metric) (trials : List RawTrial) :
    ranking (arrived (trials.map (RawTrial.outcome m))) =
      (m.preference trials).map (RawTrial.entry m) := by
  rw [RawTrial.arrived_outcomes, ranking, preference]
  refine (List.map_mergeSort fun a _ b _ => ?_).symm
  rw [Bool.eq_iff_iff, Score.le_eq_true]
  exact RawTrial.score_le.symm

/-- The sort goes from best to worst, and through equal numbers in order. -/
theorem preference_sorted (m : Metric) (trials : List RawTrial) :
    (m.preference trials).Pairwise fun a b =>
      m.prefers a.1.raw b.1.raw = true ∧ (a.1.raw.units = b.1.raw.units → a.2 < b.2) := by
  have ranked := ranked_ranking (arrived_inArrivalOrder (trials.map (RawTrial.outcome m)))
  rw [ranking_outcomes] at ranked
  refine (List.pairwise_map.mp ranked).imp fun {a b} before => ?_
  rcases Entry.rank_lt.mp before with better | ⟨tie, earlier⟩
  · exact ⟨RawTrial.score_le.mp better.le,
      fun same => absurd (RawTrial.score_eq_iff.mpr same) better.ne⟩
  · exact ⟨RawTrial.score_le.mp tie.le, fun _ => earlier⟩

/-! ## The history of the trials -/

/-- The first entry of a history of trials is that of the earliest best one. -/
theorem first?_of_retains {h : History} (retains : h.Retains (trials.map (RawTrial.outcome m)))
    (nonempty : trials ≠ []) :
    ∃ (i : Nat) (t : RawTrial), trials[i]? = some t ∧ h.first? = some (RawTrial.entry m (t, i)) ∧
      (∀ u ∈ trials, m.prefers t.raw u.raw = true) ∧
      ∀ (j : Nat) (u : RawTrial), trials[j]? = some u → u.raw.units = t.raw.units → i ≤ j := by
  have filled : h.first?.isSome = true := by
    have positive := retains.positive
    have count := List.length_pos_iff.mpr nonempty
    rw [History.first?, List.isSome_head?, ← List.length_pos_iff, retains.entries,
      ranking_outcomes, List.length_take, List.length_map, length_preference]
    omega
  obtain ⟨e, first⟩ := Option.isSome_iff_exists.mp filled
  obtain ⟨arrives, least⟩ := retains.first?_eq_some_iff.mp first
  rw [RawTrial.arrived_outcomes] at arrives least
  obtain ⟨⟨t, i⟩, numbered, rfl⟩ := List.mem_map.mp arrives
  have before {j : Nat} {u : RawTrial} (here : trials[j]? = some u) :=
    have numbered : (u, j) ∈ trials.zipIdx := List.mem_zipIdx_iff_getElem?.mpr here
    Entry.rank_le.mp (least _ (List.mem_map_of_mem numbered))
  refine ⟨i, t, List.mem_zipIdx_iff_getElem?.mp numbered, first, fun u member => ?_,
    fun j u here same => ?_⟩
  · obtain ⟨j, here⟩ := List.mem_iff_getElem?.mp member
    exact RawTrial.score_le.mp (Score.le_eq_true.mp (before here).1)
  · exact (before here).2 (RawTrial.score_eq_iff.mpr same)

/-- **A history of trials shows the best raw values.** In every metric, trials with
finite raw values are complete, and a fresh history to which they are added retains
the front of their stable sort by raw value, as the outcomes that were added. On the
way back from the scores it shows the same numbers. The best outcome is the first
one that has the largest raw value if the metric is maximized, and the smallest one
otherwise. -/
theorem addAll_keeps_best_raw_values (m : Metric) (owner : Option ExperimentId) (capacity : Nat)
    (trials : List RawTrial) (nonempty : trials ≠ []) :
    ∃ os, trials.mapM (fun t => Outcome.completed t.now (m.toScore t.raw) t.summary) = .ok os ∧
      let h := (History.empty owner capacity).addAll os
      let front := (m.preference trials).take (max capacity 1)
      (∃ (i : Nat) (t : RawTrial) (o : Outcome) (s : Score),
        trials[i]? = some t ∧ os[i]? = some o ∧ h.first? = some ⟨s, i, o⟩ ∧ h.best? = some o ∧
        o.score = some s ∧ (m.fromScore s.word).units = t.raw.units ∧
        (m.isMaximized = true → ∀ u ∈ trials, u.raw.units ≤ t.raw.units) ∧
        (m.isMaximized = false → ∀ u ∈ trials, t.raw.units ≤ u.raw.units) ∧
        ∀ (j : Nat) (u : RawTrial), trials[j]? = some u → u.raw.units = t.raw.units → i ≤ j) ∧
      h.size = min (max capacity 1) trials.length ∧
      h.entries.map Entry.arrival = front.map Prod.snd ∧
      h.all.map some = front.map (fun p => os[p.2]?) ∧
      h.all.map (fun o => o.score.map fun s => (m.fromScore s.word).units) =
        front.map (fun p => some p.1.raw.units) ∧
      front.Pairwise fun a b =>
        m.prefers a.1.raw b.1.raw = true ∧ (a.1.raw.units = b.1.raw.units → a.2 < b.2) := by
  refine ⟨trials.map (RawTrial.outcome m), ?_, ?_⟩
  · rw [funext (RawTrial.completed_eq m)]
    exact List.mapM_pure
  intro h front
  have retains : h.Retains (trials.map (RawTrial.outcome m)) := History.retains_addAll owner _ _
  have bound : h.capacity = max capacity 1 := History.capacity_addAll _ _
  have entries : h.entries = front.map (RawTrial.entry m) := by
    rw [retains.entries, bound, ranking_outcomes, List.map_take]
  have outcome {p : RawTrial × Nat} (member : p ∈ front) :
      (trials.map (RawTrial.outcome m))[p.2]? = some (p.1.outcome m) := by
    rw [List.getElem?_map, getElem?_of_mem_preference (List.mem_of_mem_take member),
      Option.map_some]
  refine ⟨?_, ?_, ?_, ?_, ?_, (m.preference_sorted trials).sublist (List.take_sublist _ _)⟩
  · obtain ⟨i, t, here, first, best, earliest⟩ := first?_of_retains retains nonempty
    refine ⟨i, t, t.outcome m, t.score m, here, ?_, first, ?_, rfl, t.units_fromScore_score m,
      fun maximized u member => ?_, fun minimized u member => ?_, earliest⟩
    · rw [List.getElem?_map, here, Option.map_some]
    · rw [History.best?, first, Option.map_some]
      rfl
    · exact (prefers_of_isMaximized maximized).mp (best u member)
    · exact (prefers_of_not_isMaximized minimized).mp (best u member)
  · rw [History.size, entries, List.length_map, List.length_take, length_preference]
  · rw [entries, List.map_map]
    rfl
  · rw [History.all, entries, List.map_map, List.map_map]
    exact List.map_congr_left fun p member => (outcome member).symm
  · rw [History.all, entries, List.map_map, List.map_map]
    exact List.map_congr_left fun p _ => congrArg some (p.1.units_fromScore_score m)

/-! ### Four trials of a maximized metric -/

namespace Sample

def negativeZero : RawTrial := ⟨Binary64.negativeZero, by decide, ⟨0, 0⟩, "negative zero"⟩

def half : RawTrial := ⟨⟨0x3FE0000000000000⟩, by decide, ⟨0, 0⟩, "half"⟩

def zero : RawTrial := ⟨Binary64.zero, by decide, ⟨0, 0⟩, "zero"⟩

def again : RawTrial := ⟨⟨0x3FE0000000000000⟩, by decide, ⟨0, 0⟩, "half again"⟩

/-- Both zeros and two equal values; the history has no room for the second zero. -/
def fourTrials : List RawTrial := [negativeZero, half, zero, again]

end Sample

theorem best_raw_values_of_four_trials :
    ∃ os, Sample.fourTrials.mapM (fun t =>
        Outcome.completed t.now (Metric.pctCorrect.toScore t.raw) t.summary) = .ok os ∧
      Metric.pctCorrect.isMaximized = true ∧
      ((History.empty none 3).addAll os).best? = os[1]? ∧
      ((History.empty none 3).addAll os).all.map some = [os[1]?, os[3]?, os[0]?] := by
  obtain ⟨os, completed, ⟨i, t, o, s, _, known, first, best, _⟩, _, arrivals, all, _⟩ :=
    addAll_keeps_best_raw_values .pctCorrect none 3 Sample.fourTrials (List.cons_ne_nil _ _)
  have same : os = Sample.fourTrials.map (RawTrial.outcome .pctCorrect) :=
    Except.ok.inj (completed.symm.trans rfl)
  have retained : ((History.empty none 3).addAll os).entries.map Entry.arrival = [1, 3, 0] := by
    rw [same]
    decide +kernel
  have earliest : i = 1 := by
    have head := congrArg List.head? retained
    rw [List.head?_map, ← History.first?, first] at head
    exact Option.some.inj head
  refine ⟨os, completed, rfl, best.trans (earliest ▸ known.symm), ?_⟩
  rw [all, ← Function.comp_def, ← List.map_map, ← arrivals, retained]
  rfl

end Metric
end RankedSearch
