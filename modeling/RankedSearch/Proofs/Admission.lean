import RankedSearch.Proofs.Reordering

/-!
# What an admission tells

A history decides on an outcome from the few entries that it retains and from the
number of the one that it drops (`History.Adds` lists what it can do). Its answer is
nevertheless about everything that was ever added: the outcomes that score no worse
are the front of a ranking, so whether they fill the history can be read off the
entries that are left (`Retains.forall_le_iff`), however many of them were dropped
long ago.

So an outcome is rejected exactly if as many outcomes as the history has room for
score no worse, and it is retained otherwise; something is dropped for it exactly if
the history was full (`History.admission_tells_rank_in_whole_past`).
-/

set_option autoImplicit false

namespace RankedSearch

/-! ## Where an arrival stands -/

/-- A new arrival stands between the entries that score no worse and those that do. -/
theorem exists_insertBehind_eq {es : List Entry}
    (sorted : es.Pairwise fun a b => a.score ≤ b.score) (e : Entry) :
    ∃ front back, es = front ++ back ∧ insertBehind e es = front ++ e :: back ∧
      (∀ f ∈ front, f.score ≤ e.score) ∧ ∀ f ∈ back, e.score < f.score := by
  have same : (fun f : Entry => decide ¬ e.score < f.score) = fun f => f.score.le e.score := by
    funext f
    rw [Bool.eq_iff_iff, decide_eq_true_iff, not_lt, Score.le_eq_true]
  refine ⟨es.takeWhile fun f => f.score.le e.score, es.dropWhile fun f => f.score.le e.score,
    List.takeWhile_append_dropWhile.symm, ?_, ?_, ?_⟩
  · rw [insertBehind, List.orderedInsert_eq_take_drop, same]
  · intro f member
    have holds := List.mem_takeWhile_imp member
    exact Score.le_eq_true.mp holds
  · intro f member
    exact Score.le_eq_false.mp
      ((partitioned_of_sorted sorted e.score).dropWhile_fails f member)

/-- Whether an outcome is complete and scores no worse than a given score. -/
def Outcome.scoresNoWorse (s : Score) (o : Outcome) : Bool := o.score.any fun t => t.le s

/-- A ranking has one entry for each outcome that scores no worse. -/
theorem countP_ranking (s : Score) (os : List Outcome) :
    (ranking (arrived os)).countP (fun e => e.score.le s) = os.countP (Outcome.scoresNoWorse s) := by
  calc
    (ranking (arrived os)).countP (fun e => e.score.le s)
        = (arrived os).countP (fun e => e.score.le s) := (ranking_perm _).countP_eq _
    _ = ((arrived os).map Entry.score).countP (fun t => t.le s) := by
      rw [List.countP_map]
      rfl
    _ = os.countP (fun o => (o.score.map fun t => t.le s).getD false) := by
      rw [map_score_arrived, List.countP_filterMap]
    _ = os.countP (Outcome.scoresNoWorse s) := by
      refine List.countP_congr fun o _ => ?_
      rw [Outcome.scoresNoWorse]
      cases o.score <;> rfl

namespace History

variable {h next : History} {os : List Outcome} {o : Outcome} {s : Score} {admission : Admission}

/-! ## What adding an outcome can do -/

/-- What a history can do with an outcome: it ignores an incomplete one; for a complete
one it has room, or it is full and the new entry would be the last one, or it drops its
last entry instead. -/
inductive Adds (h : History) (o : Outcome) : Admission → History → Prop
  | ignored (incomplete : o.score = none) :
      Adds h o .ignored { h with ignored := h.ignored + 1 }
  | retained {s : Score} {front back : List Entry} (complete : o.score = some s)
      (room : h.entries.length < h.capacity) (split : h.entries = front ++ back) :
      Adds h o .retained
        { h with
          entries := front ++ ⟨s, h.arrivals, o⟩ :: back
          arrivals := h.arrivals + 1 }
  | rejected {s : Score} (complete : o.score = some s) (full : h.entries.length = h.capacity)
      (noWorse : ∀ e ∈ h.entries, e.score ≤ s) :
      Adds h o .rejected { h with arrivals := h.arrivals + 1, evicted := h.evicted + 1 }
  | retainedEvicting {s : Score} {front back : List Entry} {last : Entry}
      (complete : o.score = some s) (full : h.entries.length = h.capacity)
      (split : h.entries = front ++ back ++ [last]) (worse : s < last.score) :
      Adds h o .retainedEvicting
        { h with
          entries := front ++ ⟨s, h.arrivals, o⟩ :: back
          arrivals := h.arrivals + 1
          evicted := h.evicted + 1 }

/-- A complete outcome is entered in one of three ways. -/
theorem adds_enter (complete : o.score = some s)
    (sorted : h.entries.Pairwise fun a b => a.score ≤ b.score)
    (bounded : h.entries.length ≤ h.capacity) (earlier : ∀ e ∈ h.entries, e.arrival < h.arrivals) :
    Adds h o (h.enter s o).1 (h.enter s o).2 := by
  have entered : h.entries.insertIdx (h.place s) ⟨s, h.arrivals, o⟩ =
      insertBehind ⟨s, h.arrivals, o⟩ h.entries := insertIdx_place sorted rfl
  have length := length_insertBehind ⟨s, h.arrivals, o⟩ h.entries
  obtain ⟨front, back, split, inserted, noWorse, worse⟩ :=
    exists_insertBehind_eq sorted ⟨s, h.arrivals, o⟩
  rw [inserted] at entered length
  simp only [enter, entered, length]
  split
  · rename_i fits
    exact .retained complete fits split
  · rename_i exceeds
    have full : h.entries.length = h.capacity := by omega
    rcases List.eq_nil_or_concat back with rfl | ⟨back, last, rfl⟩
    · -- Nothing scores worse, so the entry that is dropped is the new one.
      rw [List.append_nil] at split
      rw [List.getLast?_concat, List.dropLast_concat, ← split]
      simp only [if_true]
      exact .rejected complete full (split ▸ noWorse)
    · rw [List.concat_eq_append] at split worse ⊢
      rw [← List.append_assoc] at split
      have other : last.arrival ≠ h.arrivals := by
        refine (earlier last ?_).ne
        simp [split]
      rw [← List.cons_append, ← List.append_assoc, List.getLast?_concat, List.dropLast_concat]
      simp only [if_neg other]
      exact .retainedEvicting complete full split (worse last (by simp))

/-- Evictions are counted, and nothing else is counted as one. -/
theorem Adds.evicted (adds : Adds h o admission next) :
    next.evicted =
      h.evicted + if admission = .rejected ∨ admission = .retainedEvicting then 1 else 0 := by
  cases adds <;> simp

theorem Adds.entries_of_rejected (adds : Adds h o .rejected next) : next.entries = h.entries := by
  cases adds
  rfl

/-- The last entry makes room for the new one. -/
theorem Adds.entries_of_retainedEvicting (adds : Adds h o .retainedEvicting next) :
    ∃ s front back last, o.score = some s ∧ h.entries = front ++ back ++ [last] ∧
      next.entries = front ++ ⟨s, h.arrivals, o⟩ :: back := by
  cases adds with
  | retainedEvicting complete full split worse => exact ⟨_, _, _, _, complete, split, rfl⟩

/-! ## Adding to a whole past -/

namespace Retains

/-- The entries of a history are those that their outcomes made on arrival. -/
theorem mem_arrived (retains : h.Retains os) {e : Entry} (member : e ∈ h.entries) :
    e ∈ arrived os := by
  rw [retains.entries] at member
  exact (ranking_perm _).mem_iff.mp (List.mem_of_mem_take member)

theorem score_outcome (retains : h.Retains os) {e : Entry} (member : e ∈ h.entries) :
    e.outcome.score = some e.score :=
  (RankedSearch.mem_arrived (retains.mem_arrived member)).2

theorem ranked (retains : h.Retains os) : Ranked h.entries := by
  rw [retains.entries]
  exact (ranked_ranking (arrived_inArrivalOrder os)).sublist (List.take_sublist _ _)

/-- Every entry has arrived before what comes next. -/
theorem arrival_lt (retains : h.Retains os) : ∀ e ∈ h.entries, e.arrival < h.arrivals := by
  intro e member
  have numbered : e.arrival ∈ (arrived os).map Entry.arrival :=
    List.mem_map_of_mem (retains.mem_arrived member)
  rw [map_arrival_arrived, List.mem_range, length_arrived] at numbered
  rwa [retains.arrivals]

theorem adds (retains : h.Retains os) (o : Outcome) : Adds h o (h.add o).1 (h.add o).2 := by
  cases complete : o.score with
  | none =>
      rw [add_incomplete h complete]
      exact .ignored complete
  | some s =>
      have length := retains.length_entries
      rw [add_complete h complete]
      exact adds_enter complete retains.sorted (by omega) retains.arrival_lt

/-- What a full history retains scores no worse than a given score exactly if as many
outcomes as it has room for do, among all that it was ever handed. -/
theorem forall_le_iff (retains : h.Retains os)
    (full : h.capacity ≤ os.countP Outcome.isComplete) (s : Score) :
    (∀ e ∈ h.entries, e.score ≤ s) ↔ h.capacity ≤ os.countP (Outcome.scoresNoWorse s) := by
  have inside : h.capacity ≤ (ranking (arrived os)).length := by
    rwa [(ranking_perm _).length_eq, length_arrived]
  have front := (partitioned_of_sorted (ranking_sorted (arrived os)) s).forall_mem_take_iff inside
  rw [countP_ranking, ← retains.entries] at front
  simpa only [Score.le_eq_true] using front

/-- The last entry of a history is the latest of those that score worst. -/
theorem last_of_worst (retains : h.Retains os) {front : List Entry} {last e : Entry}
    (split : h.entries = front ++ [last]) (member : e ∈ h.entries) :
    e.score ≤ last.score ∧ (e.score = last.score → e.arrival ≤ last.arrival) := by
  have ranked := retains.ranked
  rw [split] at ranked member
  obtain ⟨_, _, before⟩ := List.pairwise_append.mp ranked
  have rank : e.rank ≤ last.rank := by
    rcases List.mem_append.mp member with inFront | same
    · exact (before e inFront last (List.mem_singleton_self last)).le
    · exact (congrArg Entry.rank (List.mem_singleton.mp same)).le
  obtain ⟨le, earlier⟩ := Entry.rank_le.mp rank
  exact ⟨Score.le_eq_true.mp le, fun tie => earlier tie.symm⟩

/-- A complete outcome gets one of three answers, by how many complete outcomes came
before and how many of them score no worse. -/
theorem admission_of_complete (retains : h.Retains os) (complete : o.score = some s) :
    (h.add o).1 = .retained ∧ os.countP Outcome.isComplete < h.capacity ∨
      (h.add o).1 = .rejected ∧ h.capacity ≤ os.countP Outcome.isComplete ∧
        h.capacity ≤ os.countP (Outcome.scoresNoWorse s) ∨
      (h.add o).1 = .retainedEvicting ∧ h.capacity ≤ os.countP Outcome.isComplete ∧
        os.countP (Outcome.scoresNoWorse s) < h.capacity := by
  have length := retains.length_entries
  have adds := retains.adds o
  generalize (h.add o).1 = admission at adds ⊢
  generalize (h.add o).2 = next at adds
  cases adds with
  | ignored incomplete =>
      rw [complete] at incomplete
      cases incomplete
  | retained _ room split =>
      refine .inl ⟨rfl, ?_⟩
      omega
  | @rejected t own full noWorse =>
      rw [complete] at own
      cases own
      have filled : h.capacity ≤ os.countP Outcome.isComplete := by omega
      exact .inr (.inl ⟨rfl, filled, (retains.forall_le_iff filled s).mp noWorse⟩)
  | @retainedEvicting t front back last own full split worse =>
      rw [complete] at own
      cases own
      have filled : h.capacity ≤ os.countP Outcome.isComplete := by omega
      refine .inr (.inr ⟨rfl, filled, ?_⟩)
      rw [← not_le, ← retains.forall_le_iff filled s]
      intro noWorse
      refine (noWorse last ?_).not_gt worse
      simp [split]

end Retains

/-! ## The answer -/

/-- **An admission tells how an outcome ranks in the whole past.** Whatever outcomes were
handed to a fresh history before, an incomplete one is ignored and only counted. A
complete one is retained if fewer complete ones than the history has room for came
before, and otherwise it is rejected exactly if as many as that score no worse, dropped
ones included. A rejected outcome leaves the entries as they are; for one that is
retained in a full history just the last entry is dropped, the latest arrival among
those that score worst. Evictions are counted in these two cases only. -/
theorem admission_tells_rank_in_whole_past (owner : Option ExperimentId) (capacity : Nat)
    (os : List Outcome) (o : Outcome) :
    let h := (empty owner capacity).addAll os
    let admission := (h.add o).1
    let next := (h.add o).2
    let bound := max capacity 1
    let before := os.countP Outcome.isComplete
    (o.score = none → admission = .ignored ∧ next = { h with ignored := h.ignored + 1 }) ∧
    (∀ s, o.score = some s →
      let noWorse := os.countP (Outcome.scoresNoWorse s)
      (admission = .retained ↔ before < bound) ∧
      (admission = .rejected ↔ bound ≤ before ∧ bound ≤ noWorse) ∧
      (admission = .retainedEvicting ↔ bound ≤ before ∧ noWorse < bound)) ∧
    (admission = .rejected → next.entries = h.entries ∧ next.all = h.all) ∧
    (admission = .retainedEvicting → ∃ s front back last, o.score = some s ∧
      h.entries = front ++ back ++ [last] ∧ next.entries = front ++ ⟨s, before, o⟩ :: back ∧
      ∀ e ∈ h.entries, e ∈ arrived os ∧ e.score ≤ last.score ∧
        (e.score = last.score → e.arrival ≤ last.arrival)) ∧
    next.evicted =
      h.evicted + if admission = .rejected ∨ admission = .retainedEvicting then 1 else 0 := by
  intro h admission next bound before
  have retains : h.Retains os := retains_addAll owner capacity os
  have arrivals : h.arrivals = before := retains.arrivals
  have adds : Adds h o admission next := retains.adds o
  refine ⟨?_, ?_, ?_, ?_, adds.evicted⟩
  · intro incomplete
    have ignored := add_incomplete h incomplete
    exact ⟨congrArg Prod.fst ignored, congrArg Prod.snd ignored⟩
  · intro s complete noWorse
    have capacityKept : h.capacity = bound := capacity_addAll _ os
    have answers := retains.admission_of_complete complete
    rw [capacityKept] at answers
    change admission = _ ∧ before < bound ∨ admission = _ ∧ bound ≤ before ∧ bound ≤ noWorse ∨
      admission = _ ∧ bound ≤ before ∧ noWorse < bound at answers
    rcases answers with ⟨answer, room⟩ | ⟨answer, full, worst⟩ | ⟨answer, full, better⟩
    · simp [answer, room]
    · simp [answer, full, worst]
    · simp [answer, full, better]
  · intro rejected
    rw [rejected] at adds
    have same := adds.entries_of_rejected
    exact ⟨same, congrArg (List.map Entry.outcome) same⟩
  · intro evicting
    rw [evicting] at adds
    obtain ⟨s, front, back, last, complete, split, entries⟩ := adds.entries_of_retainedEvicting
    rw [arrivals] at entries
    refine ⟨s, front, back, last, complete, split, entries, ?_⟩
    intro e member
    exact ⟨retains.mem_arrived member, retains.last_of_worst split member⟩

/-! ### A full history that has dropped an outcome -/

namespace Sample

def quarter : Score := ⟨⟨0x3FD0000000000000⟩, by decide, by decide⟩

def three : Score := ⟨⟨0x4008000000000000⟩, by decide, by decide⟩

def four : Score := ⟨⟨0x4010000000000000⟩, by decide, by decide⟩

def trial (s : Score) (summary : String) : Outcome := Outcome.ofScore ⟨0, 0⟩ (some s) summary

/-- In a history of two the last of these takes the place of the second. -/
def past : List Outcome :=
  [trial three "first", trial four "dropped", Outcome.incomplete ⟨0, 0⟩ "aborted", trial three "tied"]

end Sample

theorem tie_with_worst_is_rejected :
    let h := (empty none 2).addAll Sample.past
    (h.add (Sample.trial Sample.three "again")).1 = .rejected ∧
      (h.add (Sample.trial Sample.three "again")).2.all = h.all ∧
      (h.add (Sample.trial Sample.quarter "better")).1 = .retainedEvicting ∧
      (h.add (Sample.trial Sample.quarter "better")).2.evicted = h.evicted + 1 := by
  intro h
  obtain ⟨_, answers, unchanged, _, _⟩ :=
    admission_tells_rank_in_whole_past none 2 Sample.past (Sample.trial Sample.three "again")
  obtain ⟨_, answersToo, _, _, counted⟩ :=
    admission_tells_rank_in_whole_past none 2 Sample.past (Sample.trial Sample.quarter "better")
  have rejected := (answers Sample.three rfl).2.1.mpr (by decide +kernel)
  have evicting := (answersToo Sample.quarter rfl).2.2.mpr (by decide +kernel)
  refine ⟨rejected, (unchanged rejected).2, evicting, ?_⟩
  rw [counted, evicting]
  rfl

end History
end RankedSearch
