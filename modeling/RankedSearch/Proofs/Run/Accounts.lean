import RankedSearch.Proofs.ExactValue
import RankedSearch.Proofs.Reordering
import RankedSearch.Proofs.Run.Report
import RankedSearch.Proofs.Worker.Conclusion

/-!
# The accounts of a run

A run keeps its accounts twice. Each worker counts its own trials, and the report
adds these counts up; the history counts what it was handed. Both sides count the
same outcomes: the shares of the workers are, taken together, everything that was
added (`ownedBy_perm`), and a worker that has ended without a panic reports what
its share amounts to (`Course.map_reports`). So when no worker panicked the
accounts balance (`accounts_balance`).
-/

set_option autoImplicit false

namespace RankedSearch

/-! ## Shares -/

section Shares

variable {α : Type} {i n : Nat} {as : List (Nat × α)} {a : α}

/-- The share of one worker in what several workers did. -/
def ownedBy (i : Nat) (as : List (Nat × α)) : List α :=
  as.filterMap fun a => if a.1 = i then some a.2 else none

theorem ownedBy_eq_map_filter (i : Nat) (as : List (Nat × α)) :
    ownedBy i as = (as.filter fun a => decide (a.1 = i)).map Prod.snd := by
  induction as with
  | nil => rfl
  | cons a as ih =>
      rw [ownedBy, List.filterMap_cons, ← ownedBy, ih, List.filter_cons]
      by_cases own : a.1 = i <;> simp [own]

theorem mem_ownedBy : a ∈ ownedBy i as ↔ (i, a) ∈ as := by
  simp [ownedBy_eq_map_filter]

/-- The shares of the first workers are what these workers did. -/
theorem flatMap_ownedBy (as : List (Nat × α)) (n : Nat) :
    ((List.range n).flatMap fun i => ownedBy i as).Perm
      ((as.filter fun a => decide (a.1 < n)).map Prod.snd) := by
  induction n with
  | zero => simp
  | succ n ih =>
      rw [List.range_succ, List.flatMap_append, List.flatMap_singleton, ownedBy_eq_map_filter]
      refine (ih.append_right _).trans ?_
      rw [← List.map_append]
      refine List.Perm.map Prod.snd ?_
      have earlier : as.filter (fun a => decide (a.1 < n)) =
          (as.filter fun a => decide (a.1 < n + 1)).filter fun a => decide (a.1 < n) := by
        rw [List.filter_filter]
        refine List.filter_congr fun a _ => ?_
        simp only [← Bool.decide_and, decide_eq_decide]
        omega
      have last : as.filter (fun a => decide (a.1 = n)) =
          (as.filter fun a => decide (a.1 < n + 1)).filter fun a => !decide (a.1 < n) := by
        rw [List.filter_filter]
        refine List.filter_congr fun a _ => ?_
        simp only [← decide_not, ← Bool.decide_and, decide_eq_decide]
        omega
      rw [earlier, last]
      exact List.filter_append_perm _ _

/-- The shares of all workers are everything that was done. -/
theorem ownedBy_perm (inside : ∀ a ∈ as, a.1 < n) :
    ((List.range n).flatMap fun i => ownedBy i as).Perm (as.map Prod.snd) := by
  have all : as.filter (fun a => decide (a.1 < n)) = as :=
    List.filter_eq_self.mpr fun a member => decide_eq_true (inside a member)
  have perm := flatMap_ownedBy as n
  rwa [all] at perm

end Shares

/-! ## What the workers report -/

/-- The best scores that a report knows of: that of the baseline and those of the
workers. -/
def bestScores (baseline : Option Outcome) (workers : List WorkerReport) : List Binary64 :=
  ((baseline.bind Outcome.score).map Score.word).toList ++
    workers.filterMap WorkerReport.bestScore

/-- The scores of the complete outcomes among the results of several calls. -/
def scoresOf (rs : List TrialResult) : List Score := (outcomesOf rs).filterMap Outcome.score

/-- Whether a call ended in a panic. -/
def TrialResult.isPanic : TrialResult → Bool
  | .panic _ => true
  | .outcome _ | .exhausted | .failure _ => false

/-- The answer of a source, with the worker that called it. -/
def RunEvent.answer? : RunEvent → Option (Nat × TrialResult)
  | .crew (.answered i result) => some (i, result)
  | .crew _ | .prepared _ | .joined _ | .interrupted | .raised | .finished _ | .dropped _
  | .drained | .elsewhere _ => none

theorem WorkerReport.total_eq_sum (count : WorkerReport → Nat) (reports : List WorkerReport) :
    total count reports = (reports.map count).sum := by
  rw [total, List.sum, List.foldr_map]

namespace Run

variable {config : Config} {stat : String → Except IoError FileKind} {id : ExperimentId}
  {registry : Registry} {baseline : Option Outcome} {now : Instant} {time : Timestamp}
  {r₀ r r' : Run} {es : List RunEvent} {i : Nat}

/-- The answers of all sources, in the order in which they were given. -/
def answers (es : List RunEvent) : List (Nat × TrialResult) := es.filterMap RunEvent.answer?

/-- No call ends in a panic. -/
def Calm (es : List RunEvent) : Prop := ∀ a ∈ answers es, a.2.isPanic = false

theorem resultsOf_eq_ownedBy (i : Nat) (es : List RunEvent) :
    resultsOf i es = ownedBy i (answers es) := by
  rw [resultsOf, ownedBy, answers, List.filterMap_filterMap]
  refine List.filterMap_congr fun e _ => ?_
  cases e with
  | crew e => cases e <;> rfl
  | prepared | joined | interrupted | raised | finished | dropped | drained | elsewhere => rfl

/-- What a worker has added is its share in the additions. -/
theorem additionsBy_eq_ownedBy (i : Nat) (as : List (Nat × Outcome)) :
    additionsBy i as = ownedBy i as := rfl

theorem Calm.not_mem (calm : Calm es) (i : Nat) (p : Panic) : .panic p ∉ resultsOf i es := by
  intro member
  rw [resultsOf_eq_ownedBy, mem_ownedBy] at member
  cases calm _ member

/-- Only members of the crew get answers. -/
theorem Course.lt_of_mem_answers (course : Course r₀ es r) :
    ∀ a ∈ answers es, a.1 < r.crew.members.length := by
  intro a member
  by_contra outside
  have known := course.slots a.1
  rw [List.getElem?_eq_none (not_lt.mp outside)] at known
  cases known with
  | vacant results _ =>
      rw [resultsOf_eq_ownedBy] at results
      have share : a.2 ∈ ownedBy a.1 (answers es) := mem_ownedBy.mpr member
      rw [results] at share
      cases share

/-- Only members of the crew add anything. -/
theorem Course.lt_of_mem_additions (course : Course r₀ es r) :
    ∀ a ∈ r₀.additions es, a.1 < r.crew.members.length := by
  intro a member
  by_contra outside
  have known := course.slots a.1
  rw [List.getElem?_eq_none (not_lt.mp outside)] at known
  cases known with
  | vacant _ additions =>
      rw [additionsBy_eq_ownedBy] at additions
      have share : a.2 ∈ ownedBy a.1 (r₀.additions es) := mem_ownedBy.mpr member
      rw [additions] at share
      cases share

/-- What the workers were handed is, taken together, what was added. -/
theorem Course.outcomes_perm (course : Course r₀ es r)
    (ended : ∀ w ∈ r.crew.members, w.hasEnded = true) :
    ((List.range r.crew.members.length).flatMap fun i => outcomesOf (resultsOf i es)).Perm
      ((r₀.additions es).map Prod.snd) := by
  have perm := ownedBy_perm course.lt_of_mem_additions
  have shares : (fun i => ownedBy i (r₀.additions es)) = fun i => outcomesOf (resultsOf i es) :=
    funext fun i => (additionsBy_eq_ownedBy i _).symm.trans (course.additionsBy_eq ended i)
  rwa [shares] at perm

/-- The report of a slot whose source did not panic is what its results amount to. -/
theorem Course.slotReport?_eq (course : Course r₀ es r) (calm : Calm es)
    {report : WorkerReport} (reported : r.slotReport? i = some report) :
    ∃ seed exit, report = (Tally.ofResults (resultsOf i es)).report i seed exit := by
  obtain ⟨w, here, ended⟩ := Option.bind_eq_some_iff.mp reported
  have known := course.slots i
  rw [here] at known
  cases known with
  | manned prepared began serves =>
      obtain ⟨workDir, slot⟩ := course.slot_eq here
      have place : w.slot.index = i := congrArg Slot.index slot
      exact ⟨w.slot.seed, report.exit, place ▸ serves.seen.report_eq_of_calm ended (calm.not_mem i)⟩

/-- A count of the reports, worker by worker, is what their results amount to. -/
theorem Course.map_reports (course : Course r₀ es r)
    (ended : ∀ w ∈ r.crew.members, w.hasEnded = true) (calm : Calm es) {β : Type}
    (count : WorkerReport → β) (amount : List TrialResult → β)
    (agree : ∀ rs index seed exit,
      count ((Tally.ofResults rs).report index seed exit) = amount rs) :
    r.crew.reports.map count =
      (List.range r.crew.members.length).map fun i => amount (resultsOf i es) := by
  have reports := congrArg (List.map (Option.map count)) (reports_eq_slotReports ended)
  rw [List.map_map, List.map_map] at reports
  refine List.map_injective_iff.mpr (Option.some_injective β) ?_
  rw [List.map_map, List.map_map]
  refine reports.trans (List.map_congr_left fun i inside => ?_)
  obtain ⟨report, slot⟩ := exists_slotReport ended (List.mem_range.mp inside)
  obtain ⟨seed, exit, rfl⟩ := course.slotReport?_eq calm slot
  rw [Function.comp_apply, Function.comp_apply, slot, Option.map_some, agree]

/-! ## Both sides of the accounts -/

section Totals

variable (course : Course r₀ es r) (ended : ∀ w ∈ r.crew.members, w.hasEnded = true)
  (calm : Calm es)
include course ended calm

/-- The workers count, added up, a kind of outcomes as often as it was added. -/
theorem Course.total_outcomes {count : WorkerReport → Nat} {kind : Outcome → Bool}
    (agree : ∀ rs index seed exit,
      count ((Tally.ofResults rs).report index seed exit) = (outcomesOf rs).countP kind) :
    WorkerReport.total count r.crew.reports =
      ((r₀.additions es).map Prod.snd).countP kind := by
  rw [WorkerReport.total_eq_sum, course.map_reports ended calm count _ agree,
    ← (course.outcomes_perm ended).countP_eq, List.countP_flatMap]
  rfl

/-- The workers count, added up, as many failures as all sources answered. -/
theorem Course.total_failures :
    WorkerReport.total WorkerReport.failures r.crew.reports =
      (answers es).countP fun a => a.2.isFailure := by
  have perm := ownedBy_perm course.lt_of_mem_answers
  have shares : (fun i => ownedBy i (answers es)) = fun i => resultsOf i es :=
    funext fun i => (resultsOf_eq_ownedBy i es).symm
  rw [shares] at perm
  have counted := perm.countP_eq TrialResult.isFailure
  rw [List.countP_flatMap, List.countP_map] at counted
  rw [WorkerReport.total_eq_sum, course.map_reports ended calm _
    (List.countP TrialResult.isFailure) fun _ _ _ _ => rfl]
  exact counted

/-- The best scores that a report knows of are that of the baseline and the least
of each worker. -/
theorem Course.bestScores_eq (baseline : Option Outcome) :
    bestScores baseline r.crew.reports =
      ((baseline.bind Outcome.score).toList ++
        ((List.range r.crew.members.length).map fun i =>
          scoresOf (resultsOf i es)).filterMap List.min?).map Score.word := by
  have reported : r.crew.reports.map WorkerReport.bestScore =
      (List.range r.crew.members.length).map fun i =>
        (scoresOf (resultsOf i es)).min?.map Score.word :=
    course.map_reports ended calm _ (fun rs => (scoresOf rs).min?.map Score.word)
      fun _ _ _ _ => rfl
  have known := congrArg (List.filterMap fun best => best) reported
  rw [List.filterMap_map, List.filterMap_map] at known
  rw [bestScores, List.map_append, Option.toList_map, List.map_filterMap, List.filterMap_map]
  exact congrArg _ known

/-- The least of the best scores that a report knows of is the least of all scores
that were handed in. -/
theorem Course.leastOf_bestScores (baseline : Option Outcome) :
    Binary64.LeastOf
      (((baseline.toList ++ (r₀.additions es).map Prod.snd).filterMap
        Outcome.score).min?.map Score.word)
      (bestScores baseline r.crew.reports) := by
  have first : baseline.toList.filterMap Outcome.score = (baseline.bind Outcome.score).toList := by
    cases baseline with
    | none => rfl
    | some b =>
        rw [Option.toList_some, Option.bind_some]
        cases complete : b.score <;> simp [complete]
  have groups : ((List.range r.crew.members.length).map fun i =>
      scoresOf (resultsOf i es)).flatten.Perm
        (((r₀.additions es).map Prod.snd).filterMap Outcome.score) := by
    have perm := (course.outcomes_perm ended).filterMap Outcome.score
    rwa [List.filterMap_flatMap, List.flatMap_def] at perm
  rw [course.bestScores_eq ended calm, List.filterMap_append, first,
    ← Score.min?_eq_of_perm (groups.append_left _), ← Score.min?_append_filterMap_min?]
  exact Binary64.leastOf_min? _

end Totals

/-! ## The balance -/

/-- **The accounts of a run balance.** When a run has finished and no call ended
in a panic, what the workers recorded, together with a complete baseline, is what
the history retains and what it has evicted. The failures are those of all
sources. The best score is the least of those that the report knows of, by the
number that it stands for, and it is that of the best outcome in the history. What
the workers ignored, together with an incomplete baseline, is what the history
ignored, unless another history stands in for one that retains nothing. -/
theorem accounts_balance
    (started : start config stat id registry baseline now time = .ok r₀)
    (fresh : registry.get? id = none) (reached : r₀.steps es = some r) {moment : Timestamp}
    (finished : r.step (.finished moment) = some r') (calm : Calm es) :
    ∃ report h, r'.report? = some report ∧ r'.reported? = some h ∧
      report.status.trialsRecorded + baseline.toList.countP Outcome.isComplete =
        h.size + h.evicted ∧
      report.status.trialsFailed = (answers es).countP (fun a => a.2.isFailure) ∧
      Binary64.LeastOf report.status.bestScore (bestScores baseline report.workers) ∧
      report.status.bestScore = (h.best?.bind Outcome.score).map Score.word ∧
      (h.isSentinel = false →
        h.ignored = WorkerReport.total WorkerReport.ignored report.workers +
          baseline.toList.countP fun o => !o.isComplete) := by
  have starts := starts_of_start started
  have course := course_of_steps starts.unmanned reached
  obtain ⟨ended, reports, workers, contents⟩ := starts.finish fresh reached finished
  have retains := retains_collected id config
    (baseline.toList ++ (r₀.additions es).map Prod.snd)
  have best : (r.reportAt moment).status.bestScore = (collected id config
      (baseline.toList ++ (r₀.additions es).map Prod.snd)).orSentinel.bestScore?.map
        Score.word := by
    cases moves_of_step finished with
    | finished =>
        have closing : r.closing.2.history r.closing.1 = _ := Option.some.inj contents
        rw [← closing]
        rfl
  refine ⟨r.reportAt moment, _, reports, contents, ?_, ?_, ?_, ?_, ?_⟩
  · have recorded : (r.reportAt moment).status.trialsRecorded =
        ((r₀.additions es).map Prod.snd).countP Outcome.isComplete :=
      (congrArg (WorkerReport.total WorkerReport.recorded) workers).trans
        (course.total_outcomes ended calm fun _ _ _ _ => rfl)
    rw [recorded, retains.size_add_evicted, List.countP_append, Nat.add_comm]
  · exact (congrArg (WorkerReport.total WorkerReport.failures) workers).trans
      (course.total_failures ended calm)
  · rw [workers, best, History.bestScore?_orSentinel, retains.bestScore?_eq]
    exact course.leastOf_bestScores ended calm baseline
  · exact best
  · intro kept
    rw [History.orSentinel] at kept ⊢
    split at kept
    · cases kept
    · rename_i some
      rw [if_neg some, retains.ignored, workers,
        course.total_outcomes ended calm fun _ _ _ _ => rfl, List.countP_append, Nat.add_comm]

namespace Sample

/-- The first worker fails once and then finds the best outcome; the second one
returns an incomplete outcome and then one that the full history rejects. -/
def mixed : List RunEvent :=
  [.prepared (.ready "a"), .prepared (.ready "b")] ++
    call 0 (.failure (.search "no luck")) ++
    call 1 (.outcome (Outcome.incomplete ⟨0, 0⟩ "aborted")) ++ hand 1 ++
    call 0 (.outcome (outcome one "best")) ++ hand 0 ++
    call 1 (.outcome (outcome two "late")) ++ hand 1 ++
    call 0 .exhausted ++ call 1 .exhausted ++ [.joined 0, .joined 1]

end Sample

theorem accounts_balance_with_rejected_outcome :
    ∃ r r' report h, (Sample.run 7).steps Sample.mixed = some r ∧
      r.step (.finished ⟨1, 0⟩) = some r' ∧ r'.report? = some report ∧ r'.reported? = some h ∧
      report.status.trialsRecorded = 2 ∧ h.size = 2 ∧ h.evicted = 1 ∧
      report.status.trialsRecorded + 1 = h.size + h.evicted ∧
      report.status.trialsFailed = 1 ∧ report.status.bestScore = some Sample.one.word ∧
      Binary64.LeastOf report.status.bestScore
        [Sample.two.word, Sample.one.word, Sample.two.word] ∧
      h.ignored = 1 := by
  obtain ⟨r, r', reached, finished⟩ := exists_finish
    (show (((Sample.run 7).steps Sample.mixed).bind fun r => r.step (.finished ⟨1, 0⟩)).isSome by
      decide +kernel)
  obtain ⟨report, h, reports, contents, balance, failed, least, best, ignored⟩ :=
    @accounts_balance Sample.settings (fun _ => .ok .directory) (Sample.experiment 7) Registry.new
      (some (Sample.outcome Sample.two "baseline")) ⟨0⟩ ⟨0, 0⟩ (Sample.run 7) r r' Sample.mixed rfl
      rfl reached ⟨1, 0⟩ finished (by unfold Calm; decide +kernel)
  have made : (((Sample.run 7).steps Sample.mixed).bind fun r =>
      r.step (.finished ⟨1, 0⟩)).bind (fun r => r.report?.map fun report =>
        (report.status.trialsRecorded, report.status.bestScore,
          bestScores (some (Sample.outcome Sample.two "baseline")) report.workers,
          WorkerReport.total WorkerReport.ignored report.workers)) =
      some (2, some Sample.one.word, [Sample.two.word, Sample.one.word, Sample.two.word], 1) := by
    decide +kernel
  have held : (((Sample.run 7).steps Sample.mixed).bind fun r =>
      r.step (.finished ⟨1, 0⟩)).bind (fun r => r.reported?.map fun h =>
        (h.size, h.evicted, h.isSentinel)) = some (2, 1, false) := by
    decide +kernel
  rw [reached, Option.bind_some, finished, Option.bind_some, reports] at made
  rw [reached, Option.bind_some, finished, Option.bind_some, contents] at held
  simp only [Option.map_some, Option.some.injEq, Prod.mk.injEq] at made held
  obtain ⟨recorded, score, known, share⟩ := made
  obtain ⟨size, evicted, kept⟩ := held
  refine ⟨r, r', report, h, reached, finished, reports, contents, recorded, size, evicted,
    balance, failed.trans (by decide +kernel), score, known ▸ least, ?_⟩
  rw [ignored kept, share]
  decide +kernel

end Run
end RankedSearch
