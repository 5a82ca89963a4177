import RankedSearch.Proofs.Run.Report
import RankedSearch.Proofs.Worker.Conclusion

/-!
# What a panic hides

A worker that panics takes its counts with it. What it added before stays in the
history and is ranked there, but the worker is reported with zero counts and
without a score. So its report is what its calls amount to only if the panic came
at the very first of them (`panicked_worker_reports_nothing`), and a run can report
a best score that none of its workers has.
-/

set_option autoImplicit false

namespace RankedSearch

/-- Results that go on and amount to nothing are none. -/
theorem eq_nil_of_uncounted {limit : Nat} {rs : List TrialResult}
    (unconcluded : Unconcluded limit rs) (recorded : (Tally.ofResults rs).recorded = 0)
    (ignored : (Tally.ofResults rs).ignored = 0) (failures : (Tally.ofResults rs).failures = 0) :
    rs = [] := by
  have length := unconcluded.sum_counts
  rw [recorded, ignored, failures] at length
  exact List.length_eq_zero_iff.mp length.symm

namespace Run

variable {config : Config} {stat : String → Except IoError FileKind} {id : ExperimentId}
  {registry : Registry} {baseline : Option Outcome} {now : Instant} {time : Timestamp}
  {r₀ r r' : Run} {es : List RunEvent} {i : Nat}

/-- The report of a slot whose source panicked is blank. -/
theorem Course.slotReport?_of_panic (course : Course r₀ es r) {front : List TrialResult}
    {p : Panic} (panicked : resultsOf i es = front ++ [.panic p]) :
    r.slotReport? i = some (.blank i (r₀.config.workerSeed i) (.panicked p.message)) ∧
      ∃ limit, Unconcluded limit front := by
  have known := course.slots i
  cases here : r.crew.members[i]? with
  | none =>
      rw [here] at known
      cases known with
      | vacant results _ => simp [results] at panicked
  | some w =>
      rw [here] at known
      cases known with
      | manned prepared began serves =>
          have seen := serves.seen
          rw [panicked] at seen
          obtain ⟨phase, unconcluded⟩ := seen.phase_of_panic
          obtain ⟨workDir, slot⟩ := course.slot_eq here
          refine ⟨?_, w.limit, unconcluded⟩
          rw [slotReport?, here, Option.bind_some, Worker.report?, phase, slot]
          rfl

/-- **A panic hides the accounts of its worker.** What the source of a worker
returned before it panicked has been added to the history, but the worker is
reported with zero counts and without a score. So its report is what the calls
before the panic amount to exactly if there were none. -/
theorem panicked_worker_reports_nothing
    (started : start config stat id registry baseline now time = .ok r₀)
    (reached : r₀.steps es = some r) {moment : Timestamp}
    (finished : r.step (.finished moment) = some r') {front : List TrialResult} {p : Panic}
    (panicked : resultsOf i es = front ++ [.panic p]) :
    ∃ report worker, r'.report? = some report ∧ report.workers[i]? = some worker ∧
      additionsBy i (r₀.additions es) = outcomesOf front ∧
      worker = .blank i (config.workerSeed i) (.panicked p.message) ∧
      (worker = (Tally.ofResults front).report i (config.workerSeed i) (.panicked p.message) ↔
        front = []) := by
  have starts := starts_of_start started
  have course := course_of_steps starts.unmanned reached
  obtain ⟨ended, reports, workers⟩ := starts.finish_workers reached finished
  obtain ⟨slot, limit, unconcluded⟩ := course.slotReport?_of_panic panicked
  rw [starts.settings] at slot
  refine ⟨r.reportAt moment, _, reports, ?_, ?_, rfl, ?_⟩
  · rw [workers, getElem?_reports ended, slot]
  · rw [course.additionsBy_eq ended, panicked, outcomesOf_append, outcomesOf_panic,
      List.append_nil]
  · constructor
    · intro same
      simp only [WorkerReport.blank, Tally.report, WorkerReport.mk.injEq] at same
      obtain ⟨_, _, _, recorded, ignored, failures, _⟩ := same
      exact eq_nil_of_uncounted unconcluded recorded.symm ignored.symm failures.symm
    · rintro rfl
      rfl

namespace Sample

/-- The first worker returns the best outcome of all and then panics. -/
def panicking : List RunEvent :=
  [.prepared (.ready "a"), .prepared (.ready "b")] ++
    call 0 (.outcome (outcome one "best")) ++ hand 0 ++
    call 0 (.panic (.text "source exploded")) ++ call 1 .exhausted ++ [.joined 0, .joined 1]

end Sample

theorem panicked_worker_with_best_outcome :
    ∃ r r' report worker, (Sample.run 7).steps Sample.panicking = some r ∧
      r.step (.finished ⟨1, 0⟩) = some r' ∧ r'.report? = some report ∧
      report.workers[0]? = some worker ∧
      additionsBy 0 ((Sample.run 7).additions Sample.panicking) =
        [Sample.outcome Sample.one "best"] ∧
      worker = .blank 0 123 (.panicked "source exploded") := by
  obtain ⟨r, r', reached, finished⟩ := exists_finish
    (show (((Sample.run 7).steps Sample.panicking).bind fun r =>
      r.step (.finished ⟨1, 0⟩)).isSome by decide +kernel)
  obtain ⟨report, worker, reports, here, added, blank, _⟩ :=
    @panicked_worker_reports_nothing Sample.settings (fun _ => .ok .directory)
      (Sample.experiment 7) Registry.new (some (Sample.outcome Sample.two "baseline")) ⟨0⟩ ⟨0, 0⟩
      (Sample.run 7) r r' Sample.panicking 0 rfl reached ⟨1, 0⟩ finished
      [.outcome (Sample.outcome Sample.one "best")] (.text "source exploded")
      (by decide +kernel)
  exact ⟨r, r', report, worker, reached, finished, reports, here, added, blank⟩

/-- The worker that found the reported best score is reported without a trial. -/
theorem panic_hides_best_outcome :
    ∃ r r' report h worker, (Sample.run 7).steps Sample.panicking = some r ∧
      r.step (.finished ⟨1, 0⟩) = some r' ∧ r'.report? = some report ∧ r'.reported? = some h ∧
      resultsOf 0 Sample.panicking =
        [.outcome (Sample.outcome Sample.one "best"), .panic (.text "source exploded")] ∧
      h.best? = some (Sample.outcome Sample.one "best") ∧
      report.status.bestScore = some Sample.one.word ∧ report.status.trialsRecorded = 0 ∧
      report.workers[0]? = some worker ∧ worker.exit = .panicked "source exploded" ∧
      worker.recorded ≠
        (Tally.ofResults [.outcome (Sample.outcome Sample.one "best")]).recorded ∧
      worker.bestScore = none := by
  have made : (((Sample.run 7).steps Sample.panicking).bind fun r =>
      r.step (.finished ⟨1, 0⟩)).bind (fun r => r.report?.bind fun report =>
        r.reported?.map fun h =>
          (h.best?, report.status.bestScore, report.status.trialsRecorded, report.workers[0]?)) =
      some (some (Sample.outcome Sample.one "best"), some Sample.one.word, 0,
        some (.blank 0 123 (.panicked "source exploded"))) := by
    decide +kernel
  obtain ⟨r', ends, shown⟩ := Option.bind_eq_some_iff.mp made
  obtain ⟨r, reached, finished⟩ := Option.bind_eq_some_iff.mp ends
  obtain ⟨report, reports, rest⟩ := Option.bind_eq_some_iff.mp shown
  obtain ⟨h, contents, same⟩ := Option.map_eq_some_iff.mp rest
  simp only [Prod.mk.injEq] at same
  obtain ⟨best, score, recorded, worker⟩ := same
  exact ⟨r, r', report, h, _, reached, finished, reports, contents, by decide +kernel, best,
    score, recorded, worker, rfl, by decide +kernel, rfl⟩

end Run
end RankedSearch
