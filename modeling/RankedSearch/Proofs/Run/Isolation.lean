import RankedSearch.Proofs.Run.Schedules

/-!
# Isolation of the slots

All workers of a run share one history, and each learns from it what became of its
outcomes: whether they were admitted at once, pushed out another or were rejected.
What others add decides that, and so do the baseline and the capacity. The report
of a worker counts an outcome by its score alone, so none of this reaches it: two
runs that ask the same of one slot report the same for it, whatever they ask of the
other slots, and however many of these there are (`slot_report_isolated`).
-/

set_option autoImplicit false

namespace RankedSearch
namespace Run

variable {config config' : Config} {a b : Assignment} {r q : Run} {es fs : List RunEvent} {i : Nat}

/-- A run that was given an assignment, was not asked to stop, and has just made
its report; its experiment, its registry and its baseline may be any. -/
inductive Finished (config : Config) (a : Assignment) : Run → Prop
  | intro {stat : String → Except IoError FileKind} {id : ExperimentId} {registry : Registry}
      {baseline : Option Outcome} {now : Instant} {time moment : Timestamp} {r₀ r r' : Run}
      {es : List RunEvent}
      (started : start config stat id registry baseline now time = .ok r₀)
      (reached : r₀.steps es = some r) (given : a.Gives es)
      (quiet : ∀ e ∈ es, e.disturbs = false) (finished : r.step (.finished moment) = some r') :
      Finished config a r'

/-- A completed run has finished. -/
theorem Completed.finished {baseline : Option Outcome} (completed : Completed config baseline a r) :
    Finished config a r := by
  cases completed with
  | intro started _ reached given quiet finished => exact .intro started reached given quiet finished

/-- A finished run has a report for every slot, and it is that of the worker there. -/
theorem Finished.getElem?_workers (unlimited : config.timeLimit = none)
    (finished : Finished config a q) :
    ∃ r₀ es r report, Settled config a r₀ es r ∧ q.report? = some report ∧
      ∀ i, report.workers[i]? = r.slotReport? i := by
  cases finished with
  | @intro stat id registry baseline now time moment r₀ r _ es started reached given quiet ends =>
      have starts := starts_of_start started
      obtain ⟨settled, _⟩ := starts.settled unlimited reached given quiet ends
      obtain ⟨ended, reports, workers⟩ := starts.finish_workers reached ends
      refine ⟨r₀, es, r, r.reportAt moment, settled, reports, ?_⟩
      intro i
      rw [workers, getElem?_reports ended]

/-- **The slots of a run are isolated from each other.** Two finished runs that
agree on the seed, on the failure limit, and on the preparation and the answers of
one slot report the same for this slot. They may differ in all else: in the other
slots and their number, in the capacity, the baseline and the registry, and in the
order of events. -/
theorem slot_report_isolated (unlimited : config.timeLimit = none)
    (unlimitedToo : config'.timeLimit = none) (inside : i < config.slotCount)
    (insideToo : i < config'.slotCount) (agree : AgreeAt i config config' a b)
    (first : Finished config a r) (second : Finished config' b q) :
    ∃ report other worker, r.report? = some report ∧ q.report? = some other ∧
      report.workers[i]? = some worker ∧ other.workers[i]? = some worker ∧
      worker.workerIndex = i := by
  obtain ⟨r₀, es, atEnd, report, settled, reports, workers⟩ := first.getElem?_workers unlimited
  obtain ⟨q₀, fs, atEnd', other, settled', reports', workers'⟩ :=
    second.getElem?_workers unlimitedToo
  obtain ⟨worker, here⟩ := exists_slotReport settled.ended (settled.filled.symm ▸ inside)
  obtain ⟨_, same⟩ := settled.slot_eq_of_agree settled' agree inside insideToo
  refine ⟨report, other, worker, reports, reports', ?_, ?_, settled.course.workerIndex_eq here⟩
  · rw [workers, here]
  · rw [workers', ← same, here]

/-! ### A slot in good and in bad company -/

/-- What events gave a run. -/
def assignmentOf (es : List RunEvent) : Assignment where
  preparation := fun k => (preparations es)[k]?.getD (.ready "")
  answer := fun i k => (resultsOf i es)[k]?.getD .exhausted

/-- Every sequence of events gives some assignment. -/
theorem gives_assignmentOf (es : List RunEvent) : (assignmentOf es).Gives es where
  preparations := by
    intro k p there
    simp only [assignmentOf, there, Option.getD_some]
  answers := by
    intro i k result there
    simp only [assignmentOf, there, Option.getD_some]

/-- Slots of which events have made the same got the same assigned. -/
theorem AgreeAt.of_events (seed : config.seed = config'.seed)
    (failureLimit : config.maxConsecutiveFailures = config'.maxConsecutiveFailures)
    (preparation : (preparations es)[i]?.map Preparation.anywhere =
      (preparations fs)[i]?.map Preparation.anywhere)
    (results : resultsOf i es = resultsOf i fs) :
    AgreeAt i config config' (assignmentOf es) (assignmentOf fs) where
  seed := seed
  failureLimit := failureLimit
  preparation := by
    have anywhere (p : Option Preparation) :
        (p.getD (.ready "")).anywhere = (p.map Preparation.anywhere).getD (.ready "") := by
      cases p <;> rfl
    simp only [assignmentOf, anywhere, preparation]
  answers := by
    intro k
    simp only [assignmentOf, results]

namespace Sample

/-- Three workers and a history of one outcome. -/
def narrow : Config := { settings with parallelRuns := 3, historyCapacity := 1 }

/-- The first worker does as in `events`, between a slot without a source and a
source that panics. -/
def troubled : List RunEvent :=
  [.prepared (.ready "x"), .prepared (.refused "y" (.search "no data")), .prepared (.ready "z")] ++
    call 2 (.panic (.text "source exploded")) ++ call 0 (.outcome (outcome one "best")) ++ hand 0 ++
    [.joined 2] ++ call 0 .exhausted ++ [.joined 0]

/-- A registry with a history of another experiment. -/
def shared (digit : Fin 16) : Registry := (Registry.new.obtainWith (experiment digit) 5).2

/-- The run of three workers at its start, with a baseline that no outcome beats. -/
def crowded (digit other : Fin 16) : Run :=
  opened narrow (experiment digit) (shared other) (some (outcome one "unbeaten")) ⟨0⟩ ⟨0, 0⟩

end Sample

theorem slot_report_isolated_among_panics :
    ∃ r q report other worker, Finished Sample.settings (assignmentOf Sample.events) r ∧
      Finished Sample.narrow (assignmentOf Sample.troubled) q ∧
      r.report? = some report ∧ q.report? = some other ∧
      report.workers[0]? = some worker ∧ other.workers[0]? = some worker ∧
      worker.workerIndex = 0 := by
  obtain ⟨_, r, reached, finished⟩ := exists_finish
    (show (((Sample.run 7).steps Sample.events).bind fun r =>
      r.step (.finished ⟨1, 0⟩)).isSome by decide +kernel)
  obtain ⟨_, q, reachedToo, finishedToo⟩ := exists_finish
    (show (((Sample.crowded 8 3).steps Sample.troubled).bind fun r =>
      r.step (.finished ⟨2, 0⟩)).isSome by decide +kernel)
  have first : Finished Sample.settings (assignmentOf Sample.events) r :=
    @Finished.intro _ _ (fun _ => .ok .directory) (Sample.experiment 7) Registry.new
      (some (Sample.outcome Sample.two "baseline")) ⟨0⟩ ⟨0, 0⟩ ⟨1, 0⟩ (Sample.run 7) _ r
      Sample.events rfl reached (gives_assignmentOf _) (by decide +kernel) finished
  have second : Finished Sample.narrow (assignmentOf Sample.troubled) q :=
    @Finished.intro _ _ (fun _ => .ok .directory) (Sample.experiment 8) (Sample.shared 3)
      (some (Sample.outcome Sample.one "unbeaten")) ⟨0⟩ ⟨0, 0⟩ ⟨2, 0⟩ (Sample.crowded 8 3) _ q
      Sample.troubled rfl reachedToo (gives_assignmentOf _) (by decide +kernel) finishedToo
  have agree : AgreeAt 0 Sample.settings Sample.narrow (assignmentOf Sample.events)
      (assignmentOf Sample.troubled) :=
    .of_events rfl rfl (by decide +kernel) (by decide +kernel)
  obtain ⟨report, other, worker, shown⟩ := slot_report_isolated rfl rfl
    (show 0 < Sample.settings.slotCount by decide) (show 0 < Sample.narrow.slotCount by decide)
    agree first second
  exact ⟨r, q, report, other, worker, first, second, shown⟩

end Run
end RankedSearch
