import RankedSearch.Proofs.Run.Accounts
import RankedSearch.Proofs.Run.Schedules

/-!
# One report for each slot

The reports of a finished run come from three sides: a slot that could not be
prepared is reported at once, a worker that stopped hands in its own report, and one
that panicked is reported by whoever joins it. However these come together, the
report has one entry for each slot, in order, and its status counts these entries
(`finished_report_has_entry_for_each_slot`).

Whether a slot has a worker that was launched is decided by its preparation alone
(`Course.wasLaunched_eq`), so the workers that were counted when they were launched
are those that have another exit than a failed preparation. A slot without such a
worker never does anything (`Course.unlaunched_slot_idle`).
-/

set_option autoImplicit false

namespace RankedSearch

/-- Whether a worker that exits so was launched. -/
def WorkerExit.wasLaunched : WorkerExit → Bool
  | .prepareFailed _ => false
  | .exhausted | .cancelled | .timedOut | .failed _ | .panicked _ => true

theorem WorkerExit.isAbnormal_eq (exit : WorkerExit) :
    exit.isAbnormal = (exit matches .failed _ | .panicked _ | .prepareFailed _) := by
  cases exit <;> rfl

/-! ## Reports of workers -/

section Reported

variable {w : Worker} {report : WorkerReport}

theorem Worker.seed_of_report? (ended : w.report? = some report) : report.seed = w.slot.seed := by
  simp only [report?] at ended
  split at ended <;> cases ended <;> rfl

theorem Worker.wasLaunched_of_report? (ended : w.report? = some report) :
    report.exit.wasLaunched = w.wasLaunched := by
  cases phase : w.phase with
  | head | unflagged | calling | holding o | admitting h o =>
      simp only [report?, phase] at ended
      cases ended
  | panicked p =>
      simp only [report?, phase] at ended
      cases ended
      simp only [wasLaunched, phase]
      rfl
  | stopped exit =>
      simp only [report?, phase] at ended
      cases ended
      simp only [wasLaunched, phase]
      cases exit <;> rfl

end Reported

/-- Seeds count up from that of the configuration and wrap. -/
theorem Config.toNat_workerSeed (config : Config) (i : Nat) :
    (config.workerSeed i).toNat = (config.seed.toNat + i) % 2 ^ 64 := by
  rw [workerSeed, UInt64.toNat_add, UInt64.toNat_ofNat', Nat.add_mod_mod]

namespace Run

variable {config : Config} {stat : String → Except IoError FileKind} {id : ExperimentId}
  {registry : Registry} {baseline : Option Outcome} {now : Instant} {time : Timestamp}
  {r₀ r r' q q' : Run} {e : RunEvent} {es front back : List RunEvent} {i : Nat} {w : Worker}
  {report : WorkerReport}

/-- The slot that is prepared or joined in an event, or whose worker moves. -/
def slotOf? (r : Run) : RunEvent → Option Nat
  | .prepared _ => some r.crew.members.length
  | .crew e => e.worker?
  | .joined i => some i
  | .interrupted | .raised | .finished _ | .dropped _ | .drained | .elsewhere _ => none

/-! ## What is counted -/

theorem launches_concat (es : List RunEvent) (e : RunEvent) :
    launches (es ++ [e]) = launches es + e.preparation?.toList.countP Preparation.isReady := by
  rw [launches, launches, preparations_concat, List.countP_append]

/-- Launched workers are counted when they are launched, and the time of the start stays. -/
theorem Moves.status_counted (moves : r.Moves e r') :
    r'.status.workersLaunched =
        r.status.workersLaunched + e.preparation?.toList.countP Preparation.isReady ∧
      r'.status.startedAt = r.status.startedAt := by
  cases moves with
  | launched | unplaced | refused | unwound | crew | joined | interrupted | raised | finished
  | dropped | abandoned | drained | elsewhere => exact ⟨rfl, rfl⟩

theorem status_counted_of_steps (reached : r₀.steps es = some r) :
    r.status.workersLaunched = r₀.status.workersLaunched + launches es ∧
      r.status.startedAt = r₀.status.startedAt := by
  apply steps_induction
    (motive := fun es r => r.status.workersLaunched = r₀.status.workersLaunched + launches es ∧
      r.status.startedAt = r₀.status.startedAt) ?_ ?_ reached
  · exact ⟨rfl, rfl⟩
  · rintro es e q q' _ ⟨launched, begun⟩ moves
    obtain ⟨more, kept⟩ := moves.status_counted
    refine ⟨?_, kept.trans begun⟩
    rw [more, launched, launches_concat, Nat.add_assoc]

/-- The preparation of a slot decides whether its worker was launched. -/
theorem Course.wasLaunched_eq (course : Course r₀ es r) (here : r.crew.members[i]? = some w) :
    ∃ p, (preparations es)[i]? = some p ∧ w.wasLaunched = p.isReady := by
  have known := course.slots i
  rw [here] at known
  cases known with
  | @manned p _ first prepared began serves =>
      refine ⟨p, prepared, ?_⟩
      cases p with
      | ready workDir =>
          cases began
          exact serves.began.launched rfl
      | noDirectory e | refused workDir e =>
          cases began
          rw [serves.began.ended rfl]
          rfl
      | panicked workDir p => cases began

/-- While the caller waits, as many workers were launched as are not missing in their slots. -/
theorem Course.launches_eq (course : Course r₀ es r) (stage : r.stage = .searching) :
    launches es = r.crew.members.countP Worker.wasLaunched := by
  have lengths := course.prepared stage
  have same : (preparations es).map Preparation.isReady =
      r.crew.members.map Worker.wasLaunched := by
    apply List.ext_getElem
    · rw [List.length_map, List.length_map, lengths]
    · intro i inside insideToo
      rw [List.length_map] at insideToo
      obtain ⟨p, prepared, launched⟩ := course.wasLaunched_eq (List.getElem?_eq_getElem insideToo)
      obtain ⟨_, there⟩ := List.getElem?_eq_some_iff.mp prepared
      rw [List.getElem_map, List.getElem_map, there, launched]
  have counted := congrArg (List.countP fun launched => launched) same
  rwa [List.countP_map, List.countP_map] at counted

/-- Of an ended crew, the launched workers are those with another exit than a failed
preparation. -/
theorem countP_wasLaunched_reports (ended : ∀ w ∈ r.crew.members, w.hasEnded = true) :
    r.crew.reports.countP (fun report => report.exit.wasLaunched) =
      r.crew.members.countP Worker.wasLaunched := by
  rw [Crew.reports, List.countP_filterMap]
  apply List.countP_congr
  intro w member
  have reported := ended w member
  rw [Worker.hasEnded_eq_isSome_report?] at reported
  obtain ⟨report, stated⟩ := Option.isSome_iff_exists.mp reported
  rw [stated, Option.map_some, Option.getD_some, Worker.wasLaunched_of_report? stated]

/-! ## Single slots -/

/-- A report bears the seed of its slot. -/
theorem Course.seed_eq (course : Course r₀ es r) (reported : r.slotReport? i = some report) :
    report.seed = r₀.config.workerSeed i := by
  obtain ⟨w, here, ended⟩ := Option.bind_eq_some_iff.mp reported
  obtain ⟨workDir, slot⟩ := course.slot_eq here
  rw [Worker.seed_of_report? ended, slot]
  rfl

/-- A slot without a launched worker never does anything but be prepared and reported,
and the registry is the same before and after. -/
theorem Course.unlaunched_slot_idle (course : Course r₀ (front ++ e :: back) r)
    (before : Course r₀ front q) (moves : q.Moves e q') (own : q.slotOf? e = some i)
    (here : r.crew.members[i]? = some w) (unlaunched : w.wasLaunched = false) :
    (∀ c, e ≠ .crew c) ∧ q'.crew.registry = q.crew.registry := by
  cases e with
  | crew c =>
      cases moves with
      | crew moves =>
          -- A worker that moves was launched by a preparation, and its slot has no other one.
          obtain ⟨v, there, works⟩ := moves.works own
          obtain ⟨workDir, prepared, _⟩ := before.working there works
          obtain ⟨p, preparedToo, launched⟩ := course.wasLaunched_eq here
          obtain ⟨inside, _⟩ := List.getElem?_eq_some_iff.mp prepared
          rw [preparations, List.filterMap_append, ← preparations,
            List.getElem?_append_left inside, prepared] at preparedToo
          cases preparedToo
          rw [unlaunched] at launched
          cases launched
  | prepared p =>
      refine ⟨fun c => RunEvent.noConfusion, ?_⟩
      cases moves <;> rfl
  | joined k =>
      refine ⟨fun c => RunEvent.noConfusion, ?_⟩
      cases moves
      rfl
  | interrupted | raised | finished | dropped | drained | elsewhere => cases own

/-- The report of a slot that could not be prepared is blank, and nothing came to it. -/
theorem Course.unlaunched_slot_blank (course : Course r₀ es r)
    (reported : r.slotReport? i = some report) {reason : String}
    (failed : report.exit = .prepareFailed reason) :
    report = .blank i (r₀.config.workerSeed i) (.prepareFailed reason) ∧ resultsOf i es = [] ∧
      ∃ w, r.crew.members[i]? = some w ∧ w.wasLaunched = false := by
  have index := course.workerIndex_eq reported
  have seed := course.seed_eq reported
  obtain ⟨w, here, ended⟩ := Option.bind_eq_some_iff.mp reported
  have unlaunched : w.wasLaunched = false := by
    rw [← Worker.wasLaunched_of_report? ended, failed]
    rfl
  have known := course.slots i
  rw [here] at known
  cases known with
  | manned prepared began serves =>
      have nothing := serves.seen.eq_nil_of_not_launched unlaunched
      have counts := serves.seen.report_eq_of_calm ended (by simp [nothing])
      refine ⟨?_, nothing, w, here, unlaunched⟩
      rw [nothing, ← Worker.workerIndex_of_report? ended, ← Worker.seed_of_report? ended, index,
        seed, failed] at counts
      exact counts

/-! ## The report -/

/-- **A finished run has one report for each slot, and its status counts them.** The
reports stand in the order of the slots, with seeds that count up and wrap. A slot that
could not be prepared is reported without any count or score: no call was ever made
there, and none of its events touched the registry. The status tells how many workers
were launched and how many ended by a fault, and it adds up their trials; it is
finalized, with the times of the start and of the end. All this holds whatever became
of the workers and in whatever order they were joined. -/
theorem finished_report_has_entry_for_each_slot
    (started : start config stat id registry baseline now time = .ok r₀)
    (reached : r₀.steps es = some r) {moment : Timestamp}
    (finished : r.step (.finished moment) = some r') :
    ∃ report, r'.report? = some report ∧
      report.workers.length = (if config.skipSearch then 0 else config.parallelRuns.toNat) ∧
      (∀ i worker, report.workers[i]? = some worker →
        worker.workerIndex = i ∧ worker.seed.toNat = (config.seed.toNat + i) % 2 ^ 64 ∧
        ∀ reason, worker.exit = .prepareFailed reason →
          worker = .blank i (config.workerSeed i) (.prepareFailed reason) ∧
          resultsOf i es = [] ∧
          ∀ front e back q q', es = front ++ e :: back → r₀.steps front = some q →
            q.step e = some q' → q.slotOf? e = some i →
            (∀ c, e ≠ .crew c) ∧ q'.crew.registry = q.crew.registry) ∧
      report.status.workersLaunched =
        report.workers.countP (fun worker => worker.exit.wasLaunched) ∧
      report.status.workersFailed = report.workers.countP (fun worker =>
        worker.exit matches .failed _ | .panicked _ | .prepareFailed _) ∧
      report.status.trialsRecorded = (report.workers.map WorkerReport.recorded).sum ∧
      report.status.trialsFailed = (report.workers.map WorkerReport.failures).sum ∧
      report.status.state = .finalized ∧ report.status.startedAt = some time ∧
      report.status.finishedAt = some moment := by
  have starts := starts_of_start started
  have course := course_of_steps starts.unmanned reached
  obtain ⟨ended, reports, workers⟩ := starts.finish_workers reached finished
  obtain ⟨launched, begun⟩ := status_counted_of_steps reached
  rw [starts.status] at launched begun
  cases moves_of_step finished with
  | finished _ stage prepared all =>
      have slots (i : Nat) : (r.reportAt moment).workers[i]? = r.slotReport? i := by
        rw [workers, getElem?_reports ended]
      refine ⟨r.reportAt moment, reports, ?_, ?_, ?_, ?_, ?_, ?_, rfl, begun, rfl⟩
      · have lengths := congrArg List.length (reports_eq_slotReports ended)
        rw [List.length_map, List.length_map, List.length_range,
          starts.length_members reached prepared] at lengths
        rw [workers, lengths]
        rfl
      · intro i worker there
        rw [slots] at there
        have seed := course.seed_eq there
        rw [starts.settings] at seed
        refine ⟨course.workerIndex_eq there, ?_, ?_⟩
        · rw [seed, Config.toNat_workerSeed]
        · intro reason failed
          obtain ⟨blank, nothing, w, here, unlaunched⟩ := course.unlaunched_slot_blank there failed
          rw [starts.settings] at blank
          refine ⟨blank, nothing, ?_⟩
          rintro front e back q q' rfl before stepped own
          exact course.unlaunched_slot_idle (course_of_steps starts.unmanned before)
            (moves_of_step stepped) own here unlaunched
      · rw [workers, countP_wasLaunched_reports ended, ← course.launches_eq stage]
        exact launched.trans (Nat.zero_add _)
      · exact List.countP_eq_length_filter.symm.trans
          (congrArg (List.countP · _) (funext fun worker => worker.exit.isAbnormal_eq))
      · exact WorkerReport.total_eq_sum _ _
      · exact WorkerReport.total_eq_sum _ _

/-! ### Four workers with seeds at the end of the word -/

namespace Sample

/-- The first of four workers has the last of all seeds, and none of them may fail. -/
def wrapping : Config :=
  { settings with
    parallelRuns := 4
    seed := UInt64.ofNat (2 ^ 64 - 1)
    maxConsecutiveFailures := 1 }

/-- The second slot cannot be prepared, the source of the third panics and that of the fourth
fails, and then the run is interrupted. -/
def mishaps : List RunEvent :=
  [.prepared (.ready "a"), .prepared (.refused "b" (.search "no data")), .prepared (.ready "c"),
    .prepared (.ready "d")] ++
    call 2 (.panic (.text "source exploded")) ++ call 3 (.failure (.search "diverged")) ++
    [.joined 2, .interrupted, .joined 3, .crew (.flagSeen 0), .joined 0]

/-- How the workers exit. -/
def exits : List WorkerExit :=
  [.cancelled,
    .prepareFailed (PreparationError.message ⟨1, "Search procedure failed: no data"⟩),
    .panicked "source exploded",
    .failed "Search procedure failed: diverged"]

/-- The run of these workers at its start. -/
def unlucky (digit : Fin 16) : Run :=
  opened wrapping (experiment digit) Registry.new none ⟨0⟩ ⟨0, 0⟩

end Sample

theorem wrapping_seeds_with_mishaps :
    ∃ r r' report, (Sample.unlucky 7).steps Sample.mishaps = some r ∧
      r.step (.finished ⟨1, 0⟩) = some r' ∧ r'.report? = some report ∧
      report.workers.map WorkerReport.exit = Sample.exits ∧
      report.workers.map (fun worker => worker.seed.toNat) = [2 ^ 64 - 1, 0, 1, 2] ∧
      report.status.workersLaunched = 3 ∧ report.status.workersFailed = 3 := by
  have made : (((Sample.unlucky 7).steps Sample.mishaps).bind fun r =>
      r.step (.finished ⟨1, 0⟩)).bind (fun r => r.report?.map fun report =>
        report.workers.map WorkerReport.exit) = some Sample.exits := by
    decide +kernel
  obtain ⟨r, r', report, reached, finished, reports, exits⟩ := exists_seen_report made
  obtain ⟨_, same, length, entries, launched, failed, _⟩ :=
    @finished_report_has_entry_for_each_slot Sample.wrapping (fun _ => .ok .directory)
      (Sample.experiment 7) Registry.new none ⟨0⟩ ⟨0, 0⟩ (Sample.unlucky 7) r r' Sample.mishaps
      rfl reached ⟨1, 0⟩ finished
  rw [reports] at same
  cases same
  have four : report.workers.length = 4 := length
  have counted (among : WorkerExit → Bool) :
      report.workers.countP (fun worker => among worker.exit) =
        (report.workers.map WorkerReport.exit).countP among := List.countP_map.symm
  refine ⟨r, r', report, reached, finished, reports, exits, ?_, ?_, ?_⟩
  · apply List.ext_getElem
    · rw [List.length_map, four]
      rfl
    · intro i inside _
      rw [List.length_map] at inside
      have seed := (entries i _ (List.getElem?_eq_getElem inside)).2.1
      rw [List.getElem_map, seed]
      rw [four] at inside
      obtain rfl | rfl | rfl | rfl : i = 0 ∨ i = 1 ∨ i = 2 ∨ i = 3 := by omega
      · rfl
      · rfl
      · rfl
      · rfl
  · rw [launched, counted, exits]
    rfl
  · have faults := counted fun exit => exit matches .failed _ | .panicked _ | .prepareFailed _
    rw [exits] at faults
    exact failed.trans faults

end Run
end RankedSearch
