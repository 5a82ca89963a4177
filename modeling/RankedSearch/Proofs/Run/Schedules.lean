import RankedSearch.Proofs.Reordering
import RankedSearch.Proofs.Run.Report
import RankedSearch.Proofs.Worker.Conclusion

/-!
# Schedules

An assignment says what the world answers a run: how each preparation ends, and
what each call of each worker returns. It leaves open in which order the workers
move, add their outcomes and are joined.

When nobody asks the workers to stop and there is no time limit, this order leaves
no trace in the report but the choice among tied outcomes
(`schedule_leaves_no_trace`). Each worker ends with the first of its answers that
concludes, whatever the others do, so two runs of one assignment make the same
additions in different orders, and histories only tell such orders apart by the
outcomes that they keep of a tied score.
-/

set_option autoImplicit false

namespace RankedSearch

/-! ## Assignments -/

/-- A preparation apart from the place of its scratch directory. -/
def Preparation.anywhere : Preparation → Preparation
  | .ready _ => .ready ""
  | .noDirectory e => .noDirectory e
  | .refused _ e => .refused "" e
  | .panicked _ p => .panicked "" p

/-- Whether a preparation lets a worker start. -/
def Preparation.isReady : Preparation → Bool
  | .ready _ => true
  | .noDirectory _ | .refused _ _ | .panicked _ _ => false

/-- Whether an event asks the workers to stop. -/
def RunEvent.disturbs : RunEvent → Bool
  | .interrupted | .raised | .crew (.flagRaised _) => true
  | .prepared _ | .crew _ | .joined _ | .finished _ | .dropped _ | .drained | .elsewhere _ => false

/-- The preparation of each slot, and the result of each call of each worker. -/
structure Assignment where
  preparation : Nat → Preparation
  answer : Nat → Nat → TrialResult

/-- Preparations and results among several events are the assigned ones; scratch
directories may be anywhere. -/
structure Assignment.Gives (a : Assignment) (es : List RunEvent) : Prop where
  preparations : ∀ k p, (Run.preparations es)[k]? = some p →
    p.anywhere = (a.preparation k).anywhere
  answers : ∀ i k result, (Run.resultsOf i es)[k]? = some result → result = a.answer i k

/-! ## Undisturbed workers -/

/-- Without a flag and a deadline, no move of the crew stops a worker before its
source does. -/
theorem Crew.Moves.undisturbed {c c' : Crew} {e : CrewEvent} (moves : c.Moves e c')
    (unflagged : c.flagged = false) (quiet : RunEvent.disturbs (.crew e) = false)
    (endless : ∀ w ∈ c.members, w.slot.deadline = none)
    (before : ∀ w ∈ c.members, w.phase.Undisturbed) :
    c'.flagged = false ∧ ∀ w ∈ c'.members, w.phase.Undisturbed := by
  have reasoned : c.Reasoned :=
    ⟨fun w member stopped => absurd stopped (before w member).1,
      fun w member stopped => absurd stopped (before w member).2⟩
  have still : c'.flagged = false := by
    cases moves with
    | flagRaised => cases quiet
    | flagSeen | clockSeen | returned | exhausted | failed | panicked | obtained | added
    | elapsed => exact unflagged
  refine ⟨still, ?_⟩
  intro w member
  constructor
  · intro stopped
    rw [(moves.reasoned reasoned).cancelled w member stopped] at still
    cases still
  · intro stopped
    have limited := (moves.reasoned reasoned).timedOut w member stopped
    obtain ⟨j, there⟩ := List.mem_iff_getElem?.mp member
    rcases moves.member j with ⟨same, _, _⟩ | ⟨v, v', _, here, alsoThere, turns, _⟩
    · rw [endless w (List.mem_of_getElem? (same ▸ there))] at limited
      cases limited
    · rw [there] at alsoThere
      cases alsoThere
      rw [turns.settings_kept.1, endless v (List.mem_of_getElem? here)] at limited
      cases limited

namespace Run

variable {config config' : Config} {baseline : Option Outcome} {a b : Assignment}
  {r₀ r q₀ q r' : Run} {e : RunEvent} {es fs : List RunEvent} {j : Nat}

/-- The number of workers that several events launch. -/
def launches (es : List RunEvent) : Nat := (preparations es).countP Preparation.isReady

/-- Nobody has asked the workers of a run to stop, so its status tells only how
many were launched. -/
structure Undisturbed (r₀ : Run) (es : List RunEvent) (r : Run) : Prop where
  unflagged : r.crew.flagged = false
  phases : ∀ w ∈ r.crew.members, w.phase.Undisturbed
  status : r.status =
    { r₀.status with workersLaunched := r₀.status.workersLaunched + launches es }

theorem Undisturbed.enlist (calm : Undisturbed r₀ es r) {p : Preparation} {w : Worker}
    {status : ExperimentStatus} {joined : List Nat} {reports : List WorkerReport}
    (phase : w.phase.Undisturbed)
    (counted : status =
      { r.status with
        workersLaunched := r.status.workersLaunched + [p].countP Preparation.isReady }) :
    Undisturbed r₀ (es ++ [.prepared p])
      { r with
        crew := { r.crew with members := r.crew.members ++ [w] }
        status := status
        joined := joined
        reports := reports } where
  unflagged := calm.unflagged
  phases := by
    intro v member
    rcases List.mem_append.mp member with before | last
    · exact calm.phases v before
    · exact List.mem_singleton.mp last ▸ phase
  status := by
    rw [counted, calm.status, launches, launches, preparations_concat, List.countP_append,
      Nat.add_assoc]
    rfl

/-- An event that prepares nothing and leaves the workers undisturbed. -/
theorem Undisturbed.of_status (calm : Undisturbed r₀ es r) (unflagged : r'.crew.flagged = false)
    (phases : ∀ w ∈ r'.crew.members, w.phase.Undisturbed) (status : r'.status = r.status)
    (unprepared : e.preparation? = none) : Undisturbed r₀ (es ++ [e]) r' where
  unflagged := unflagged
  phases := phases
  status := by
    rw [status, launches, preparations_concat, unprepared, Option.toList_none, List.append_nil]
    exact calm.status

theorem Undisturbed.move (calm : Undisturbed r₀ es r) (course : Course r₀ es r)
    (endless : r₀.deadline = none) (moves : r.Moves e r') (quiet : e.disturbs = false)
    (stage : r'.stage = .searching) : Undisturbed r₀ (es ++ [e]) r' := by
  cases moves with
  | launched => exact calm.enlist ⟨Phase.noConfusion, Phase.noConfusion⟩ rfl
  | unplaced | refused =>
      exact calm.enlist ⟨by simp [Worker.unprepared], by simp [Worker.unprepared]⟩ rfl
  | crew moves =>
      have endlessSlots : ∀ w ∈ r.crew.members, w.slot.deadline = none := by
        intro w member
        obtain ⟨j, here⟩ := List.mem_iff_getElem?.mp member
        obtain ⟨workDir, slot⟩ := course.slot_eq here
        rw [slot]
        exact endless
      obtain ⟨unflagged, phases⟩ := moves.undisturbed calm.unflagged quiet endlessSlots calm.phases
      exact calm.of_status unflagged phases rfl rfl
  | joined | elsewhere => exact calm.of_status calm.unflagged calm.phases rfl rfl
  | interrupted | raised => cases quiet
  | unwound | finished | dropped | abandoned | drained => cases stage

theorem undisturbed_of_steps (unmanned : r₀.crew.members = []) (unflagged : r₀.crew.flagged = false)
    (endless : r₀.deadline = none) (reached : r₀.steps es = some r)
    (quiet : ∀ e ∈ es, e.disturbs = false) (stage : r.stage = .searching) :
    Undisturbed r₀ es r := by
  refine steps_induction
    (motive := fun es r => (∀ e ∈ es, e.disturbs = false) → r.stage = .searching →
      Undisturbed r₀ es r)
    (fun _ _ => ?_) (fun {es e r r'} reached ih moves quiet stage => ?_) reached quiet stage
  · refine ⟨unflagged, fun w member => ?_, rfl⟩
    rw [unmanned] at member
    cases member
  · have before := ih (fun f member => quiet f (List.mem_append_left _ member))
      (moves.searching_before stage)
    exact before.move (course_of_steps unmanned reached) endless moves
      (quiet e (List.mem_append_right _ (List.mem_singleton.mpr rfl))) stage

/-! ## Two runs of one assignment -/

/-- A run at its end that was given an assignment and that nobody disturbed. -/
structure Settled (config : Config) (a : Assignment) (r₀ : Run) (es : List RunEvent) (r : Run) :
    Prop where
  course : Course r₀ es r
  settings : r₀.config = config
  given : a.Gives es
  filled : r.crew.members.length = config.slotCount
  prepared : (preparations es).length = config.slotCount
  ended : ∀ w ∈ r.crew.members, w.hasEnded = true
  undisturbed : ∀ w ∈ r.crew.members, w.phase.Undisturbed

/-- Two configurations and assignments ask the same of one slot. -/
structure AgreeAt (j : Nat) (config config' : Config) (a b : Assignment) : Prop where
  seed : config.seed = config'.seed
  failureLimit : config.maxConsecutiveFailures = config'.maxConsecutiveFailures
  preparation : (a.preparation j).anywhere = (b.preparation j).anywhere
  answers : ∀ k, a.answer j k = b.answer j k

/-- Preparations that differ only in a directory put like workers into a slot. -/
theorem firstWorker?_alike {p p' : Preparation} {w w' : Worker}
    (same : p.anywhere = p'.anywhere) (seeds : r.config.seed = q.config.seed)
    (limits : r.config.maxConsecutiveFailures = q.config.maxConsecutiveFailures)
    (first : r.firstWorker? j p = some w) (second : q.firstWorker? j p' = some w') :
    w.Alike w' := by
  have seed : r.config.workerSeed j = q.config.workerSeed j := by
    rw [Config.workerSeed, Config.workerSeed, seeds]
  cases p with
  | ready workDir =>
      cases p' with
      | ready workDir' =>
          cases first
          cases second
          refine ⟨rfl, seed, ?_, rfl, fun unlaunched => ?_⟩
          · simp only [Worker.limit, limits]
          · cases unlaunched
      | noDirectory | refused | panicked => cases same
  | noDirectory e =>
      cases p' with
      | noDirectory e' =>
          cases same
          cases first
          cases second
          refine ⟨rfl, seed, rfl, rfl, fun _ => ⟨rfl, rfl, ?_⟩⟩
          simp only [Worker.report?, Worker.unprepared, slotAt, seed]
      | ready | refused | panicked => cases same
  | refused workDir e =>
      cases p' with
      | refused workDir' e' =>
          cases same
          cases first
          cases second
          refine ⟨rfl, seed, rfl, rfl, fun _ => ⟨rfl, rfl, ?_⟩⟩
          simp only [Worker.report?, Worker.unprepared, slotAt, seed]
      | ready | noDirectory | panicked => cases same
  | panicked workDir p => cases first

namespace Settled

/-- A slot of which two runs ask the same sees the same results in both and makes
the same report, whatever the runs ask of other slots. -/
theorem slot_eq_of_agree (first : Settled config a r₀ es r) (second : Settled config' b q₀ fs q)
    (agree : AgreeAt j config config' a b) (inside : j < config.slotCount)
    (insideToo : j < config'.slotCount) :
    resultsOf j es = resultsOf j fs ∧ r.slotReport? j = q.slotReport? j := by
  have known := first.course.slots j
  have knownToo := second.course.slots j
  obtain ⟨w, here⟩ : ∃ w, r.crew.members[j]? = some w :=
    ⟨_, List.getElem?_eq_getElem (first.filled.symm ▸ inside)⟩
  obtain ⟨v, there⟩ : ∃ v, q.crew.members[j]? = some v :=
    ⟨_, List.getElem?_eq_getElem (second.filled.symm ▸ insideToo)⟩
  have member := List.mem_of_getElem? here
  have memberToo := List.mem_of_getElem? there
  rw [here] at known
  rw [there] at knownToo
  rw [slotReport?, slotReport?, here, there, Option.bind_some, Option.bind_some]
  cases known with
  | @manned p _ _ prepared began serves =>
      cases knownToo with
      | @manned p' _ _ preparedToo beganToo servesToo =>
          have same : p.anywhere = p'.anywhere :=
            (first.given.preparations j p prepared).trans
              (agree.preparation.trans (second.given.preparations j p' preparedToo).symm)
          have seeds : r₀.config.seed = q₀.config.seed := by
            rw [first.settings, second.settings, agree.seed]
          have limits : r₀.config.maxConsecutiveFailures = q₀.config.maxConsecutiveFailures := by
            rw [first.settings, second.settings, agree.failureLimit]
          have alike := firstWorker?_alike same seeds limits began beganToo
          exact alike.ends serves servesToo (first.ended w member) (second.ended v memberToo)
            (first.undisturbed w member) (second.undisturbed v memberToo)
            (first.given.answers j)
            fun k result there => (second.given.answers j k result there).trans
              (agree.answers k).symm

/-- In both runs a slot sees the same results and makes the same report. -/
theorem slot_eq (first : Settled config a r₀ es r) (second : Settled config a q₀ fs q) (j : Nat) :
    resultsOf j es = resultsOf j fs ∧ r.slotReport? j = q.slotReport? j := by
  rcases Nat.lt_or_ge j config.slotCount with inside | outside
  · exact first.slot_eq_of_agree second ⟨rfl, rfl, rfl, fun _ => rfl⟩ inside inside
  · have vacant := first.course.slots j
    have vacantToo := second.course.slots j
    have here : r.crew.members[j]? = none := List.getElem?_eq_none (first.filled ▸ outside)
    have there : q.crew.members[j]? = none := List.getElem?_eq_none (second.filled ▸ outside)
    rw [here] at vacant
    rw [there] at vacantToo
    cases vacant with
    | vacant results _ =>
        cases vacantToo with
        | vacant resultsToo _ =>
            exact ⟨results.trans resultsToo.symm, by rw [slotReport?, slotReport?, here, there]⟩

theorem reports_eq (first : Settled config a r₀ es r) (second : Settled config a q₀ fs q) :
    r.crew.reports = q.crew.reports := by
  have slots : r.crew.members.map Worker.report? = q.crew.members.map Worker.report? := by
    rw [← r.map_slotReport?, ← q.map_slotReport?, first.filled, second.filled]
    exact List.map_congr_left fun j _ => (first.slot_eq second j).2
  have reports := congrArg (List.filterMap fun report => report) slots
  rw [List.filterMap_map, List.filterMap_map] at reports
  exact reports

/-- Both runs add the same outcomes. -/
theorem additions_perm (first : Settled config a r₀ es r) (second : Settled config a q₀ fs q) :
    (r₀.additions es).Perm (q₀.additions fs) := by
  refine perm_of_additionsBy fun i => ?_
  rw [first.course.additionsBy_eq first.ended, second.course.additionsBy_eq second.ended,
    (first.slot_eq second i).1]

/-- Both runs launch as many workers. -/
theorem launches_eq (first : Settled config a r₀ es r) (second : Settled config a q₀ fs q) :
    launches es = launches fs := by
  have same : (preparations es).map Preparation.anywhere =
      (preparations fs).map Preparation.anywhere := by
    refine List.ext_getElem ?_ fun k inside insideToo => ?_
    · rw [List.length_map, List.length_map, first.prepared, second.prepared]
    · rw [List.length_map] at inside insideToo
      rw [List.getElem_map, List.getElem_map,
        first.given.preparations k _ (List.getElem?_eq_getElem inside),
        second.given.preparations k _ (List.getElem?_eq_getElem insideToo)]
  have anywhere : Preparation.isReady ∘ Preparation.anywhere = Preparation.isReady := by
    funext p
    cases p <;> rfl
  rw [launches, launches, ← anywhere, ← List.countP_map, ← List.countP_map, same]

end Settled

/-! ## The report -/

/-- A run of a fresh experiment that was given an assignment, was not asked to
stop, and has just made its report. -/
inductive Completed (config : Config) (baseline : Option Outcome) (a : Assignment) : Run → Prop
  | intro {stat : String → Except IoError FileKind} {id : ExperimentId} {registry : Registry}
      {now : Instant} {time moment : Timestamp} {r₀ r r' : Run} {es : List RunEvent}
      (started : start config stat id registry baseline now time = .ok r₀)
      (fresh : registry.get? id = none) (reached : r₀.steps es = some r) (given : a.Gives es)
      (quiet : ∀ e ∈ es, e.disturbs = false) (finished : r.step (.finished moment) = some r') :
      Completed config baseline a r'

/-- The status of a run that has reported, when nobody interrupted it. -/
def finalStatus (id : ExperimentId) (time moment : Timestamp) (launches : Nat)
    (workers : List WorkerReport) (best : Option Score) : ExperimentStatus where
  id := id
  state := .finalized
  workersLaunched := launches
  workersFailed := (workers.filter fun report => report.exit.isAbnormal).length
  trialsRecorded := WorkerReport.total WorkerReport.recorded workers
  trialsFailed := WorkerReport.total WorkerReport.failures workers
  bestScore := best.map Score.word
  cancelled := false
  startedAt := some time
  finishedAt := some moment

theorem Undisturbed.status_reportAt (calm : Undisturbed r₀ es r) {id : ExperimentId}
    {time : Timestamp} {h : History}
    (begun : r₀.status = (ExperimentStatus.new id).markRunning time)
    (workers : WorkerReport.sortByIndex r.reports = r.crew.reports)
    (contents : r.closing.2.history r.closing.1 = h) (moment : Timestamp) :
    (r.reportAt moment).status =
      finalStatus id time moment (launches es) r.crew.reports h.bestScore? := by
  rw [reportAt, calm.status, begun, workers, contents]
  simp only [tallied, finalStatus, ExperimentStatus.markFinalized, ExperimentStatus.markDraining,
    ExperimentStatus.markRunning, ExperimentStatus.new, Nat.zero_add]

/-- A run without a time limit that was given an assignment, was not asked to stop
and has just made its report is settled. -/
theorem Starts.settled {id : ExperimentId} {registry : Registry} {time moment : Timestamp}
    (starts : Starts config id registry baseline time r₀) (unlimited : config.timeLimit = none)
    (reached : r₀.steps es = some r) (given : a.Gives es) (quiet : ∀ e ∈ es, e.disturbs = false)
    (finished : r.step (.finished moment) = some r') :
    Settled config a r₀ es r ∧ Undisturbed r₀ es r := by
  obtain ⟨_, endless, unflagged⟩ := starts.endless unlimited
  obtain ⟨ended, _, _⟩ := starts.finish_workers reached finished
  have course := course_of_steps starts.unmanned reached
  cases moves_of_step finished with
  | finished _ stage prepared _ =>
      have calm := undisturbed_of_steps starts.unmanned unflagged endless reached quiet stage
      have filled := starts.length_members reached prepared
      exact ⟨
        { course := course
          settings := starts.settings
          given := given
          filled := filled
          prepared := (course.prepared stage).trans filled
          ended := ended
          undisturbed := calm.phases }, calm⟩

/-- A completed run reports what its crew and its additions amount to. -/
theorem Completed.report (unlimited : config.timeLimit = none)
    (completed : Completed config baseline a r') :
    ∃ id time moment r₀ es r report h, Settled config a r₀ es r ∧
      r'.report? = some report ∧ report.workers = r.crew.reports ∧
      report.status =
        finalStatus id time moment (launches es) r.crew.reports h.bestScore? ∧
      r'.reported? = some h ∧
      h = (collected id config
        (baseline.toList ++ (r₀.additions es).map Prod.snd)).orSentinel := by
  cases completed with
  | @intro stat id registry now time moment r₀ r _ es started fresh reached given quiet finished =>
      have starts := starts_of_start started
      obtain ⟨settled, calm⟩ := starts.settled unlimited reached given quiet finished
      obtain ⟨_, report, workers, contents⟩ := starts.finish fresh reached finished
      cases moves_of_step finished with
      | finished =>
          exact ⟨id, time, moment, r₀, es, r, r.reportAt moment, _, settled, report, workers,
            calm.status_reportAt starts.status workers (Option.some.inj contents) moment,
            contents, rfl⟩

/-- **The schedule leaves no trace.** Two completed runs of one configuration, one
baseline and one assignment report the same workers, the same status apart from
the identifier and the times, and histories that retain the same scores and have
counted the same. -/
theorem schedule_leaves_no_trace (unlimited : config.timeLimit = none)
    (first : Completed config baseline a r) (second : Completed config baseline a q) :
    ∃ report other h k, r.report? = some report ∧ q.report? = some other ∧
      r.reported? = some h ∧ q.reported? = some k ∧
      report.workers = other.workers ∧
      { report.status with
        id := other.status.id
        startedAt := other.status.startedAt
        finishedAt := other.status.finishedAt } = other.status ∧
      h.all.map Outcome.score = k.all.map Outcome.score ∧
      h.size = k.size ∧ h.evicted = k.evicted ∧ h.ignored = k.ignored := by
  obtain ⟨id, time, moment, r₀, es, atEnd, report, h, settled, reports, workers, status, contents,
    rfl⟩ := first.report unlimited
  obtain ⟨id', time', moment', q₀, fs, atEnd', other, k, settled', reports', workers', status',
    contents', rfl⟩ := second.report unlimited
  have crews := settled.reports_eq settled'
  have added := ((settled.additions_perm settled').map Prod.snd).append_left baseline.toList
  have alike := ((retains_collected id config _).alike (retains_collected id' config _) added
    ((capacity_collected id config _).trans (capacity_collected id' config _).symm)).orSentinel
  refine ⟨report, other, _, _, reports, reports', contents, contents', ?_, ?_, alike.scores,
    alike.size_eq, alike.evicted, alike.ignored⟩
  · rw [workers, workers', crews]
  · rw [status, status', crews, settled.launches_eq settled', alike.bestScore?_eq]
    rfl

namespace Sample

/-- Each worker returns one outcome and has no more. -/
def assignment : Assignment where
  preparation := fun _ => .ready ""
  answer := fun i k =>
    if k = 0 then .outcome (if i = 0 then outcome one "best" else outcome two "late")
    else .exhausted

/-- The same answers as in `events`, with the workers in another order. -/
def reordered : List RunEvent :=
  [.prepared (.ready "c"), .prepared (.ready "d")] ++
    call 0 (.outcome (outcome one "best")) ++ hand 0 ++ call 0 .exhausted ++ [.joined 0] ++
    call 1 (.outcome (outcome two "late")) ++ hand 1 ++ call 1 .exhausted ++ [.joined 1]

theorem assignment_gives {es : List RunEvent}
    (ready : ∀ p ∈ preparations es, p.anywhere = .ready "")
    (best : resultsOf 0 es = [.outcome (outcome one "best"), .exhausted])
    (late : resultsOf 1 es = [.outcome (outcome two "late"), .exhausted])
    (others : ∀ i, resultsOf (i + 2) es = []) : assignment.Gives es where
  preparations := fun k p there => ready p (List.mem_of_getElem? there)
  answers := by
    intro i k result there
    match i, k with
    | 0, 0 | 0, 1 =>
        rw [best] at there
        cases there
        rfl
    | 1, 0 | 1, 1 =>
        rw [late] at there
        cases there
        rfl
    | 0, k + 2 =>
        rw [best] at there
        cases there
    | 1, k + 2 =>
        rw [late] at there
        cases there
    | i + 2, k =>
        rw [others] at there
        cases there

end Sample

theorem reordered_run_reports_same_workers :
    ∃ r q report other,
      Completed Sample.settings (some (Sample.outcome Sample.two "baseline")) Sample.assignment r ∧
      Completed Sample.settings (some (Sample.outcome Sample.two "baseline")) Sample.assignment q ∧
      r.joined = [1, 0] ∧ q.joined = [0, 1] ∧
      r.report? = some report ∧ q.report? = some other ∧ report.workers = other.workers := by
  obtain ⟨_, r, reached, finished⟩ := exists_finish
    (show (((Sample.run 7).steps Sample.events).bind fun r =>
      r.step (.finished ⟨1, 0⟩)).isSome by decide +kernel)
  obtain ⟨_, q, reachedToo, finishedToo⟩ := exists_finish
    (show (((Sample.run 8).steps Sample.reordered).bind fun r =>
      r.step (.finished ⟨2, 0⟩)).isSome by decide +kernel)
  have joined : (((Sample.run 7).steps Sample.events).bind fun r =>
      r.step (.finished ⟨1, 0⟩)).map Run.joined = some [1, 0] := by decide +kernel
  have joinedToo : (((Sample.run 8).steps Sample.reordered).bind fun r =>
      r.step (.finished ⟨2, 0⟩)).map Run.joined = some [0, 1] := by decide +kernel
  rw [reached, Option.bind_some, finished] at joined
  rw [reachedToo, Option.bind_some, finishedToo] at joinedToo
  have first : Completed Sample.settings (some (Sample.outcome Sample.two "baseline"))
      Sample.assignment r :=
    @Completed.intro _ _ _ (fun _ => .ok .directory) (Sample.experiment 7) Registry.new ⟨0⟩ ⟨0, 0⟩
      ⟨1, 0⟩ (Sample.run 7) _ r Sample.events rfl rfl reached
      (Sample.assignment_gives (by decide +kernel) (by decide +kernel) (by decide +kernel)
        fun _ => rfl)
      (by decide +kernel) finished
  have second : Completed Sample.settings (some (Sample.outcome Sample.two "baseline"))
      Sample.assignment q :=
    @Completed.intro _ _ _ (fun _ => .ok .directory) (Sample.experiment 8) Registry.new ⟨0⟩ ⟨0, 0⟩
      ⟨2, 0⟩ (Sample.run 8) _ q Sample.reordered rfl rfl reachedToo
      (Sample.assignment_gives (by decide +kernel) (by decide +kernel) (by decide +kernel)
        fun _ => rfl)
      (by decide +kernel) finishedToo
  obtain ⟨report, other, _, _, reports, reportsToo, _, _, workers, _⟩ :=
    schedule_leaves_no_trace rfl first second
  exact ⟨r, q, report, other, first, second, Option.some.inj joined, Option.some.inj joinedToo,
    reports, reportsToo, workers⟩

end Run
end RankedSearch
