import RankedSearch.Proofs.Run.Report
import RankedSearch.Proofs.Worker.Conclusion

/-!
# How a run returns

A run whose caller waits for it goes on to its report: every slot can be prepared,
and when the workers have ended they can be joined, one after the other, until the
report can be made (`returns_of_awaited`). Only the caller and a preparation that
panics can take the run off this way.

There is one more way off it, at the very start: the clock has an end, and a time
limit that leads beyond it makes the run unwind before any slot is prepared. No
check of the configuration looks at the time limit, so a run of a valid
configuration returns unless the clock cannot represent its deadline
(`returns_unless_deadline_overflows`).
-/

set_option autoImplicit false

namespace RankedSearch

/-- The clock can represent the deadline of a search that starts at a moment. -/
def Config.DeadlineFits (config : Config) (now : Instant) : Prop :=
  ∀ limit, config.timeLimit = some limit → now.nanos + limit.toNanos < Instant.limit

theorem Instant.isSome_after? (now : Instant) (d : Duration) :
    (now.after? d).isSome ↔ now.nanos + d.toNanos < Instant.limit := by
  rw [after?]
  split <;> simp [*]

/-- Whether an event takes a run from its caller. -/
def RunEvent.leaves : RunEvent → Bool
  | .prepared (.panicked _ _) | .dropped _ => true
  | .prepared (.ready _) | .prepared (.noDirectory _) | .prepared (.refused _ _) | .crew _
  | .joined _ | .interrupted | .raised | .finished _ | .drained | .elsewhere _ => false

namespace Run

variable {config : Config} {stat : String → Except IoError FileKind} {id : ExperimentId}
  {registry : Registry} {baseline : Option Outcome} {now : Instant} {time : Timestamp}
  {r₀ r r' : Run} {e : RunEvent} {es : List RunEvent} {i : Nat} {report : WorkerReport}

/-- No preparation panics and the caller does not drop the run. -/
def Stays (es : List RunEvent) : Prop := ∀ e ∈ es, e.leaves = false

/-- The run has panicked. -/
def Unwound (r : Run) : Prop :=
  ∃ p, r.stage = .draining (.unwound p) ∨ r.stage = .drained (.unwound p)

/-- The caller waits, or has got the report of a finalized experiment. -/
def Awaited (r : Run) : Prop :=
  r.stage = .searching ∨
    ∃ report, r.stage = .finished report ∧ report.status.state = .finalized

/-- The slots whose workers are still to be joined. -/
def unjoined (r : Run) : List Nat :=
  (List.range r.crew.members.length).filter fun i => decide (i ∉ r.joined)

theorem mem_unjoined : i ∈ r.unjoined ↔ i < r.crew.members.length ∧ i ∉ r.joined := by
  rw [unjoined, List.mem_filter, List.mem_range, decide_eq_true_iff]

/-- From where it stands, a run comes to its report: it has not panicked and no
count of its workers is about to overflow, the next slot can be prepared, and when
all workers have ended they can be joined in any order and the report made. -/
structure Returns (r : Run) : Prop where
  not_unwound : ¬ r.Unwound
  /-- A worker that goes on can count one more failure in a row. -/
  countable : ∀ w ∈ r.crew.members, w.hasEnded = false →
    w.consecutiveFailures.toNat + 1 < UInt32.size
  prepares : r.stage = .searching → r.allPrepared = false → ∀ p, (r.step (.prepared p)).isSome
  finishes : r.stage = .searching → r.allPrepared = true →
    (∀ w ∈ r.crew.members, w.hasEnded = true) → ∀ slots : List Nat, slots.Perm r.unjoined →
      ∀ moment, ∃ r' report,
        r.steps (slots.map RunEvent.joined ++ [.finished moment]) = some r' ∧
          r'.report? = some report ∧ report.status.state = .finalized
  /-- A run of which no report is awaited any more has made it. -/
  reports : r.stage ≠ .searching →
    ∃ report, r.report? = some report ∧ report.status.state = .finalized

/-! ## Waiting -/

theorem Moves.awaited (moves : r.Moves e r') (awaited : r.Awaited) (stays : e.leaves = false) :
    r'.Awaited := by
  cases moves with
  | launched stage | unplaced stage | refused stage | interrupted stage => exact .inl stage
  | crew | joined | raised | elsewhere => exact awaited
  | finished => exact .inr ⟨_, rfl, rfl⟩
  | unwound | dropped | abandoned => cases stays
  | drained stage =>
      rcases awaited with searching | ⟨report, finished, _⟩
      · rw [stage] at searching
        cases searching
      · rw [stage] at finished
        cases finished

theorem awaited_of_steps (awaited : r₀.Awaited) (stays : Stays es)
    (reached : r₀.steps es = some r) : r.Awaited := by
  refine steps_induction (motive := fun es r => Stays es → r.Awaited) (fun _ => awaited)
    (fun {es e r r'} _ ih moves stays => ?_) reached stays
  have before : r.Awaited := ih fun f member => stays f (List.mem_append_left _ member)
  exact moves.awaited before (stays e (List.mem_append_right _ (List.mem_singleton.mpr rfl)))

/-! ## Joining the rest -/

/-- An ended worker that has not been joined can be joined. -/
theorem step_joined (joins : r.joins = true) (unjoined : i ∉ r.joined)
    (reported : r.slotReport? i = some report) :
    r.step (.joined i) =
      some { r with joined := r.joined ++ [i], reports := r.reports ++ [report] } := by
  obtain ⟨w, here, ended⟩ := Option.bind_eq_some_iff.mp reported
  simp only [step, join, joins, unjoined, not_false_eq_true, and_self, if_true, here, ended,
    Option.bind_eq_bind, Option.bind_some, Option.pure_def]

/-- Ended workers can be joined in any order. -/
theorem steps_joined {slots : List Nat} (different : slots.Nodup) (joins : r.joins = true)
    (unjoined : ∀ i ∈ slots, i ∉ r.joined)
    (ended : ∀ i ∈ slots, ∃ report, r.slotReport? i = some report) :
    ∃ reports, r.steps (slots.map RunEvent.joined) =
      some { r with joined := r.joined ++ slots, reports := reports } := by
  induction slots generalizing r with
  | nil => exact ⟨r.reports, by rw [List.append_nil]; rfl⟩
  | cons i slots ih =>
      obtain ⟨once, rest⟩ := List.nodup_cons.mp different
      obtain ⟨report, reported⟩ := ended i List.mem_cons_self
      have stepped := step_joined joins (unjoined i List.mem_cons_self) reported
      obtain ⟨reports, joined⟩ :
          ∃ reports, steps { r with joined := r.joined ++ [i], reports := r.reports ++ [report] }
              (slots.map RunEvent.joined) =
            some { r with joined := r.joined ++ [i] ++ slots, reports := reports } := by
        refine ih rest joins (fun j member old => ?_)
          fun j member => ended j (List.mem_cons_of_mem i member)
        rcases List.mem_append.mp old with before | last
        · exact unjoined j (List.mem_cons_of_mem i member) before
        · exact once (List.mem_singleton.mp last ▸ member)
      refine ⟨reports, ?_⟩
      rw [List.map_cons, steps, stepped, Option.bind_some, joined, List.append_assoc]
      rfl

/-- When all workers have ended, the rest of them can be joined in any order. -/
theorem exists_allJoined (joins : r.joins = true)
    (ended : ∀ w ∈ r.crew.members, w.hasEnded = true) {slots : List Nat}
    (rest : slots.Perm r.unjoined) :
    ∃ last : Run, r.steps (slots.map RunEvent.joined) = some last ∧ last.allJoined = true ∧
      last.stage = r.stage ∧ last.allPrepared = r.allPrepared := by
  have reported : ∀ i ∈ slots, ∃ report, r.slotReport? i = some report := fun i member =>
    exists_slotReport ended (mem_unjoined.mp (rest.mem_iff.mp member)).1
  obtain ⟨reports, joined⟩ := steps_joined (rest.nodup_iff.mpr (List.nodup_range.filter _)) joins
    (fun i member => (mem_unjoined.mp (rest.mem_iff.mp member)).2) reported
  refine ⟨_, joined, List.all_eq_true.mpr fun i inside => ?_, rfl, rfl⟩
  rw [List.contains_iff_mem, List.mem_append]
  by_cases old : i ∈ r.joined
  · exact .inl old
  · exact .inr (rest.mem_iff.mpr (mem_unjoined.mpr ⟨List.mem_range.mp inside, old⟩))

/-- When all workers have ended, they can be joined in any order, and the report
can be made. -/
theorem exists_report (stage : r.stage = .searching) (prepared : r.allPrepared = true)
    (ended : ∀ w ∈ r.crew.members, w.hasEnded = true) {slots : List Nat}
    (rest : slots.Perm r.unjoined) (moment : Timestamp) :
    ∃ r' report, r.steps (slots.map RunEvent.joined ++ [.finished moment]) = some r' ∧
      r'.report? = some report ∧ report.status.state = .finalized := by
  have joins : r.joins = true := by rw [Run.joins, stage]; exact prepared
  obtain ⟨last, joined, all, waits, filled⟩ := exists_allJoined joins ended rest
  have finished : last.step (.finished moment) = some (last.reported moment) :=
    if_pos ⟨waits.trans stage, filled.trans prepared, all⟩
  refine ⟨last.reported moment, last.reportAt moment, ?_, rfl, rfl⟩
  rw [steps_concat, joined, Option.bind_some, finished]

/-- When all workers of a run that was left are joined, its detached task can end. -/
theorem step_drained {d : Departure} (stage : r.stage = .draining d) (all : r.allJoined = true) :
    r.step .drained = some { r.withoutEntry with stage := .drained d } := by
  simp only [step, drain, stage, all, if_true]

/-- When all workers of a run that was left have ended, they can be joined in any order, and
its detached task can end. -/
theorem exists_drained {d : Departure} (stage : r.stage = .draining d)
    (ended : ∀ w ∈ r.crew.members, w.hasEnded = true) {slots : List Nat}
    (rest : slots.Perm r.unjoined) :
    ∃ r', r.steps (slots.map RunEvent.joined ++ [.drained]) = some r' ∧
      r'.stage = .drained d := by
  have joins : r.joins = true := by rw [Run.joins, stage]
  obtain ⟨last, joined, all, drains, _⟩ := exists_allJoined joins ended rest
  refine ⟨{ last.withoutEntry with stage := .drained d }, ?_, rfl⟩
  rw [steps_concat, joined, Option.bind_some, step_drained (drains.trans stage) all]

/-! ## Going on -/

/-- A run that its caller waits for goes on to its report. -/
theorem returns_of_awaited (course : Course r₀ es r) (awaited : r.Awaited) : r.Returns where
  not_unwound := by
    rintro ⟨p, gone | gone⟩ <;> rcases awaited with stage | ⟨report, stage, _⟩ <;>
      · rw [stage] at gone
        cases gone
  countable := fun w member goesOn => by
    obtain ⟨i, here⟩ := List.mem_iff_getElem?.mp member
    have known := course.slots i
    rw [here] at known
    cases known with
    | manned prepared began serves =>
        exact (Nat.succ_le_of_lt (serves.seen.row_lt goesOn)).trans_lt
          w.maxConsecutiveFailures.toNat_lt
  prepares := fun stage more p => by
    simp only [step, prepare, stage, more, and_self, if_true, Option.isSome_some]
  finishes := fun stage prepared ended _ rest moment =>
    exists_report stage prepared ended rest moment
  reports := fun left => by
    rcases awaited with stage | ⟨report, stage, finalized⟩
    · exact absurd stage left
    · exact ⟨report, by rw [report?, stage], finalized⟩

/-! ## The deadline -/

theorem stage_opened (config : Config) (id : ExperimentId) (registry : Registry)
    (baseline : Option Outcome) (now : Instant) (time : Timestamp) :
    (config.DeadlineFits now ∧
      (opened config id registry baseline now time).stage = .searching) ∨
    (¬ config.DeadlineFits now ∧
      (opened config id registry baseline now time).stage = .draining (.unwound deadlinePanic)) := by
  -- The clock stays closed: its end is too large a number for the kernel to count to.
  obtain ⟨after?, clock, answers⟩ : ∃ after? : Duration → Option Instant, now.after? = after? ∧
      ∀ limit, (after? limit).isSome ↔ now.nanos + limit.toNanos < Instant.limit :=
    ⟨_, rfl, now.isSome_after?⟩
  unfold opened
  rw [clock]
  cases limited : config.timeLimit with
  | none =>
      refine .inl ⟨fun limit found => ?_, rfl⟩
      rw [limited] at found
      cases found
  | some limit =>
      have same : config.DeadlineFits now ↔ (after? limit).isSome := by
        rw [answers, Config.DeadlineFits, limited]
        exact ⟨fun all => all limit rfl, fun fits _ found => Option.some.inj found ▸ fits⟩
      dsimp only
      rw [same]
      cases after? limit with
      | some deadline => exact .inl ⟨rfl, rfl⟩
      | none => exact .inr ⟨Bool.false_ne_true, rfl⟩

/-- A run starts in wait for its workers, or it unwinds because the clock cannot
represent its deadline. -/
theorem stage_of_start (started : start config stat id registry baseline now time = .ok r₀) :
    (config.DeadlineFits now ∧ r₀.stage = .searching) ∨
    (¬ config.DeadlineFits now ∧ r₀.stage = .draining (.unwound deadlinePanic)) := by
  rw [start] at started
  split at started
  · cases started
  · rw [← Except.ok.inj started]
    exact stage_opened config id registry baseline now time

/-- A run that has unwound has no way back to its caller. -/
theorem Moves.unwound_kept (moves : r.Moves e r') (unwound : r.Unwound) : r'.Unwound := by
  obtain ⟨p, draining | drained⟩ := unwound
  · cases moves with
    | crew | joined | raised | elsewhere => exact ⟨p, .inl draining⟩
    | drained stage =>
        rw [draining] at stage
        cases stage
        exact ⟨p, .inr rfl⟩
    | launched stage | unplaced stage | refused stage | unwound stage | interrupted stage
    | finished _ stage | dropped stage | abandoned stage =>
        rw [draining] at stage
        cases stage
  · cases moves with
    | crew | joined | raised | elsewhere => exact ⟨p, .inr drained⟩
    | launched stage | unplaced stage | refused stage | unwound stage | interrupted stage
    | finished _ stage | dropped stage | abandoned stage | drained stage =>
        rw [drained] at stage
        cases stage

theorem unwound_of_steps (unwound : r₀.Unwound) (reached : r₀.steps es = some r) : r.Unwound :=
  steps_induction (motive := fun _ r => r.Unwound) unwound
    (fun _ before moves => moves.unwound_kept before) reached

/-- **A run returns unless the clock cannot represent its deadline.** A valid
configuration starts a run. If its deadline fits, then wherever the run stands
after events in which no preparation panics and the caller stays, it comes to its
report. Otherwise it has unwound from the start and never reports. -/
theorem returns_unless_deadline_overflows (valid : config.validate stat = .ok ()) :
    ∃ r₀, start config stat id registry baseline now time = .ok r₀ ∧
      (config.DeadlineFits now → ∀ es r, Stays es → r₀.steps es = some r → r.Returns) ∧
      (¬ config.DeadlineFits now → ∀ es r, r₀.steps es = some r → r.Unwound) := by
  obtain ⟨r₀, started⟩ : ∃ r₀, start config stat id registry baseline now time = .ok r₀ :=
    ⟨_, by rw [start, valid]⟩
  refine ⟨r₀, started, ?_⟩
  rcases stage_of_start started with ⟨fits, stage⟩ | ⟨late, stage⟩
  · refine ⟨fun _ es r stays reached => ?_, fun late => absurd fits late⟩
    have course := course_of_steps (starts_of_start started).unmanned reached
    exact returns_of_awaited course (awaited_of_steps (.inl stage) stays reached)
  · refine ⟨fun fits => absurd fits late, fun _ es r reached => ?_⟩
    exact unwound_of_steps ⟨deadlinePanic, .inl stage⟩ reached

namespace Sample

/-- Two workers that may search for some seconds. -/
def limited (seconds : UInt64) : Config :=
  { settings with timeLimit := some (Duration.ofSeconds seconds) }

end Sample

theorem returns_with_hour_limit :
    (Sample.limited 3600).validate (fun _ => .ok .directory) = .ok () ∧
      ∃ r₀ r, start (Sample.limited 3600) (fun _ => .ok .directory) (Sample.experiment 7)
          Registry.new none ⟨0⟩ ⟨0, 0⟩ = .ok r₀ ∧
        r₀.steps Sample.events = some r ∧ r.Returns := by
  have valid : (Sample.limited 3600).validate (fun _ => .ok .directory) = .ok () := by decide
  have fits : (Sample.limited 3600).DeadlineFits ⟨0⟩ := by
    rintro limit ⟨⟩
    decide +kernel
  have stays : Stays Sample.events := by
    unfold Stays
    decide +kernel
  obtain ⟨r₀, started, returns, _⟩ := @returns_unless_deadline_overflows (Sample.limited 3600)
    (fun _ => .ok .directory) (Sample.experiment 7) Registry.new none ⟨0⟩ ⟨0, 0⟩ valid
  have goesOn : ((start (Sample.limited 3600) (fun _ => .ok .directory) (Sample.experiment 7)
      Registry.new none ⟨0⟩ ⟨0, 0⟩).toOption.bind fun r => r.steps Sample.events).isSome := by
    decide +kernel
  rw [started, Except.toOption, Option.bind_some] at goesOn
  obtain ⟨r, reached⟩ := Option.isSome_iff_exists.mp goesOn
  exact ⟨valid, r₀, r, started, reached, returns fits Sample.events r stays reached⟩

/-- The longest time limit passes every check, and the run panics before it has
prepared a slot. -/
theorem longest_time_limit_unwinds :
    (Sample.limited 18446744073709551615).validate (fun _ => .ok .directory) = .ok () ∧
      ∃ r₀, start (Sample.limited 18446744073709551615) (fun _ => .ok .directory)
          (Sample.experiment 7) Registry.new none ⟨0⟩ ⟨0, 0⟩ = .ok r₀ ∧
        r₀.stage = .draining (.unwound deadlinePanic) ∧ r₀.crew.members = [] ∧
        ∀ es r, r₀.steps es = some r → r.report? = none := by
  have valid : (Sample.limited 18446744073709551615).validate (fun _ => .ok .directory) =
      .ok () := by decide
  have late : ¬ (Sample.limited 18446744073709551615).DeadlineFits ⟨0⟩ := fun fits =>
    absurd (fits _ rfl) (by decide +kernel)
  obtain ⟨r₀, started⟩ : ∃ r₀, start (Sample.limited 18446744073709551615)
      (fun _ => .ok .directory) (Sample.experiment 7) Registry.new none ⟨0⟩ ⟨0, 0⟩ = .ok r₀ :=
    ⟨_, by rw [start, valid]⟩
  rcases stage_of_start started with ⟨fits, _⟩ | ⟨_, stage⟩
  · exact absurd fits late
  · refine ⟨valid, r₀, started, stage, (starts_of_start started).unmanned, fun es r reached => ?_⟩
    obtain ⟨p, gone | gone⟩ := unwound_of_steps ⟨deadlinePanic, .inl stage⟩ reached <;>
      rw [report?, gone]

end Run
end RankedSearch
