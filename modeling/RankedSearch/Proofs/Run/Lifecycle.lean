import RankedSearch.Proofs.Experiment.Lifecycle
import RankedSearch.Proofs.Run.Report

/-!
# The stages of a run

The operations on a status keep no order, so whoever marks a status has to. A run does: its
start is marked when it is opened, an interruption only while the caller waits, and the
collecting of the workers and the end together with the report, after which no move marks
anything. What the status tells of its end is therefore whether the run has reported
(`Marked`), and each move continues the life of the experiment (`Marked.move`).
-/

set_option autoImplicit false

namespace RankedSearch

theorem ExperimentStatus.Continues.refl (s : ExperimentStatus) : s.Continues s where
  forward := Nat.le_refl _
  terminal := fun _ => ⟨rfl, rfl, rfl, rfl, rfl⟩

/-- Before the end every later stage is in order. -/
theorem ExperimentStatus.Continues.of_running {s t : ExperimentStatus}
    (running : s.state = .running) (later : s.state.place ≤ t.state.place) : s.Continues t where
  forward := later
  terminal := fun ended => by rw [running] at ended; cases ended

namespace Run

variable {config : Config} {stat : String → Except IoError FileKind} {id : ExperimentId}
  {registry : Registry} {baseline : Option Outcome} {now : Instant} {time : Timestamp}
  {r₀ r r' : Run} {e : RunEvent} {es : List RunEvent}

/-- The status of a run tells an end exactly if the run has reported, and then the report
has this status. -/
def Marked (r : Run) : Prop :=
  match r.stage with
  | .finished report =>
    r.status.state = .finalized ∧ r.status.finishedAt.isSome = true ∧ report.status = r.status
  | .searching | .abandoned | .draining _ | .drained _ =>
    r.status.state = .running ∧ r.status.finishedAt = none

theorem marked_iff_of_searching (stage : r.stage = .searching) :
    r.Marked ↔ r.status.state = .running ∧ r.status.finishedAt = none := by
  rw [Marked, stage]

theorem Starts.marked (starts : Starts config id registry baseline time r₀) : r₀.Marked := by
  rw [Marked, starts.status]
  rcases starts.tended with stage | ⟨d, stage⟩
  · rw [stage]
    exact ⟨rfl, rfl⟩
  · rw [stage]
    exact ⟨rfl, rfl⟩

/-- A move keeps the end marked or unmarked, or reports and marks it. -/
theorem Marked.move (marked : r.Marked) (moves : r.Moves e r') :
    r'.Marked ∧ r.status.Continues r'.status := by
  cases moves with
  | launched stage | unplaced stage | refused stage | interrupted stage =>
      have still := (marked_iff_of_searching stage).mp marked
      exact ⟨Iff.mpr (marked_iff_of_searching stage) still, .of_running still.1 (Nat.le_refl _)⟩
  | unwound stage | dropped stage | abandoned stage =>
      exact ⟨(marked_iff_of_searching stage).mp marked, .refl _⟩
  | crew | joined | raised | elsewhere => exact ⟨marked, .refl _⟩
  | finished now stage =>
      have still := (marked_iff_of_searching stage).mp marked
      exact ⟨⟨rfl, rfl, rfl⟩, .of_running still.1 (ExperimentState.place_le_finalized _)⟩
  | drained stage =>
      rw [Marked, stage] at marked
      exact ⟨marked, .refl _⟩

theorem marked_of_steps (marked : r₀.Marked) (reached : r₀.steps es = some r) : r.Marked :=
  steps_induction (motive := fun _ r => r.Marked) marked
    (fun _ marked moves => (marked.move moves).1) reached

/-- **A run follows the order of the stages.** Whatever happens to it, its experiment has
ended exactly if it has reported, and then its end is set. Every event leaves the experiment
in its stage or leads to a later one, and changes nothing of one that has ended. -/
theorem run_follows_lifecycle
    (started : start config stat id registry baseline now time = .ok r₀)
    (reached : r₀.steps es = some r) :
    (r.status.isFinalized = true ↔ ∃ report, r.report? = some report) ∧
    (r.status.isFinalized = true ↔ r.status.finishedAt.isSome = true) ∧
    (∀ report, r.report? = some report → report.status = r.status) ∧
    ∀ e r', r.step e = some r' → r.status.Continues r'.status := by
  have marked := marked_of_steps (starts_of_start started).marked reached
  have continues : ∀ e r', r.step e = some r' → r.status.Continues r'.status :=
    fun e r' stepped => (marked.move (moves_of_step stepped)).2
  rw [Marked] at marked
  cases stage : r.stage with
  | finished report =>
      rw [stage] at marked
      obtain ⟨state, finished, same⟩ := marked
      have ended : r.status.isFinalized = true := by rw [ExperimentStatus.isFinalized, state]; rfl
      have reports : r.report? = some report := by rw [report?, stage]
      refine ⟨iff_of_true ended ⟨report, reports⟩, iff_of_true ended finished, ?_, continues⟩
      rw [reports]
      rintro _ ⟨⟩
      exact same
  | searching | abandoned | draining d | drained d =>
      rw [stage] at marked
      obtain ⟨running, unfinished⟩ := marked
      have unended : ¬ r.status.isFinalized = true := by
        rw [ExperimentStatus.isFinalized, running]
        decide
      have silent : r.report? = none := by rw [report?, stage]
      refine ⟨iff_of_false unended ?_, iff_of_false unended ?_, ?_, continues⟩
      · simp [silent]
      · simp [unfinished]
      · simp [silent]

end Run
end RankedSearch
