import RankedSearch.Proofs.Run.Collecting

/-!
# What a finished run reports

A run starts without workers and with at most the baseline collected
(`Run.Starts`). When it finishes, all its workers have ended, so every outcome
that a worker was handed has been added, and the reported history is the one in
which all of them were collected; a run that retains nothing reports the history
that stands for no result instead (`History.orSentinel`).

Together with what a history retains of its past this gives the contents of the
report: the front of the ranking of the baseline and of everything the workers
were handed, in the order of adding.
-/

set_option autoImplicit false

namespace RankedSearch

/-! ## The reported history -/

theorem Registry.Collects.history_reported {r : Registry} {id : ExperimentId} {capacity : Nat}
    {os : List Outcome} (collects : r.Collects id capacity os) :
    (Run.reportedHistory (r.poll id).2 (r.poll id).1).2.history
        (Run.reportedHistory (r.poll id).2 (r.poll id).1).1 =
      ((History.new id capacity).addAll os).orSentinel := by
  cases collects with
  | absent missing nothing =>
      rw [nothing, poll, missing]
      exact history_allocate_self _ History.sentinel
  | @present h live held contents =>
      have polled : (r.poll id).1 = some h := live
      rw [polled, Run.reportedHistory, history_poll, contents, History.orSentinel]
      split
      · exact history_allocate_self _ History.sentinel
      · exact contents

namespace Run

variable {config : Config} {stat : String → Except IoError FileKind} {id : ExperimentId}
  {registry : Registry} {baseline : Option Outcome} {now : Instant} {time : Timestamp}
  {r₀ r r' : Run} {es : List RunEvent} {os : List Outcome}

/-! ## The start -/

/-- A run as it starts, in the registry of its callers and with its baseline. -/
structure Starts (config : Config) (id : ExperimentId) (registry : Registry)
    (baseline : Option Outcome) (time : Timestamp) (r₀ : Run) : Prop where
  positive : 1 ≤ config.historyCapacity.toNat
  settings : r₀.config = config
  status : r₀.status = (ExperimentStatus.new id).markRunning time
  ranked : r₀.crew.registry = rankBaseline config id registry baseline
  unmanned : r₀.crew.members = []
  unjoined : r₀.joined = []
  unreported : r₀.reports = []
  tended : r₀.Tended
  /-- Without a time limit there is no deadline, and nobody is asked to stop. -/
  endless : config.timeLimit = none →
    r₀.stage = .searching ∧ r₀.deadline = none ∧ r₀.crew.flagged = false

theorem historyCapacity_pos_of_validate (valid : config.validate stat = .ok ()) :
    1 ≤ config.historyCapacity.toNat := by
  simp only [Config.validate] at valid
  split at valid
  · cases valid
  · split at valid
    · cases valid
    · rename_i nonzero
      refine Nat.one_le_iff_ne_zero.mpr fun zero => nonzero (UInt64.toNat_inj.mp ?_)
      rw [zero, UInt64.toNat_zero]

theorem starts_opened (positive : 1 ≤ config.historyCapacity.toNat) :
    Starts config id registry baseline time (opened config id registry baseline now time) := by
  -- The clock stays closed: its end is too large a number for the kernel to count to.
  obtain ⟨after?, clock⟩ : ∃ after?, now.after? = after? := ⟨_, rfl⟩
  unfold opened
  rw [clock]
  cases limited : config.timeLimit with
  | none => exact ⟨positive, rfl, rfl, rfl, rfl, rfl, rfl, .inl rfl, fun _ => ⟨rfl, rfl, rfl⟩⟩
  | some limit =>
      dsimp only
      cases after? limit with
      | some deadline =>
          refine ⟨positive, rfl, rfl, rfl, rfl, rfl, rfl, .inl rfl, fun unlimited => ?_⟩
          rw [limited] at unlimited
          cases unlimited
      | none =>
          refine ⟨positive, rfl, rfl, rfl, rfl, rfl, rfl, .inr ⟨_, rfl⟩, fun unlimited => ?_⟩
          rw [limited] at unlimited
          cases unlimited

theorem starts_of_start
    (started : start config stat id registry baseline now time = .ok r₀) :
    Starts config id registry baseline time r₀ := by
  simp only [start] at started
  split at started
  · cases started
  · rename_i valid
    cases started
    exact starts_opened (historyCapacity_pos_of_validate valid)

namespace Starts

theorem id_eq (starts : Starts config id registry baseline time r₀) : r₀.id = id := by
  rw [Run.id, starts.status]
  rfl

theorem joined (starts : Starts config id registry baseline time r₀) : r₀.Joined where
  nodup := starts.unjoined ▸ List.nodup_nil
  reports := by rw [starts.unjoined, starts.unreported]; rfl

/-- A run of a fresh experiment starts with its baseline collected, and nothing else. -/
theorem collects (starts : Starts config id registry baseline time r₀)
    (fresh : registry.get? id = none) : r₀.Collects baseline.toList where
  entry := by
    rw [starts.id_eq, starts.settings, starts.ranked]
    have empty : registry.Collects id config.historyCapacity.toNat [] := .absent fresh rfl
    cases baseline with
    | none => exact empty
    | some b => exact empty.obtainWith.add (Registry.get?_obtainWith_self _ _ _) b
  found := by
    rw [starts.unmanned]
    intro w member
    cases member

end Starts

/-! ## The end -/

/-- The history that a report made now would hold is the one that was collected. -/
theorem Collects.history_closing (collects : r.Collects os) :
    r.closing.2.history r.closing.1 =
      ((History.new r.id r.config.historyCapacity.toNat).addAll os).orSentinel :=
  collects.entry.history_reported

/-- When all workers have ended, each has added the outcomes that it was handed. -/
theorem Course.additionsBy_eq (course : Course r₀ es r)
    (ended : ∀ w ∈ r.crew.members, w.hasEnded = true) (i : Nat) :
    additionsBy i (r₀.additions es) = outcomesOf (resultsOf i es) := by
  have known := course.slots i
  cases here : r.crew.members[i]? with
  | none =>
      rw [here] at known
      cases known with
      | vacant results additions => rw [results, additions, outcomesOf_nil]
  | some w =>
      rw [here] at known
      cases known with
      | manned prepared began serves =>
          exact serves.added_eq (ended w (List.mem_of_getElem? here))

/-- The history in which a run of an experiment collects outcomes. -/
def collected (id : ExperimentId) (config : Config) (os : List Outcome) : History :=
  (History.new id config.historyCapacity.toNat).addAll os

theorem retains_collected (id : ExperimentId) (config : Config) (os : List Outcome) :
    (collected id config os).Retains os := History.retains_addAll (some id) _ os

theorem capacity_collected (id : ExperimentId) (config : Config) (os : List Outcome) :
    (collected id config os).capacity = max config.historyCapacity.toNat 1 :=
  History.capacity_addAll _ os

/-- When all slots are prepared, the crew fills them. -/
theorem Starts.length_members (starts : Starts config id registry baseline time r₀)
    (reached : r₀.steps es = some r) (prepared : r.allPrepared = true) :
    r.crew.members.length = config.slotCount := by
  have course := course_of_steps starts.unmanned reached
  have atMost : r.crew.members.length ≤ r.config.slotCount := by
    apply steps_induction (motive := fun _ r => r.crew.members.length ≤ r.config.slotCount) ?_ ?_
      reached
    · rw [starts.unmanned]
      exact Nat.zero_le _
    · intro es e q q' _ fits moves
      exact moves.length_le fits
  rw [← starts.settings, ← course.config]
  exact Nat.le_antisymm atMost (of_decide_eq_true prepared)

/-- A run that reports has joined workers that have ended, and it reports them all. -/
theorem Starts.finish_workers (starts : Starts config id registry baseline time r₀)
    (reached : r₀.steps es = some r) {moment : Timestamp}
    (finished : r.step (.finished moment) = some r') :
    (∀ w ∈ r.crew.members, w.hasEnded = true) ∧
      r'.report? = some (r.reportAt moment) ∧
      (r.reportAt moment).workers = r.crew.reports := by
  have course := course_of_steps starts.unmanned reached
  have joined := joined_of_steps starts.joined reached
  cases moves_of_step finished with
  | finished _ stage _ all =>
      exact ⟨joined.all_ended all, rfl, course.sortByIndex_reports joined all⟩

/-- What is known of a run of a fresh experiment that reports. -/
theorem Starts.finish (starts : Starts config id registry baseline time r₀)
    (fresh : registry.get? id = none) (reached : r₀.steps es = some r) {moment : Timestamp}
    (finished : r.step (.finished moment) = some r') :
    (∀ w ∈ r.crew.members, w.hasEnded = true) ∧
      r'.report? = some (r.reportAt moment) ∧
      (r.reportAt moment).workers = r.crew.reports ∧
      r'.reported? = some
        (collected id config (baseline.toList ++ (r₀.additions es).map Prod.snd)).orSentinel := by
  obtain ⟨ended, report, workers⟩ := starts.finish_workers reached finished
  have course := course_of_steps starts.unmanned reached
  cases moves_of_step finished with
  | finished _ stage _ _ =>
      have collects := collects_of_steps starts.unmanned (starts.collects fresh) reached
        (.inl stage)
      have contents := collects.history_closing
      rw [course.id, course.config, starts.id_eq, starts.settings] at contents
      exact ⟨ended, report, workers, congrArg some contents⟩

/-- **A finished run reports the front of the ranking of all that was added.**
Each worker's outcomes have been added in its own order, each once, and the
reported history holds the first of the stable sort of the baseline and all added
outcomes by score, as the entries that they made on arrival; it counts the others
as evicted. A complete baseline comes before every outcome of the same score. -/
theorem finished_reports_front_of_ranking
    (started : start config stat id registry baseline now time = .ok r₀)
    (fresh : registry.get? id = none) (reached : r₀.steps es = some r) {moment : Timestamp}
    (finished : r.step (.finished moment) = some r') :
    let added := baseline.toList ++ (r₀.additions es).map Prod.snd
    let front := (ranking (arrived added)).take config.historyCapacity.toNat
    (∀ i, additionsBy i (r₀.additions es) = outcomesOf (resultsOf i es)) ∧
      ∃ h, r'.reported? = some h ∧
        h.entries = front ∧
        h.all = front.map Entry.outcome ∧
        h.evicted = added.countP Outcome.isComplete - config.historyCapacity.toNat ∧
        ∀ b s, baseline = some b → b.score = some s → ∀ e ∈ h.entries, e.score = s →
          e = ⟨s, 0, b⟩ ∨ [⟨s, 0, b⟩, e].Sublist h.entries := by
  intro added front
  have starts := starts_of_start started
  have course := course_of_steps starts.unmanned reached
  obtain ⟨ended, _, _, contents⟩ := starts.finish fresh reached finished
  have retains := retains_collected id config added
  have bound : (collected id config added).capacity = config.historyCapacity.toNat :=
    (capacity_collected id config added).trans (max_eq_left starts.positive)
  have entries : (collected id config added).orSentinel.entries = front := by
    rw [History.entries_orSentinel, retains.entries, bound]
  refine ⟨course.additionsBy_eq ended, _, contents, entries,
    congrArg (List.map Entry.outcome) entries, ?_, ?_⟩
  · rw [retains.evicted_orSentinel, retains.evicted, bound]
  · rintro b s rfl complete e member tie
    rw [entries] at member ⊢
    exact first_arrival_wins_ties complete member tie

/-- That a run can report after some events is computed. -/
theorem exists_finish {moment : Timestamp}
    (can : ((r₀.steps es).bind fun r => r.step (.finished moment)).isSome) :
    ∃ r r', r₀.steps es = some r ∧ r.step (.finished moment) = some r' := by
  obtain ⟨r', finishes⟩ := Option.isSome_iff_exists.mp can
  obtain ⟨r, reached, finished⟩ := Option.bind_eq_some_iff.mp finishes
  exact ⟨r, r', reached, finished⟩

/-- What is computed of the report that a run makes is seen in the report. -/
theorem exists_seen_report {α : Type} {see : SearchReport → α} {seen : α} {moment : Timestamp}
    (made : (((r₀.steps es).bind fun r => r.step (.finished moment)).bind fun r =>
      r.report?.map see) = some seen) :
    ∃ r r' report, r₀.steps es = some r ∧ r.step (.finished moment) = some r' ∧
      r'.report? = some report ∧ see report = seen := by
  obtain ⟨r', finishes, shown⟩ := Option.bind_eq_some_iff.mp made
  obtain ⟨r, reached, finished⟩ := Option.bind_eq_some_iff.mp finishes
  obtain ⟨report, reports, same⟩ := Option.map_eq_some_iff.mp shown
  exact ⟨r, r', report, reached, finished, reports, same⟩

/-! ### Two workers that tie with the baseline -/

namespace Sample

/-- The identifier that repeats one digit. -/
def experiment (digit : Fin 16) : ExperimentId := ⟨List.replicate 32 digit, List.length_replicate⟩

/-- Two workers and a history of two outcomes. -/
def settings : Config := { Config.default with parallelRuns := 2, historyCapacity := 2 }

def one : Score := ⟨⟨0x3FF0000000000000⟩, by decide, by decide⟩

def two : Score := ⟨⟨0x4000000000000000⟩, by decide, by decide⟩

def outcome (score : Score) (summary : String) : Outcome :=
  Outcome.ofScore ⟨0, 0⟩ (some score) summary

/-- The run at its start, in an empty registry and with a baseline of score two. -/
def run (digit : Fin 16) : Run :=
  opened settings (experiment digit) Registry.new (some (outcome two "baseline")) ⟨0⟩ ⟨0, 0⟩

/-- A worker calls its source and gets a result. -/
def call (i : Nat) (result : TrialResult) : List RunEvent :=
  [.crew (.flagSeen i), .crew (.clockSeen i), .crew (.answered i result)]

/-- A worker adds the outcome that it holds. -/
def hand (i : Nat) : List RunEvent := [.crew (.obtained i), .crew (.added i)]

/-- The workers return an outcome each, the second first, and have no more. -/
def events : List RunEvent :=
  [.prepared (.ready "a"), .prepared (.ready "b")] ++
    call 1 (.outcome (outcome two "late")) ++ call 0 (.outcome (outcome one "best")) ++
    hand 1 ++ hand 0 ++ call 0 .exhausted ++ call 1 .exhausted ++ [.joined 1, .joined 0]

end Sample

theorem finished_reports_baseline_before_tie :
    ∃ r r' h, (Sample.run 7).steps Sample.events = some r ∧
      r.step (.finished ⟨1, 0⟩) = some r' ∧ r'.reported? = some h ∧
      h.all = [Sample.outcome Sample.one "best", Sample.outcome Sample.two "baseline"] ∧
      h.evicted = 1 := by
  obtain ⟨r, r', reached, finished⟩ := exists_finish
    (show (((Sample.run 7).steps Sample.events).bind fun r => r.step (.finished ⟨1, 0⟩)).isSome by
      decide +kernel)
  obtain ⟨_, h, contents, entries, all, evicted, _⟩ :=
    @finished_reports_front_of_ranking Sample.settings (fun _ => .ok .directory)
      (Sample.experiment 7) Registry.new (some (Sample.outcome Sample.two "baseline")) ⟨0⟩ ⟨0, 0⟩
      (Sample.run 7) r r' Sample.events rfl rfl reached ⟨1, 0⟩ finished
  refine ⟨r, r', h, reached, finished, contents, ?_, ?_⟩
  · have known : (((Sample.run 7).steps Sample.events).bind fun r =>
        r.step (.finished ⟨1, 0⟩)).bind (fun r => r.reported?.map History.all) =
        some [Sample.outcome Sample.one "best", Sample.outcome Sample.two "baseline"] := by
      decide +kernel
    rw [reached, Option.bind_some, finished, Option.bind_some, contents] at known
    exact Option.some.inj known
  · rw [evicted]
    decide +kernel

end Run
end RankedSearch
