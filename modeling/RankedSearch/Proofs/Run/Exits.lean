import RankedSearch.Proofs.Run.Cancellation

/-!
# Why workers stopped

A worker that was cancelled has seen the flag, and one that timed out has a deadline
(`reasoned_of_steps`), since every move keeps this. The status of a run tells of an interruption
that the caller has asked for, and of nothing else (`Run.Noted`): a source that raises
the flag stops the workers all the same, and so does the factory that prepares the sources,
and the status says nothing.

So the exits in the report of a finished run and its status can be traced to what
happened (`stop_reasons_are_sound`). Whoever raises the flag, the run goes on joining
until every slot is reported.
-/

set_option autoImplicit false

namespace RankedSearch

/-! ## Exits of workers -/

/-- A report tells in which phase its worker has ended. -/
theorem Worker.phase_of_report? {w : Worker} {report : WorkerReport}
    (ended : w.report? = some report) :
    w.phase = .stopped report.exit ∨
      ∃ p, w.phase = .panicked p ∧ report.exit = .panicked p.message := by
  cases phase : w.phase with
  | stopped exit =>
      simp only [report?, phase] at ended
      cases ended
      exact .inl rfl
  | panicked p =>
      simp only [report?, phase] at ended
      cases ended
      exact .inr ⟨p, rfl, rfl⟩
  | head | unflagged | calling | holding | admitting =>
      simp only [report?, phase] at ended
      cases ended

theorem Worker.exit_of_phase {w : Worker} {report : WorkerReport} {exit : WorkerExit}
    (ended : w.report? = some report) (phase : w.phase = .stopped exit) : report.exit = exit := by
  simp only [report?, phase] at ended
  cases ended
  rfl

/-- What asks the workers of a run to stop while its caller stays. -/
theorem RunEvent.disturbs_of_raisesFlag {e : RunEvent} (raises : e.raisesFlag = true)
    (stays : e.leaves = false) : e.disturbs = true := by
  cases e with
  | interrupted | raised => rfl
  | prepared p =>
      cases p with
      | panicked => cases stays
      | ready | noDirectory | refused => cases raises
  | dropped => cases stays
  | crew e =>
      cases e with
      | flagRaised => rfl
      | flagSeen | clockSeen | answered | obtained | added | elapsed => cases raises
  | joined | finished | drained | elsewhere => cases raises

theorem RunEvent.disturbs_iff {e : RunEvent} :
    e.disturbs = true ↔ e = .interrupted ∨ (∃ j, e = .crew (.flagRaised j)) ∨ e = .raised := by
  cases e with
  | crew e => cases e <;> simp [disturbs]
  | prepared | joined | interrupted | raised | finished | dropped | drained | elsewhere =>
      simp [disturbs]

namespace Phase.WindsDown

variable {p q : Phase} {rs : List TrialResult} {os : List Outcome}

/-- How a worker that was asked to stop has ended: it had ended before, its clock or its
last call has ended it, or it was cancelled. -/
theorem of_isOver (winds : p.WindsDown rs os q) (isOver : q.IsOver) :
    p = q ∧ rs = [] ∨ q = .stopped .timedOut ∧ rs = [] ∨
      (∃ result, rs = [result] ∧ result.outcome? = none) ∨ q = .stopped .cancelled := by
  cases winds with
  | stays => exact .inl ⟨rfl, rfl⟩
  | timesOut => exact .inr (.inl ⟨rfl, rfl⟩)
  | ends _ nothing => exact .inr (.inr (.inl ⟨_, rfl, nothing⟩))
  | cancelled => exact .inr (.inr (.inr rfl))
  | holds _ held =>
      cases q with
      | stopped | panicked => cases held
      | head | unflagged | calling | holding | admitting => cases isOver
  | calls | fails | adds => cases isOver

end Phase.WindsDown

namespace Run

variable {config : Config} {stat : String → Except IoError FileKind} {id : ExperimentId}
  {registry : Registry} {baseline : Option Outcome} {now : Instant} {time : Timestamp}
  {r₀ r r' q : Run} {e : RunEvent} {es fs : List RunEvent} {i : Nat} {w : Worker}
  {report : WorkerReport}

theorem Moves.reasoned (moves : r.Moves e r') (reasoned : r.crew.Reasoned) : r'.crew.Reasoned := by
  have enlisted {v : Worker} (phase : v.phase ≠ .stopped .cancelled ∧ v.phase ≠ .stopped .timedOut) :
      Crew.Reasoned { r.crew with members := r.crew.members ++ [v] } := by
    constructor
    · intro u member stopped
      rcases List.mem_append.mp member with old | new
      · exact reasoned.cancelled u old stopped
      · rw [List.mem_singleton.mp new] at stopped
        exact absurd stopped phase.1
    · intro u member stopped
      rcases List.mem_append.mp member with old | new
      · exact reasoned.timedOut u old stopped
      · rw [List.mem_singleton.mp new] at stopped
        exact absurd stopped phase.2
  cases moves with
  | launched => exact enlisted ⟨Phase.noConfusion, Phase.noConfusion⟩
  | unplaced | refused => exact enlisted (by simp [Worker.unprepared])
  | crew moves => exact moves.reasoned reasoned
  | unwound | interrupted | raised | dropped | abandoned =>
      exact ⟨fun _ _ _ => rfl, reasoned.timedOut⟩
  | joined | finished | drained | elsewhere => exact ⟨reasoned.cancelled, reasoned.timedOut⟩

theorem reasoned_of_steps (unmanned : r₀.crew.members = []) (reached : r₀.steps es = some r) :
    r.crew.Reasoned := by
  apply steps_induction (motive := fun _ r => r.crew.Reasoned) ?_ ?_ reached
  · constructor <;>
    · intro w member
      rw [unmanned] at member
      cases member
  · intro es e q q' _ reasoned moves
    exact moves.reasoned reasoned

/-! ## What the status tells -/

/-- A run has noted the request of its caller to stop, which it takes at most once. -/
structure Noted (es : List RunEvent) (r : Run) : Prop where
  interrupted : r.interrupted = true ↔ .interrupted ∈ es
  cancelled : r.status.cancelled = r.interrupted
  once : es.count .interrupted ≤ 1

/-- Nothing but an interruption is noted. -/
theorem Moves.noted_same (moves : r.Moves e r') (other : e ≠ .interrupted) :
    r'.interrupted = r.interrupted ∧ r'.status.cancelled = r.status.cancelled := by
  cases moves with
  | interrupted => exact absurd rfl other
  | launched | unplaced | refused | unwound | crew | joined | raised | finished | dropped
  | abandoned | drained | elsewhere => exact ⟨rfl, rfl⟩

theorem Noted.move (noted : Noted es r) (moves : r.Moves e r') : Noted (es ++ [e]) r' := by
  by_cases interrupts : e = .interrupted
  · subst interrupts
    cases moves with
    | interrupted _ _ first =>
        have never : .interrupted ∉ es := by
          intro member
          rw [noted.interrupted.mpr member] at first
          cases first
        refine ⟨?_, rfl, ?_⟩
        · simp
        · simp [List.count_eq_zero_of_not_mem never]
  · obtain ⟨interrupted, cancelled⟩ := moves.noted_same interrupts
    refine ⟨?_, ?_, ?_⟩
    · rw [interrupted, noted.interrupted, List.mem_append, List.mem_singleton]
      simp [Ne.symm interrupts]
    · rw [interrupted, cancelled, noted.cancelled]
    · rw [List.count_append, List.count_singleton]
      simp [interrupts, noted.once]

theorem Starts.noted (starts : Starts config id registry baseline time r₀)
    (uninterrupted : r₀.interrupted = false) (reached : r₀.steps es = some r) : Noted es r := by
  apply steps_induction (motive := Noted) ?_ ?_ reached
  · refine ⟨?_, ?_, Nat.zero_le 1⟩
    · simp [uninterrupted]
    · rw [starts.status, uninterrupted]
      rfl
  · intro es e q q' _ noted moves
    exact noted.move moves

/-- Nobody has asked a run to stop when it starts, unless its deadline overflows. -/
theorem calm_of_start (started : start config stat id registry baseline now time = .ok r₀) :
    r₀.interrupted = false ∧ (r₀.stage = .searching → r₀.crew.flagged = false) := by
  have calm : (opened config id registry baseline now time).interrupted = false ∧
      ((opened config id registry baseline now time).stage = .searching →
        (opened config id registry baseline now time).crew.flagged = false) := by
    -- The clock stays closed: its end is too large a number for the kernel to count to.
    obtain ⟨after?, clock⟩ : ∃ after?, now.after? = after? := ⟨_, rfl⟩
    unfold opened
    rw [clock]
    cases config.timeLimit with
    | none => exact ⟨rfl, fun _ => rfl⟩
    | some limit =>
        dsimp only
        cases after? limit with
        | some deadline => exact ⟨rfl, fun _ => rfl⟩
        | none => exact ⟨rfl, fun stage => by cases stage⟩
  simp only [start] at started
  split at started
  · cases started
  · cases started
    exact calm

/-! ## While the caller waits -/

/-- A run whose caller waits was never left. -/
theorem stays_of_searching (later : r.steps fs = some q) (stage : q.stage = .searching) :
    r.stage = .searching ∧ Stays fs := by
  refine steps_induction
    (motive := fun fs q => q.stage = .searching → r.stage = .searching ∧ Stays fs) ?_ ?_ later stage
  · intro stage
    refine ⟨stage, ?_⟩
    intro e member
    cases member
  · intro fs e q q' _ before moves stage
    obtain ⟨searching, stays⟩ := before (moves.searching_before stage)
    refine ⟨searching, ?_⟩
    intro f member
    rcases List.mem_append.mp member with earlier | last
    · exact stays f earlier
    · rw [List.mem_singleton.mp last]
      cases moves with
      | launched | unplaced | refused | crew | joined | interrupted | raised | finished | drained
      | elsewhere => rfl
      | unwound | dropped | abandoned => cases stage

/-- Only an interruption, a source or the factory has asked the workers to stop. -/
theorem disturbed_of_flagged (unflagged : r₀.stage = .searching → r₀.crew.flagged = false)
    (reached : r₀.steps es = some r) (stage : r.stage = .searching)
    (flagged : r.crew.flagged = true) :
    .interrupted ∈ es ∨ (∃ j, .crew (.flagRaised j) ∈ es) ∨ .raised ∈ es := by
  obtain ⟨searching, stays⟩ := stays_of_searching reached stage
  rw [flagged_of_steps reached, unflagged searching, Bool.false_or, List.any_eq_true] at flagged
  obtain ⟨e, member, raises⟩ := flagged
  rcases RunEvent.disturbs_iff.mp (RunEvent.disturbs_of_raisesFlag raises (stays e member)) with
    rfl | ⟨j, rfl⟩ | rfl
  · exact .inl member
  · exact .inr (.inl ⟨j, member⟩)
  · exact .inr (.inr member)

/-- When every slot has been prepared, no slot is prepared any more. -/
theorem Moves.allPrepared_kept (moves : r.Moves e r') (prepared : r.allPrepared = true) :
    r'.allPrepared = true ∧ ∀ p, e ≠ .prepared p := by
  cases moves with
  | launched _ more | unplaced _ more | refused _ more | unwound _ more =>
      rw [prepared] at more
      cases more
  | crew moves =>
      refine ⟨?_, fun p => RunEvent.noConfusion⟩
      rw [allPrepared, moves.length_members]
      exact prepared
  | joined | interrupted | raised | finished | dropped | abandoned | drained | elsewhere =>
      exact ⟨prepared, fun p => RunEvent.noConfusion⟩

theorem allPrepared_of_steps (prepared : r.allPrepared = true) (later : r.steps fs = some q) :
    q.allPrepared = true := by
  apply steps_induction (motive := fun _ q => q.allPrepared = true) prepared ?_ later
  intro fs e q q' _ before moves
  exact (moves.allPrepared_kept before).1

/-- From then on, a slot that has become joined was joined by its own event. -/
theorem Moves.mem_joined (moves : r.Moves e r') (prepared : r.allPrepared = true)
    (member : i ∈ r'.joined) : i ∈ r.joined ∨ e = .joined i := by
  have unprepared := (moves.allPrepared_kept prepared).2
  cases moves with
  | launched | unplaced | refused | unwound => exact absurd rfl (unprepared _)
  | joined =>
      rcases List.mem_append.mp member with before | last
      · exact .inl before
      · exact .inr (congrArg _ (List.mem_singleton.mp last).symm)
  | crew | interrupted | raised | finished | dropped | abandoned | drained | elsewhere =>
      exact .inl member

theorem mem_joined_of_steps (prepared : r.allPrepared = true) (later : r.steps fs = some q)
    (member : i ∈ q.joined) : i ∈ r.joined ∨ .joined i ∈ fs := by
  refine steps_induction (motive := fun fs q => i ∈ q.joined → i ∈ r.joined ∨ .joined i ∈ fs)
    Or.inl ?_ later member
  intro fs e q q' reached before moves member
  rcases moves.mem_joined (allPrepared_of_steps prepared reached) member with earlier | rfl
  · exact (before earlier).imp_right (List.mem_append_left _)
  · exact .inr (by simp)

/-! ## After the flag was raised -/

/-- How a slot is reported in which the calls `rs` were completed after the workers of a
run were asked to stop. -/
inductive Heeds (r : Run) (i : Nat) (rs : List TrialResult) (report : WorkerReport) : Prop
  | before (reported : r.slotReport? i = some report) (uncalled : rs = [])
  | unprepared {reason : String} (vacant : r.crew.members[i]? = none)
      (exit : report.exit = .prepareFailed reason) (uncalled : rs = [])
  | cancelled (exit : report.exit = .cancelled) (once : rs.length ≤ 1)
  /-- It was about to look at the clock. -/
  | timedOut (exit : report.exit = .timedOut) (uncalled : rs = [])
  /-- The call in which it was asked to stop has ended it. -/
  | lastCall {result : TrialResult} (only : rs = [result]) (nothing : result.outcome? = none)

/-- Whoever was asked to stop and is reported has heeded it or ended otherwise. -/
theorem heeds_of_steps (flagged : r.crew.flagged = true) (later : r.steps fs = some q)
    (reported : q.slotReport? i = some report) : r.Heeds i (resultsOf i fs) report := by
  have winding := winding_of_steps flagged later i
  obtain ⟨w, here, ended⟩ := Option.bind_eq_some_iff.mp reported
  have isOver : w.phase.IsOver := by
    rcases Worker.phase_of_report? ended with phase | ⟨p, phase, _⟩
    · rw [phase]
      trivial
    · rw [phase]
      trivial
  rw [here] at winding
  cases winding with
  | manned stood winds =>
      have once := winds.length_le_one.1
      rcases winds.of_isOver isOver with
        ⟨rfl, uncalled⟩ | ⟨late, uncalled⟩ | ⟨result, only, nothing⟩ | cancelled
      · rcases stood with ⟨v, there, same⟩ | ⟨vacant, head | ⟨reason, failed⟩⟩
        · have stopped : v.hasEnded = true := by
            rcases Worker.phase_of_report? ended with phase | ⟨p, phase, _⟩
            · rw [Worker.hasEnded, same, phase]
            · rw [Worker.hasEnded, same, phase]
          have kept := ended_kept_of_steps there stopped later
          rw [here] at kept
          cases kept
          refine .before ?_ uncalled
          rw [slotReport?, there, Option.bind_some, ended]
        · rw [head] at isOver
          cases isOver
        · exact .unprepared vacant (Worker.exit_of_phase ended failed) uncalled
      · exact .timedOut (Worker.exit_of_phase ended late) uncalled
      · exact .lastCall only nothing
      · exact .cancelled (Worker.exit_of_phase ended cancelled) once

/-- The workers of a run have been asked to stop. The flag stays, and in the report that
is made after the events `fs` every worker has heeded it. -/
structure Stopping (r : Run) (fs : List RunEvent) (report : SearchReport) : Prop where
  flagged : ∀ front back q, fs = front ++ back → r.steps front = some q → q.crew.flagged = true
  heeds : ∀ (i : Nat) (worker : WorkerReport), report.workers[i]? = some worker →
    r.Heeds i (resultsOf i fs) worker
  seen : ∀ (i : Nat) (worker : WorkerReport), report.workers[i]? = some worker →
    .crew (.flagSeen i) ∈ fs → worker.exit = .cancelled

/-- A run goes on joining its workers during the events `fs`, until all slots are joined. -/
structure Draining (r : Run) (fs : List RunEvent) (slots : Nat) : Prop where
  joins : ∀ front back q, fs = front ++ back → r.steps front = some q → q.joins = true
  joined : ∀ i, i < slots → i ∈ r.joined ∨ .joined i ∈ fs

theorem stopping_of_steps {report : SearchReport} (flagged : r.crew.flagged = true)
    (later : r.steps fs = some q)
    (slots : ∀ i, report.workers[i]? = q.slotReport? i) : r.Stopping fs report where
  flagged := by
    intro front back p _ between
    rw [flagged_of_steps between, flagged, Bool.true_or]
  heeds := by
    intro i worker there
    rw [slots] at there
    exact heeds_of_steps flagged later there
  seen := by
    intro i worker there looked
    obtain ⟨front, back, rfl⟩ := List.append_of_mem looked
    obtain ⟨_, w, here, cancelled⟩ := cancelled_of_flagSeen flagged later
    rw [slots, slotReport?, here, Option.bind_some] at there
    exact Worker.exit_of_phase there cancelled

/-- After an event that raises the flag, the workers have been asked to stop. -/
theorem exists_stopping_of_raisesFlag {report : SearchReport} (raises : e.raisesFlag = true)
    (reached : r₀.steps (es ++ e :: fs) = some r)
    (slots : ∀ i, report.workers[i]? = r.slotReport? i) :
    ∃ p q, r₀.steps es = some p ∧ p.step e = some q ∧ q.steps fs = some r ∧
      q.Stopping fs report := by
  obtain ⟨p, q, before, stepped, later⟩ := exists_step_of_steps reached
  refine ⟨p, q, before, stepped, later, stopping_of_steps ?_ later slots⟩
  rw [(moves_of_step stepped).flagged, raises, Bool.or_true]

/-- A source or the factory has the workers stopped without a trace in the status. -/
theorem exists_unnoted_stopping {report : SearchReport}
    (unasked : e = .raised ∨ ∃ j, e = .crew (.flagRaised j))
    (reached : r₀.steps (es ++ e :: fs) = some r)
    (slots : ∀ i, report.workers[i]? = r.slotReport? i) :
    ∃ p q, r₀.steps es = some p ∧ p.step e = some q ∧ q.status = p.status ∧
      q.Stopping fs report := by
  have raises : e.raisesFlag = true := by
    rcases unasked with rfl | ⟨j, rfl⟩
    · rfl
    · rfl
  obtain ⟨p, q, before, stepped, _, stopping⟩ := exists_stopping_of_raisesFlag raises reached slots
  refine ⟨p, q, before, stepped, ?_, stopping⟩
  rcases unasked with rfl | ⟨j, rfl⟩
  · cases moves_of_step stepped
    rfl
  · cases moves_of_step stepped
    rfl

theorem draining_of_steps {slots : Nat} (prepared : r.allPrepared = true)
    (later : r.steps fs = some q) (stage : q.stage = .searching)
    (joined : ∀ i, i < slots → i ∈ q.joined) : r.Draining fs slots where
  joins := by
    rintro front back p rfl between
    rw [steps_append, between, Option.bind_some] at later
    have searching := (stays_of_searching later stage).1
    rw [joins, searching]
    exact allPrepared_of_steps prepared between
  joined := by
    intro i inside
    exact mem_joined_of_steps prepared later (joined i inside)

/-! ## The exits in a report -/

/-- An exit has a reason in the events of a run and in its configuration. -/
structure Explained (config : Config) (es : List RunEvent) (exit : WorkerExit) : Prop where
  cancelled : exit = .cancelled →
    .interrupted ∈ es ∨ (∃ j, .crew (.flagRaised j) ∈ es) ∨ .raised ∈ es
  timedOut : exit = .timedOut → config.timeLimit.isSome = true

theorem explained_of_slotReport? (started : start config stat id registry baseline now time = .ok r₀)
    (reached : r₀.steps es = some r) (stage : r.stage = .searching)
    (reported : r.slotReport? i = some report) : Explained config es report.exit := by
  have starts := starts_of_start started
  have reasoned := reasoned_of_steps starts.unmanned reached
  obtain ⟨w, here, ended⟩ := Option.bind_eq_some_iff.mp reported
  have member : w ∈ r.crew.members := List.mem_of_getElem? here
  have own (notPanicked : ∀ m, report.exit ≠ .panicked m) : w.phase = .stopped report.exit := by
    rcases Worker.phase_of_report? ended with phase | ⟨p, _, panicked⟩
    · exact phase
    · exact absurd panicked (notPanicked _)
  constructor
  · intro cancelled
    have phase := own (by simp [cancelled])
    rw [cancelled] at phase
    exact disturbed_of_flagged (calm_of_start started).2 reached stage
      (reasoned.cancelled w member phase)
  · intro late
    have phase := own (by simp [late])
    rw [late] at phase
    have limited := reasoned.timedOut w member phase
    obtain ⟨workDir, slot⟩ := (course_of_steps starts.unmanned reached).slot_eq here
    cases unlimited : config.timeLimit with
    | some limit => rfl
    | none =>
        have endless := (starts.endless unlimited).2.1
        rw [slot, slotAt, endless] at limited
        cases limited

/-- Without a reason to stop, a worker has run out, failed, panicked or was never prepared. -/
theorem Explained.of_undisturbed {exit : WorkerExit} (explained : Explained config es exit)
    (unlimited : config.timeLimit = none) (uninterrupted : .interrupted ∉ es)
    (unraised : ∀ j, .crew (.flagRaised j) ∉ es) (unshared : .raised ∉ es) :
    exit = .exhausted ∨ (∃ m, exit = .failed m) ∨ (∃ m, exit = .panicked m) ∨
      ∃ m, exit = .prepareFailed m := by
  cases exit with
  | exhausted => exact .inl rfl
  | failed m => exact .inr (.inl ⟨m, rfl⟩)
  | panicked m => exact .inr (.inr (.inl ⟨m, rfl⟩))
  | prepareFailed m => exact .inr (.inr (.inr ⟨m, rfl⟩))
  | cancelled =>
      rcases explained.cancelled rfl with interrupted | ⟨j, raised⟩ | raised
      · exact absurd interrupted uninterrupted
      · exact absurd raised (unraised j)
      · exact absurd raised unshared
  | timedOut =>
      have limited := explained.timedOut rfl
      rw [unlimited] at limited
      cases limited

/-- **Stop reasons are sound.** In a finished run the status says that it was cancelled
exactly if the request of the caller was taken while workers were joined, which happens at
most once; then the flag is set, and the run goes on joining until every slot is joined.
Every slot is reported in any case. A source that raises the flag has all workers stopped
too, and leaves the status as it is; so does the factory of the sources, or whoever got the
flag from it. A worker is cancelled only for one of these reasons, and it times out only if
there is a time limit; without any of them it has run out, failed, panicked or was never
prepared. -/
theorem stop_reasons_are_sound
    (started : start config stat id registry baseline now time = .ok r₀)
    (reached : r₀.steps es = some r) {moment : Timestamp}
    (finished : r.step (.finished moment) = some r') :
    ∃ report, r'.report? = some report ∧
      (report.status.cancelled = true ↔ .interrupted ∈ es) ∧ es.count .interrupted ≤ 1 ∧
      (∀ i, i < config.slotCount →
        ∃ worker, report.workers[i]? = some worker ∧ worker.workerIndex = i) ∧
      (∀ front back, es = front ++ .interrupted :: back →
        ∃ q, r₀.steps (front ++ [.interrupted]) = some q ∧ q.status.cancelled = true ∧
          q.Stopping back report ∧ q.Draining back config.slotCount) ∧
      (∀ front back j, es = front ++ .crew (.flagRaised j) :: back →
        ∃ p q, r₀.steps front = some p ∧ p.step (.crew (.flagRaised j)) = some q ∧
          q.status = p.status ∧ q.Stopping back report) ∧
      (∀ front back, es = front ++ .raised :: back →
        ∃ p q, r₀.steps front = some p ∧ p.step .raised = some q ∧
          q.status = p.status ∧ q.Stopping back report) ∧
      ∀ worker ∈ report.workers,
        (worker.exit = .cancelled → report.status.cancelled = true ∨
          (∃ j, .crew (.flagRaised j) ∈ es) ∨ .raised ∈ es) ∧
        (worker.exit = .timedOut → config.timeLimit.isSome = true) ∧
        (config.timeLimit = none → .interrupted ∉ es → (∀ j, .crew (.flagRaised j) ∉ es) →
          .raised ∉ es → worker.exit = .exhausted ∨ (∃ m, worker.exit = .failed m) ∨
            (∃ m, worker.exit = .panicked m) ∨ ∃ m, worker.exit = .prepareFailed m) := by
  have starts := starts_of_start started
  have course := course_of_steps starts.unmanned reached
  have joined := joined_of_steps starts.joined reached
  have noted := starts.noted (calm_of_start started).1 reached
  obtain ⟨ended, reports, workers⟩ := starts.finish_workers reached finished
  cases moves_of_step finished with
  | finished _ stage prepared all =>
      have filled := starts.length_members reached prepared
      have slots (i : Nat) : (r.reportAt moment).workers[i]? = r.slotReport? i := by
        rw [workers, getElem?_reports ended]
      have status : (r.reportAt moment).status.cancelled = true ↔ .interrupted ∈ es := by
        rw [← noted.interrupted, ← noted.cancelled]
        rfl
      refine ⟨r.reportAt moment, reports, status, noted.once, ?_, ?_, ?_, ?_, ?_⟩
      · intro i inside
        obtain ⟨worker, reported⟩ := exists_slotReport ended (filled.symm ▸ inside)
        exact ⟨worker, (slots i).trans reported, course.workerIndex_eq reported⟩
      · rintro front back rfl
        obtain ⟨p, q, before, stepped, later, stopping⟩ :=
          exists_stopping_of_raisesFlag rfl reached slots
        refine ⟨q, ?_, ?_, stopping, ?_⟩
        · rw [steps_concat, before, Option.bind_some, stepped]
        · cases moves_of_step stepped
          rfl
        · refine draining_of_steps ?_ later stage ?_
          · cases moves_of_step stepped with
            | interrupted _ prepared => exact prepared
          · intro i inside
            exact (joined.mem_iff_of_allJoined all).mpr (List.mem_range.mpr (filled.symm ▸ inside))
      · rintro front back j rfl
        exact exists_unnoted_stopping (.inr ⟨j, rfl⟩) reached slots
      · rintro front back rfl
        exact exists_unnoted_stopping (.inl rfl) reached slots
      · intro worker member
        obtain ⟨i, there⟩ := List.mem_iff_getElem?.mp member
        rw [slots] at there
        have explained := explained_of_slotReport? started reached stage there
        refine ⟨?_, explained.timedOut, ?_⟩
        · intro cancelled
          rw [status]
          exact explained.cancelled cancelled
        · intro unlimited uninterrupted unraised unshared
          exact explained.of_undisturbed unlimited uninterrupted unraised unshared

/-! ### Flags that nobody has asked the run to raise -/

namespace Sample

/-- What comes after the source of the first worker has raised the flag. -/
def halting : List RunEvent :=
  [.crew (.flagSeen 1), .joined 1, .crew (.answered 0 .exhausted), .joined 0]

/-- The factory raises the flag when it prepares the first source. -/
def hasty : List RunEvent :=
  [.raised, .prepared (.ready "a"), .prepared (.ready "b"), .crew (.flagSeen 0),
    .crew (.flagSeen 1), .joined 0, .joined 1]

/-- The source of the first worker raises the flag while the other one is in its last call. -/
def crossing : List RunEvent :=
  [.prepared (.ready "a"), .prepared (.ready "b"), .crew (.flagSeen 0), .crew (.clockSeen 0),
    .crew (.flagSeen 1), .crew (.clockSeen 1), .crew (.flagRaised 0),
    .crew (.answered 0 (.outcome (outcome one "last")))] ++ hand 0 ++
    [.crew (.flagSeen 0), .joined 0, .crew (.answered 1 .exhausted), .joined 1]

end Sample

/-- A worker can be cancelled though no source has raised the flag and nobody has asked the
run to stop; and a worker need not be cancelled because a source has raised the flag. -/
theorem factory_cancels_without_request :
    (∃ r r' report, (Sample.run 7).steps Sample.hasty = some r ∧
      r.step (.finished ⟨1, 0⟩) = some r' ∧ r'.report? = some report ∧
      Sample.settings.timeLimit = none ∧ .interrupted ∉ Sample.hasty ∧
      (∀ j, .crew (.flagRaised j) ∉ Sample.hasty) ∧ report.status.cancelled = false ∧
      report.workers.map WorkerReport.exit = [.cancelled, .cancelled]) ∧
    ∃ r r' report, (Sample.run 7).steps Sample.crossing = some r ∧
      r.step (.finished ⟨1, 0⟩) = some r' ∧ r'.report? = some report ∧
      .crew (.flagRaised 0) ∈ Sample.crossing ∧ report.status.cancelled = false ∧
      report.workers.map WorkerReport.exit = [.cancelled, .exhausted] := by
  have told (es : List RunEvent) (exits : List WorkerExit)
      (made : (((Sample.run 7).steps es).bind fun r => r.step (.finished ⟨1, 0⟩)).bind
        (fun r => r.report?.map fun report =>
          (report.status.cancelled, report.workers.map WorkerReport.exit)) =
        some (false, exits)) := exists_seen_report made
  constructor
  · obtain ⟨r, r', report, reached, finished, reports, seen⟩ :=
      told Sample.hasty [.cancelled, .cancelled] (by decide +kernel)
    obtain ⟨cancelled, exits⟩ := Prod.mk.inj seen
    refine ⟨r, r', report, reached, finished, reports, rfl, ?_, ?_, cancelled, exits⟩
    · simp [Sample.hasty]
    · simp [Sample.hasty]
  · obtain ⟨r, r', report, reached, finished, reports, seen⟩ :=
      told Sample.crossing [.cancelled, .exhausted] (by decide +kernel)
    obtain ⟨cancelled, exits⟩ := Prod.mk.inj seen
    refine ⟨r, r', report, reached, finished, reports, ?_, cancelled, exits⟩
    simp [Sample.crossing]

theorem raised_flag_leaves_status :
    ∃ r r' report worker, (Sample.run 7).steps (Sample.raising ++ Sample.halting) = some r ∧
      r.step (.finished ⟨1, 0⟩) = some r' ∧ r'.report? = some report ∧
      report.status.cancelled = false ∧ report.workers[1]? = some worker ∧
      worker.exit = .cancelled := by
  obtain ⟨r, r', reached, finished⟩ := exists_finish
    (show (((Sample.run 7).steps (Sample.raising ++ Sample.halting)).bind
      fun r => r.step (.finished ⟨1, 0⟩)).isSome by decide +kernel)
  obtain ⟨report, reports, status, _, slots, _, raised, _, _⟩ :=
    @stop_reasons_are_sound Sample.settings (fun _ => .ok .directory) (Sample.experiment 7)
      Registry.new (some (Sample.outcome Sample.two "baseline")) ⟨0⟩ ⟨0, 0⟩ (Sample.run 7) r r'
      (Sample.raising ++ Sample.halting) rfl reached ⟨1, 0⟩ finished
  obtain ⟨worker, there, _⟩ := slots 1 (by decide)
  obtain ⟨_, _, _, _, _, stopping⟩ := raised Sample.raising.dropLast Sample.halting 0 rfl
  refine ⟨r, r', report, worker, reached, finished, reports, ?_, there, ?_⟩
  · rw [Bool.eq_false_iff, Ne, status]
    simp [Sample.raising, Sample.halting]
  · exact stopping.seen 1 worker there (by simp [Sample.halting])

end Run
end RankedSearch
