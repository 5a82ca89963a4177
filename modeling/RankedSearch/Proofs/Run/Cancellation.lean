import RankedSearch.Proofs.Run.Return
import RankedSearch.Proofs.Run.Slots
import RankedSearch.Proofs.Worker.Winding

/-!
# Cancellation

The flag that asks the workers to stop is raised from three sides: when the run is
interrupted, when its caller leaves it, and when a source raises it itself, or the
factory of the sources. Nothing takes it back (`flagged_of_steps`).

From then on every worker winds down, whatever the others do and however the
workers interleave (`winding_of_steps`): it completes the call that it may be about
to make, adds the outcome that it may have, and heeds the flag at the head of its
loop. So the run stops promptly and loses nothing
(`cancellation_is_prompt_and_loses_nothing`).
-/

set_option autoImplicit false

namespace RankedSearch

/-- Whether an event raises the flag that asks the workers to stop. -/
def RunEvent.raisesFlag : RunEvent → Bool
  | .interrupted | .raised | .dropped _ | .prepared (.panicked _ _) | .crew (.flagRaised _) => true
  | .prepared (.ready _) | .prepared (.noDirectory _) | .prepared (.refused _ _) | .crew _
  | .joined _ | .finished _ | .drained | .elsewhere _ => false

/-! ## Heeding the flag -/

/-- A turn leads to another phase. -/
theorem Worker.Turns.phase_ne {w w' : Worker} {received : Option TrialResult}
    {added : Option Outcome} (turns : w.Turns received added w') : w'.phase ≠ w.phase := by
  cases turns with
  | looksAtFlag phase flagged =>
      rw [phase]
      cases flagged <;> exact Phase.noConfusion
  | looksAtClock phase now =>
      rw [phase]
      simp only [inPhase]
      split <;> exact Phase.noConfusion
  | fails phase e =>
      rw [phase]
      simp only [afterFailure]
      split <;> exact Phase.noConfusion
  | receives phase | runsOut phase | panics phase | finds phase | adds phase =>
      rw [phase]
      exact Phase.noConfusion

/-- At the head of its loop a worker of a flagged crew stops, if it moves. -/
theorem Crew.Moves.heeds {c c' : Crew} {e : CrewEvent} {i : Nat} {w w' : Worker}
    (moves : c.Moves e c') (flagged : c.flagged = true) (here : c.members[i]? = some w)
    (there : c'.members[i]? = some w') (head : w.phase = .head) :
    w' = w ∨ w'.phase = .stopped .cancelled := by
  -- Any other move is that of a worker that is not at the head of its loop.
  have other {j : Nat} {v v' : Worker} (moved : c.members[j]? = some v) (phase : v.phase ≠ .head)
      (there : (c.members.set j v')[i]? = some w') : w' = w := by
    rw [getElem?_set_of_some moved] at there
    split at there
    · rename_i same
      subst same
      rw [here] at moved
      cases moved
      exact absurd head phase
    · rw [here] at there
      exact (Option.some.inj there).symm
  cases moves with
  | flagSeen moved phase =>
      rw [withMember, getElem?_set_of_some moved] at there
      split at there
      · cases there
        exact .inr rfl
      · rw [here] at there
        exact .inl (Option.some.inj there).symm
  | clockSeen moved phase | returned moved phase | exhausted moved phase | failed moved phase
  | panicked moved phase | obtained moved phase | added moved phase =>
      exact .inl (other moved (by simp [phase]) there)
  | flagRaised | elapsed => exact .inl (Option.some.inj (there.symm.trans here))

namespace Run

variable {config : Config} {stat : String → Except IoError FileKind} {id : ExperimentId}
  {registry : Registry} {baseline : Option Outcome} {now : Instant} {time : Timestamp}
  {r₀ r r' q q' : Run} {e : RunEvent} {es fs : List RunEvent} {i : Nat} {w w' : Worker}
  {o : Outcome}

theorem Moves.heeds (moves : r.Moves e r') (flagged : r.crew.flagged = true)
    (here : r.crew.members[i]? = some w) (there : r'.crew.members[i]? = some w')
    (head : w.phase = .head) : w' = w ∨ w'.phase = .stopped .cancelled := by
  have enlisted {v : Worker} (there : (r.crew.members ++ [v])[i]? = some w') : w' = w := by
    rw [List.getElem?_append_left (List.getElem?_eq_some_iff.mp here).1, here] at there
    exact (Option.some.inj there).symm
  cases moves with
  | crew moves => exact moves.heeds flagged here there head
  | launched | unplaced | refused => exact .inl (enlisted there)
  | unwound | joined | interrupted | raised | finished | dropped | abandoned | drained
  | elsewhere =>
      exact .inl (Option.some.inj (there.symm.trans here))

/-! ## The flag -/

/-- The flag is raised by the events that raise it, and never taken back. -/
theorem Moves.flagged (moves : r.Moves e r') :
    r'.crew.flagged = (r.crew.flagged || e.raisesFlag) := by
  cases moves with
  | launched | unplaced | refused | joined | finished | drained | elsewhere =>
      exact (Bool.or_false _).symm
  | unwound | interrupted | raised | dropped | abandoned => exact (Bool.or_true _).symm
  | crew moves =>
      cases moves with
      | flagRaised => exact (Bool.or_true _).symm
      | flagSeen | clockSeen | returned | exhausted | failed | panicked | obtained | added
      | elapsed => exact (Bool.or_false _).symm

theorem flagged_of_steps (reached : r₀.steps es = some r) :
    r.crew.flagged = (r₀.crew.flagged || es.any RunEvent.raisesFlag) := by
  apply steps_induction (motive := fun es r =>
    r.crew.flagged = (r₀.crew.flagged || es.any RunEvent.raisesFlag)) ?_ ?_ reached
  · exact (Bool.or_false _).symm
  · intro es e q q' _ before moves
    rw [moves.flagged, before, List.any_append, List.any_cons, List.any_nil, Bool.or_false,
      Bool.or_assoc]

/-! ## Winding down -/

/-- A worker stands in a slot in this phase, or none does yet, and then the slot gets a
worker that is about to look at the flag, or one that never starts. -/
def StandsIn (r : Run) (i : Nat) (p : Phase) : Prop :=
  (∃ w, r.crew.members[i]? = some w ∧ w.phase = p) ∨
    r.crew.members[i]? = none ∧ (p = .head ∨ ∃ reason, p = .stopped (.prepareFailed reason))

/-- What events have made of a slot of a run whose workers were asked to stop. -/
inductive WindingSlot (r : Run) (fs : List RunEvent) (i : Nat) : Option Worker → Prop
  | vacant (before : r.crew.members[i]? = none) (results : resultsOf i fs = [])
      (additions : additionsBy i (r.additions fs) = []) : WindingSlot r fs i none
  | manned {p : Phase} {w : Worker} (stood : r.StandsIn i p)
      (winds : p.WindsDown (resultsOf i fs) (additionsBy i (r.additions fs)) w.phase) :
      WindingSlot r fs i (some w)

theorem windingSlot_nil (r : Run) (i : Nat) : WindingSlot r [] i r.crew.members[i]? := by
  cases here : r.crew.members[i]? with
  | none => exact .vacant here rfl rfl
  | some w => exact .manned (.inl ⟨w, here, rfl⟩) .stays

theorem phase_of_firstWorker? {p : Preparation} (first : r.firstWorker? i p = some w) :
    w.phase = .head ∨ ∃ reason, w.phase = .stopped (.prepareFailed reason) := by
  cases p with
  | ready workDir =>
      cases first
      exact .inl rfl
  | noDirectory e | refused workDir e =>
      cases first
      exact .inr ⟨_, rfl⟩
  | panicked workDir p => cases first

theorem WindingSlot.move (winding : WindingSlot r fs i q.crew.members[i]?)
    (later : r.steps fs = some q) (flagged : q.crew.flagged = true) (moves : q.Moves e q') :
    WindingSlot r (fs ++ [e]) i q'.crew.members[i]? := by
  rcases moves.slot i with
    ⟨same, result, addition⟩ | ⟨w, w', added, here, there, turns, addition⟩ |
    ⟨p, w, rfl, rfl, first, there⟩
  · have results : resultsOf i (fs ++ [e]) = resultsOf i fs := by
      rw [resultsOf_concat, result, Option.toList_none, List.append_nil]
    have additions : additionsBy i (r.additions (fs ++ [e])) = additionsBy i (r.additions fs) := by
      rw [additions_concat later, additionsBy_append, additionsBy_other addition, List.append_nil]
    rw [same]
    generalize q.crew.members[i]? = member at winding
    cases winding with
    | vacant before noResults noAdditions =>
        exact .vacant before (results.trans noResults) (additions.trans noAdditions)
    | manned stood winds =>
        refine .manned stood ?_
        rw [results, additions]
        exact winds
  · rw [here] at winding
    rw [there]
    cases winding with
    | manned stood winds =>
        refine .manned stood ?_
        rw [resultsOf_concat, additions_concat later, additionsBy_append, addition,
          additionsBy_own]
        apply winds.turn turns
        intro head
        rcases moves.heeds flagged here there head with same | stopped
        · exact absurd (congrArg Worker.phase same) turns.phase_ne
        · exact stopped
  · rw [List.getElem?_eq_none le_rfl] at winding
    cases winding with
    | vacant before results additions =>
        rw [there]
        refine .manned (.inr ⟨before, phase_of_firstWorker? first⟩) ?_
        rw [resultsOf_concat, additions_concat later, additionsBy_append, results, additions]
        exact .stays

/-- When the workers have been asked to stop, they wind down. -/
theorem winding_of_steps (flagged : r.crew.flagged = true) (later : r.steps fs = some q) (i : Nat) :
    WindingSlot r fs i q.crew.members[i]? := by
  apply steps_induction (motive := fun fs q => WindingSlot r fs i q.crew.members[i]?) ?_ ?_ later
  · exact windingSlot_nil r i
  · intro fs e q q' before winding moves
    have still : q.crew.flagged = true := by
      rw [flagged_of_steps before, flagged, Bool.true_or]
    exact winding.move before still moves

/-! ## What a worker may still do -/

/-- At most one call is completed in a slot, by a worker that was past the head of its
loop, and at most one outcome is added. -/
theorem WindingSlot.bounds {member : Option Worker} (winding : WindingSlot r fs i member) :
    (resultsOf i fs).length ≤ 1 ∧ (additionsBy i (r.additions fs)).length ≤ 1 ∧
      (resultsOf i fs ≠ [] → ∃ w, r.crew.members[i]? = some w ∧ w.phase.HasPassed) := by
  cases winding with
  | vacant _ results additions =>
      rw [results, additions]
      exact ⟨Nat.zero_le 1, Nat.zero_le 1, fun answered => absurd rfl answered⟩
  | manned stood winds =>
      refine ⟨winds.length_le_one.1, winds.length_le_one.2, ?_⟩
      intro answered
      have passed := winds.hasPassed answered
      rcases stood with ⟨w, here, rfl⟩ | ⟨_, rfl | ⟨reason, rfl⟩⟩
      · exact ⟨w, here, passed⟩
      · rcases passed with passed | passed <;> cases passed
      · rcases passed with passed | passed <;> cases passed

/-- An outcome that is returned after the request to stop is held until it is added and
counted, and then its worker heeds the request. -/
theorem Course.counted_of_winding (course : Course r₀ (es ++ fs) r')
    (flagged : r.crew.flagged = true) (later : r.steps fs = some r')
    (answered : resultsOf i fs = [.outcome o]) :
    ∃ w, r'.crew.members[i]? = some w ∧
      (w.phase.held? = some o ∧ additionsBy i (r.additions fs) = [] ∨
        additionsBy i (r.additions fs) = [o] ∧
          w.tally = Tally.ofResults (resultsOf i (es ++ fs)) ∧
          (w.phase = .head ∨ w.phase = .stopped .cancelled)) := by
  have winding := winding_of_steps flagged later i
  have known := course.slots i
  cases here : r'.crew.members[i]? with
  | none =>
      rw [here] at winding
      cases winding with
      | vacant _ results _ =>
          rw [answered] at results
          cases results
  | some w =>
      rw [here] at winding known
      refine ⟨w, rfl, ?_⟩
      cases winding with
      | manned _ winds =>
          rw [answered] at winds
          rcases winds.added_or_held with held | ⟨added, phase⟩
          · exact .inl held
          · cases known with
            | manned _ _ serves =>
                refine .inr ⟨added, serves.seen.all_counted ?_, phase⟩
                rcases phase with phase | phase
                · rw [phase]
                  rfl
                · rw [phase]
                  rfl

theorem additions_cons (stepped : r.step e = some q) (es : List RunEvent) :
    r.additions (e :: es) = (r.addition? e).toList ++ q.additions es := by
  simp only [additions, observe, attempt, stepped, Option.getD_some]

/-- A worker that holds an outcome can look up the history. -/
theorem step_obtained (here : r.crew.members[i]? = some w) (phase : w.phase = .holding o) :
    ∃ q h, r.step (.crew (.obtained i)) = some q ∧
      q.crew.members[i]? = some (w.inPhase (.admitting h o)) := by
  simp only [step, Crew.step, Crew.lookUp, here, phase, Worker.obtain, Option.bind_eq_bind,
    Option.bind_some, Option.pure_def, Option.map_some]
  refine ⟨_, (r.crew.registry.obtainWith w.slot.experiment w.historyCapacity).1, rfl, ?_⟩
  exact (Crew.getElem?_set_of_some here _ i).trans (if_pos rfl)

/-- A worker that has found the history can add its outcome. -/
theorem step_added {h : Handle} (here : r.crew.members[i]? = some w)
    (phase : w.phase = .admitting h o) :
    ∃ q, r.step (.crew (.added i)) = some q ∧
      additionsBy i (r.additions [.crew (.added i)]) = [o] := by
  obtain ⟨q, stepped⟩ : ∃ q, r.step (.crew (.added i)) = some q := by
    simp only [step, Crew.step, Crew.addHeld, here, phase, Worker.credit, Option.bind_eq_bind,
      Option.bind_some, Option.pure_def, Option.map_some]
    exact ⟨_, rfl⟩
  have addition : r.addition? (.crew (.added i)) = some (i, o) :=
    Crew.addition?_added here phase
  refine ⟨q, stepped, ?_⟩
  rw [additions_cons stepped, addition, additionsBy_append]
  exact congrArg (· ++ []) (additionsBy_own i (some o))

/-- Whoever holds an outcome can add it by steps of its own. -/
theorem exists_addition (here : r.crew.members[i]? = some w) (held : w.phase.held? = some o) :
    ∃ gs r', r.steps gs = some r' ∧ (∀ e ∈ gs, e = .crew (.obtained i) ∨ e = .crew (.added i)) ∧
      additionsBy i (r.additions gs) = [o] := by
  cases phase : w.phase with
  | admitting h p =>
      rw [phase] at held
      cases held
      obtain ⟨r', stepped, additions⟩ := step_added here phase
      refine ⟨[.crew (.added i)], r', ?_, ?_, additions⟩
      · rw [steps, stepped]
        rfl
      · intro e member
        exact .inr (List.mem_singleton.mp member)
  | holding p =>
      rw [phase] at held
      cases held
      obtain ⟨q, h, found, there⟩ := step_obtained here phase
      obtain ⟨r', stepped, additions⟩ := step_added there rfl
      refine ⟨[.crew (.obtained i), .crew (.added i)], r', ?_, ?_, ?_⟩
      · rw [steps, found, Option.bind_some, steps, stepped]
        rfl
      · intro e member
        rcases List.mem_cons.mp member with first | last
        · exact .inl first
        · exact .inr (List.mem_singleton.mp last)
      · rw [additions_cons found, additionsBy_append, additions]
        rfl
  | head | unflagged | calling | stopped exit | panicked cause =>
      rw [phase] at held
      cases held

/-- A worker that looks at the flag after the request to stop is cancelled, and it does
nothing any more. -/
theorem cancelled_of_flagSeen (flagged : r.crew.flagged = true) {front back : List RunEvent}
    (later : r.steps (front ++ .crew (.flagSeen i) :: back) = some r') :
    (∀ c, .crew c ∈ back → c.worker? ≠ some i) ∧
      ∃ w, r'.crew.members[i]? = some w ∧ w.phase = .stopped .cancelled := by
  obtain ⟨q, q', before, looked, after⟩ := exists_step_of_steps later
  have still : q.crew.flagged = true := by rw [flagged_of_steps before, flagged, Bool.true_or]
  obtain ⟨w, here, cancelled⟩ : ∃ w, q'.crew.members[i]? = some w ∧
      w.phase = .stopped .cancelled := by
    cases moves_of_step looked with
    | crew moves =>
        cases moves with
        | flagSeen here phase =>
            rw [Crew.withMember, Crew.getElem?_set_of_some here, if_pos rfl, still, if_pos rfl]
            exact ⟨_, rfl, rfl⟩
  have ended : w.hasEnded = true := by simp only [Worker.hasEnded, cancelled]
  refine ⟨?_, w, ended_kept_of_steps here ended after, cancelled⟩
  intro c member own
  obtain ⟨between, rest, rfl⟩ := List.append_of_mem member
  obtain ⟨p, p', reached, stepped, _⟩ := exists_step_of_steps after
  cases moves_of_step stepped with
  | crew moves =>
      obtain ⟨v, there, works⟩ := moves.works own
      rw [ended_kept_of_steps here ended reached] at there
      cases there
      rw [ended] at works
      cases works

theorem isSome_step_flagSeen (here : r.crew.members[i]? = some w) (head : w.phase = .head) :
    (r.step (.crew (.flagSeen i))).isSome := by
  simp only [step, Crew.step, Crew.update, here, Worker.lookAtFlag, head, Option.bind_eq_bind,
    Option.bind_some, Option.pure_def, Option.map_some, Option.isSome_some]

/-- The report of a finished run counts an outcome that was returned after the request
to stop, and tells that its worker was cancelled. -/
theorem Starts.report_of_winding (starts : Starts config id registry baseline time r₀)
    (reached : r₀.steps (es ++ fs) = some r') (flagged : r.crew.flagged = true)
    (later : r.steps fs = some r') (answered : resultsOf i fs = [.outcome o]) {moment : Timestamp}
    (finished : r'.step (.finished moment) = some q) :
    ∃ report, q.report? = some report ∧
      report.workers[i]? = some
        ((Tally.ofResults (resultsOf i (es ++ fs))).report i (config.workerSeed i) .cancelled) := by
  have course := course_of_steps starts.unmanned reached
  obtain ⟨ended, reports, workers⟩ := starts.finish_workers reached finished
  obtain ⟨w, here, kept⟩ := course.counted_of_winding flagged later answered
  have done := ended w (List.mem_of_getElem? here)
  obtain ⟨workDir, slot⟩ := course.slot_eq here
  refine ⟨_, reports, ?_⟩
  rw [workers, getElem?_reports ended, slotReport?, here, Option.bind_some]
  rcases kept with ⟨held, _⟩ | ⟨_, counted, head | cancelled⟩
  · rw [Worker.held?_of_hasEnded done] at held
    cases held
  · simp only [Worker.hasEnded, head] at done
    cases done
  · rw [← starts.settings, Worker.report?, cancelled, counted, slot]
    rfl

/-! ## Cancellation -/

/-- **Cancellation is prompt and loses nothing.** From the moment on at which the flag
has been raised, by whatever event, it stays raised. Each worker completes at most one
more call, and only if it was past the head of its loop, and adds at most one more
outcome. An outcome that such a call returns is held until the worker adds it, which its
own next steps do; it is counted, and the finished run reports it with a cancelled
worker. As long as somebody waits for the workers, it is in the history of the run. A
worker that looks at the flag is cancelled and never moves again, whatever the clock
says, and nothing keeps a worker at the head of its loop from looking. -/
theorem cancellation_is_prompt_and_loses_nothing
    (started : start config stat id registry baseline now time = .ok r₀)
    (reached : r₀.steps es = some r)
    (raised : r₀.crew.flagged = true ∨ ∃ e ∈ es, e.raisesFlag = true)
    (later : r.steps fs = some r') :
    r.crew.flagged = true ∧ r'.crew.flagged = true ∧
      (registry.get? id = none → r'.Tended →
        r'.crew.registry.Collects id config.historyCapacity.toNat
          (baseline.toList ++ (r₀.additions (es ++ fs)).map Prod.snd)) ∧
      ∀ i,
        (resultsOf i fs).length ≤ 1 ∧ (additionsBy i (r.additions fs)).length ≤ 1 ∧
        (resultsOf i fs ≠ [] → ∃ w, r.crew.members[i]? = some w ∧ w.phase.HasPassed) ∧
        (∀ o, resultsOf i fs = [.outcome o] → ∃ w, r'.crew.members[i]? = some w ∧
          (w.phase.held? = some o ∧ additionsBy i (r.additions fs) = [] ∨
            additionsBy i (r.additions fs) = [o] ∧
              w.tally = Tally.ofResults (resultsOf i (es ++ fs)) ∧
              (w.phase = .head ∨ w.phase = .stopped .cancelled))) ∧
        (∀ w o, r'.crew.members[i]? = some w → w.phase.held? = some o →
          ∃ gs q, r'.steps gs = some q ∧
            (∀ e ∈ gs, e = .crew (.obtained i) ∨ e = .crew (.added i)) ∧
            additionsBy i (r'.additions gs) = [o]) ∧
        (∀ o moment q, resultsOf i fs = [.outcome o] → r'.step (.finished moment) = some q →
          ∃ report, q.report? = some report ∧
            report.workers[i]? = some ((Tally.ofResults (resultsOf i (es ++ fs))).report i
              (config.workerSeed i) .cancelled)) ∧
        (∀ w, r'.crew.members[i]? = some w → w.phase = .head →
          (r'.step (.crew (.flagSeen i))).isSome) ∧
        ∀ front back, fs = front ++ .crew (.flagSeen i) :: back →
          (∀ c, .crew c ∈ back → c.worker? ≠ some i) ∧
            ∃ w, r'.crew.members[i]? = some w ∧ w.phase = .stopped .cancelled := by
  have starts := starts_of_start started
  have whole : r₀.steps (es ++ fs) = some r' := by
    rw [steps_append, reached, Option.bind_some, later]
  have course := course_of_steps starts.unmanned whole
  have flagged : r.crew.flagged = true := by
    rw [flagged_of_steps reached, Bool.or_eq_true, List.any_eq_true]
    exact raised
  refine ⟨flagged, ?_, ?_, ?_⟩
  · rw [flagged_of_steps later, flagged, Bool.true_or]
  · intro fresh tended
    have collects := collects_of_steps starts.unmanned (starts.collects fresh) whole tended
    have entry := collects.entry
    rw [course.id, course.config, starts.id_eq, starts.settings] at entry
    exact entry
  · intro i
    obtain ⟨oneCall, oneAddition, passed⟩ := (winding_of_steps flagged later i).bounds
    refine ⟨oneCall, oneAddition, passed, ?_, ?_, ?_, ?_, ?_⟩
    · intro o answered
      exact course.counted_of_winding flagged later answered
    · intro w o here held
      exact exists_addition here held
    · intro o moment q answered finished
      exact starts.report_of_winding whole flagged later answered finished
    · intro w here head
      exact isSome_step_flagSeen here head
    · rintro front back rfl
      exact cancelled_of_flagSeen flagged later

/-! ### A source that raises the flag and still returns an outcome -/

namespace Sample

/-- The source of the first of two workers raises the flag in its call. -/
def raising : List RunEvent :=
  [.prepared (.ready "a"), .prepared (.ready "b"), .crew (.flagSeen 0), .crew (.clockSeen 0),
    .crew (.flagRaised 0)]

/-- Then the deadline passes, the call returns an outcome, and the first worker comes
back to the head of its loop. -/
def returning : List RunEvent :=
  [.crew (.elapsed (60 * nanosPerSecond)),
    .crew (.answered 0 (.outcome (outcome one "in flight")))] ++ hand 0 ++ [.crew (.flagSeen 0)]

end Sample

theorem outcome_in_flight_is_counted :
    ∃ r₀ r r' w, start (Sample.limited 60) (fun _ => .ok .directory) (Sample.experiment 7)
        Registry.new none ⟨0⟩ ⟨0, 0⟩ = .ok r₀ ∧
      r₀.steps Sample.raising = some r ∧ r.steps Sample.returning = some r' ∧
      r'.crew.members[0]? = some w ∧ w.phase = .stopped .cancelled ∧
      w.tally = Tally.ofResults [.outcome (Sample.outcome Sample.one "in flight")] ∧
      w.slot.deadlinePassed r'.crew.now = true := by
  have valid : (Sample.limited 60).validate (fun _ => .ok .directory) = .ok () := by decide
  have made : ((((start (Sample.limited 60) (fun _ => .ok .directory) (Sample.experiment 7)
      Registry.new none ⟨0⟩ ⟨0, 0⟩).toOption.bind fun r => r.steps Sample.raising).bind
      fun r => r.steps Sample.returning).map fun r =>
        r.crew.members[0]?.map fun w => w.slot.deadlinePassed r.crew.now) = some (some true) := by
    decide +kernel
  obtain ⟨r₀, started⟩ : ∃ r₀, start (Sample.limited 60) (fun _ => .ok .directory)
      (Sample.experiment 7) Registry.new none ⟨0⟩ ⟨0, 0⟩ = .ok r₀ := ⟨_, by rw [start, valid]⟩
  rw [started, Except.toOption, Option.bind_some] at made
  obtain ⟨r', reachedBoth, shown⟩ := Option.map_eq_some_iff.mp made
  obtain ⟨r, reached, later⟩ := Option.bind_eq_some_iff.mp reachedBoth
  obtain ⟨w, here, passed⟩ := Option.map_eq_some_iff.mp shown
  obtain ⟨_, _, _, slots⟩ := cancellation_is_prompt_and_loses_nothing started reached
    (.inr ⟨.crew (.flagRaised 0), by simp [Sample.raising], rfl⟩) later
  obtain ⟨_, _, _, kept, _, _, _, heeded⟩ := slots 0
  obtain ⟨v, there, held | ⟨_, counted, _⟩⟩ :=
    kept (Sample.outcome Sample.one "in flight") rfl
  · obtain ⟨_, u, also, cancelled⟩ := heeded (Sample.returning.dropLast) [] rfl
    rw [there] at also
    cases also
    rw [cancelled] at held
    cases held.1
  · obtain ⟨_, u, also, cancelled⟩ := heeded (Sample.returning.dropLast) [] rfl
    rw [here] at there also
    cases there
    cases also
    exact ⟨r₀, r, r', w, started, reached, later, here, cancelled, counted, passed⟩

end Run
end RankedSearch
