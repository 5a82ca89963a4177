import RankedSearch.Proofs.Crew.Moves
import RankedSearch.Proofs.Registry.Recording

/-!
# A worker on its own

A worker on its own goes through its loop, one pass after the other. What it meets
in a pass is a `Sight`: the flag and the clock as it sees them at the head of the
loop, and the answer that its source gives if it is called. A stream of sights
therefore determines the whole run (`Crew.passes`).

One pass ends the worker or brings it back to the head of its loop, as the answers
so far and the sight decide (`Slot.phaseAfter`), and what the worker leaves in the
registry are the outcomes among its answers, recorded in order (`Crew.Stands.pass`).
-/

set_option autoImplicit false

namespace RankedSearch

/-- What a worker meets in one pass of its loop. -/
structure Sight where
  /-- Whether it sees the flag set. -/
  flagged : Bool
  /-- What it reads from the clock. -/
  now : Instant
  /-- What its source answers, if it is called. -/
  answer : TrialResult
  deriving DecidableEq

namespace Crew

/-- A worker on its own, with what a crew shares. -/
def alone (r : Registry) (f : Bool) (n : Instant) (w : Worker) : Crew := ⟨r, f, n, [w]⟩

/-- The crew when its first worker sees the flag and the clock of a pass. -/
def sees (c : Crew) (s : Sight) : Crew := { c with flagged := s.flagged, now := s.now }

/-- The crew after its first worker has looked at the flag and the clock of a pass. -/
def looks (c : Crew) (s : Sight) : Crew :=
  ((c.sees s).attempt (.flagSeen 0)).attempt (.clockSeen 0)

/-- The crew after the source of its first worker has answered and the worker has
recorded the outcome, if it got one. -/
def call (c : Crew) (result : TrialResult) : Crew :=
  ((c.attempt (.answered 0 result)).attempt (.obtained 0)).attempt (.added 0)

/-- One pass of the first worker through its loop. -/
def pass (c : Crew) (s : Sight) : Crew := (c.looks s).call s.answer

/-- The answer that the first worker gets in a pass, if it calls its source. -/
def answerIn? (c : Crew) (s : Sight) : Option TrialResult :=
  ((c.looks s).step (.answered 0 s.answer)).map fun _ => s.answer

/-- Several passes, one after the other. -/
def passes (c : Crew) (sights : Nat → Sight) : Nat → Crew
  | 0 => c
  | k + 1 => (c.passes sights k).pass (sights k)

/-- The answers that the first worker gets in several passes. -/
def answersIn (c : Crew) (sights : Nat → Sight) (k : Nat) : List TrialResult :=
  (List.range k).filterMap fun i => (c.passes sights i).answerIn? (sights i)

variable {r : Registry} {f : Bool} {n : Instant} {w : Worker} {o : Outcome} {h : Handle}

/-! ## Steps -/

theorem update_alone (g : Worker → Option Worker) :
    (alone r f n w).update 0 g = (g w).map (alone r f n) := by
  show (g w).bind (fun v => some (alone r f n v)) = _
  rw [Option.map_eq_bind]
  rfl

theorem attempt_flagSeen :
    (alone r f n w).attempt (.flagSeen 0) = alone r f n ((w.lookAtFlag f).getD w) := by
  rw [attempt, step, update_alone, Option.getD_map]
  rfl

theorem attempt_clockSeen :
    (alone r f n w).attempt (.clockSeen 0) = alone r f n ((w.lookAtClock n).getD w) := by
  rw [attempt, step, update_alone, Option.getD_map]
  rfl

theorem step_answered (result : TrialResult) :
    (alone r f n w).step (.answered 0 result) = (w.receive result).map (alone r f n) :=
  update_alone _

theorem attempt_answered {v : Worker} {result : TrialResult}
    (received : w.receive result = some v) :
    (alone r f n w).attempt (.answered 0 result) = alone r f n v := by
  rw [attempt, step_answered, received]
  rfl

theorem attempt_obtained_of_holding (phase : w.phase = .holding o) :
    (alone r f n w).attempt (.obtained 0) =
      alone (r.obtainWith w.slot.experiment w.historyCapacity).2 f n
        (w.inPhase (.admitting (r.obtainWith w.slot.experiment w.historyCapacity).1 o)) := by
  simp [attempt, step, lookUp, alone, Worker.obtain, phase]

theorem attempt_added_of_admitting (phase : w.phase = .admitting h o) :
    (alone r f n w).attempt (.added 0) =
      alone (r.add h o).2 f n
        { w with tally := w.tally.credit (r.add h o).1 o.score, phase := .head } := by
  simp [attempt, step, addHeld, alone, Worker.credit, phase]

/-- A worker that holds nothing has nothing to hand over. -/
theorem hands_nothing_over (free : w.phase.held? = none) :
    ((alone r f n w).attempt (.obtained 0)).attempt (.added 0) = alone r f n w := by
  cases phase : w.phase with
  | holding | admitting =>
      rw [phase] at free
      cases free
  | head | unflagged | calling | stopped | panicked =>
      simp [attempt, step, lookUp, addHeld, alone, Worker.obtain, phase]

/-- A worker that has ended does not move. -/
theorem step_of_ended {e : CrewEvent} (own : e.worker? = some 0) (ended : w.hasEnded = true) :
    (alone r f n w).step e = none := by
  cases stepped : (alone r f n w).step e with
  | none => rfl
  | some c =>
      obtain ⟨v, here, works⟩ := (moves_of_step stepped).works own
      cases here
      rw [ended] at works
      cases works

theorem attempt_of_ended {e : CrewEvent} (own : e.worker? = some 0) (ended : w.hasEnded = true) :
    (alone r f n w).attempt e = alone r f n w := by
  rw [attempt, step_of_ended own ended, Option.getD_none]

theorem call_of_ended (result : TrialResult) (ended : w.hasEnded = true) :
    (alone r f n w).call result = alone r f n w := by
  rw [call, attempt_of_ended rfl ended, attempt_of_ended rfl ended, attempt_of_ended rfl ended]

end Crew

/-! ## One pass -/

/-- Where an answer brings a worker that has got the answers `rs` before. -/
def Phase.afterAnswer (limit : Nat) (rs : List TrialResult) : TrialResult → Phase
  | .outcome _ => .head
  | .exhausted => .stopped .exhausted
  | .failure e => if limit ≤ failureRow rs + 1 then .stopped (.failed e.message) else .head
  | .panic p => .panicked p

namespace Slot

variable {slot : Slot} {s : Sight}

/-- Whether neither the flag nor the clock keeps a worker in a slot from a call. -/
def calls (slot : Slot) (s : Sight) : Bool := !s.flagged && !slot.deadlinePassed s.now

/-- Where its looks at the flag and the clock bring a worker in a slot. -/
def phaseAtCall (slot : Slot) (s : Sight) : Phase :=
  if s.flagged then .stopped .cancelled
  else if slot.deadlinePassed s.now then .stopped .timedOut
  else .calling

/-- The answer that a worker in a slot gets in a pass, if it is at the head of its
loop. -/
def answer? (slot : Slot) (s : Sight) : Option TrialResult :=
  if slot.calls s then some s.answer else none

/-- Where a pass brings a worker in a slot that is at the head of its loop and has
got the answers `rs` so far. -/
def phaseAfter (slot : Slot) (limit : Nat) (rs : List TrialResult) (s : Sight) : Phase :=
  if slot.calls s then Phase.afterAnswer limit rs s.answer else slot.phaseAtCall s

theorem calls_iff :
    slot.calls s = true ↔ s.flagged = false ∧ slot.deadlinePassed s.now = false := by
  rw [calls, Bool.and_eq_true, Bool.not_eq_true', Bool.not_eq_true']

theorem phaseAtCall_of_calls (calls : slot.calls s = true) : slot.phaseAtCall s = .calling := by
  obtain ⟨unflagged, inTime⟩ := calls_iff.mp calls
  rw [phaseAtCall, unflagged, inTime, if_neg Bool.false_ne_true, if_neg Bool.false_ne_true]

/-- A worker that does not call its source has stopped. -/
theorem hasEnded_of_phaseAtCall {w : Worker} (stops : slot.calls s = false)
    (phase : w.phase = slot.phaseAtCall s) : w.hasEnded = true := by
  rw [phaseAtCall] at phase
  split at phase
  · rw [Worker.hasEnded, phase]
  · split at phase
    · rw [Worker.hasEnded, phase]
    · rename_i unflagged inTime
      rw [Bool.not_eq_true] at unflagged inTime
      rw [calls_iff.mpr ⟨unflagged, inTime⟩] at stops
      cases stops

end Slot

/-- A failure ends a worker exactly if it makes the row of failures long enough. -/
theorem Worker.HasSeen.phase_afterFailure {w : Worker} {rs : List TrialResult}
    (seen : w.HasSeen rs) (phase : w.phase = .calling) (e : TrialError) :
    (w.afterFailure e).phase =
      if w.limit ≤ failureRow rs + 1 then .stopped (.failed e.message) else .head := by
  have after := seen.receive_failure phase e
  have cases : (w.afterFailure e).phase = .stopped (.failed e.message) ∨
      (w.afterFailure e).phase = .head := by
    simp only [afterFailure]
    split
    · exact .inl rfl
    · exact .inr rfl
  rcases cases with stopped | goesOn
  · obtain ⟨_, _, _, _, row, _⟩ := after.fits_of stopped
    have reached : w.limit ≤ failureRow rs + 1 := by
      rw [← failureRow_concat_failure, row]
      rfl
    rw [stopped, if_pos reached]
  · obtain ⟨unconcluded, _⟩ := after.fits_of goesOn
    have last := unconcluded _ (List.prefix_refl _)
    have below : ¬ w.limit ≤ failureRow rs + 1 := fun reached => by
      have ends := concludes_failure_iff (e := e).mpr reached
      rw [show (w.afterFailure e).limit = w.limit from rfl, ends] at last
      cases last
    rw [goesOn, if_neg below]

namespace Crew

/-- A crew consists of one worker, which began as `first` with a registry and stands
where the answers `rs` have brought it. It has recorded the outcomes among them. -/
structure Stands (registry : Registry) (first : Worker) (rs : List TrialResult) (w : Worker)
    (c : Crew) : Prop where
  members : c.members = [w]
  recorded : c.registry =
    registry.recordAll first.slot.experiment first.historyCapacity (outcomesOf rs)
  began : w.Began first
  seen : w.HasSeen rs

namespace Stands

variable {registry : Registry} {first w v : Worker} {rs : List TrialResult} {c : Crew}
  {s : Sight} {f : Bool} {n : Instant} {result : TrialResult}

theorem sees_eq (stands : Stands registry first rs w c) (s : Sight) :
    c.sees s = alone c.registry s.flagged s.now w := by
  rw [sees, stands.members]
  rfl

/-- The worker has taken a turn in which it adds nothing. -/
theorem turn (stands : Stands registry first rs w c) {received : Option TrialResult}
    (turns : w.Turns received none v) (nothing : outcomesOf received.toList = []) :
    Stands registry first (rs ++ received.toList) v (alone c.registry f n v) where
  members := rfl
  recorded := by
    rw [outcomesOf_append, nothing, List.append_nil]
    exact stands.recorded
  began := stands.began.turn turns
  seen := stands.seen.turn turns

/-- A worker that has ended makes no further call. -/
theorem pass_of_ended (stands : Stands registry first rs w c) (ended : w.hasEnded = true)
    (s : Sight) : c.answerIn? s = none ∧ Stands registry first rs w (c.pass s) := by
  have looked : c.looks s = alone c.registry s.flagged s.now w := by
    rw [looks, stands.sees_eq, attempt_of_ended rfl ended, attempt_of_ended rfl ended]
  constructor
  · rw [answerIn?, looked, step_of_ended rfl ended]
    rfl
  · rw [Crew.pass, looked, call_of_ended _ ended]
    exact ⟨rfl, stands.recorded, stands.began, stands.seen⟩

/-- The looks of a worker that is at the head of its loop. -/
theorem looks (stands : Stands registry first rs w c) (head : w.phase = .head) (s : Sight) :
    ∃ v, v.phase = first.slot.phaseAtCall s ∧
      c.looks s = alone c.registry s.flagged s.now v ∧ Stands registry first rs v (c.looks s) := by
  have seen := stands.turn (f := s.flagged) (n := s.now) (.looksAtFlag head s.flagged) rfl
  rw [Option.toList_none, List.append_nil] at seen
  have looked : (c.sees s).attempt (.flagSeen 0) = alone c.registry s.flagged s.now
      (w.inPhase (if s.flagged then .stopped .cancelled else .unflagged)) := by
    rw [stands.sees_eq, attempt_flagSeen, Worker.lookAtFlag, head, Option.getD_some]
  rw [Crew.looks, looked]
  cases flagged : s.flagged with
  | true =>
      rw [flagged, if_pos rfl] at seen
      rw [if_pos rfl, attempt_of_ended rfl rfl, Slot.phaseAtCall, flagged, if_pos rfl]
      exact ⟨_, rfl, rfl, seen⟩
  | false =>
      rw [flagged, if_neg Bool.false_ne_true] at seen
      have unflagged : (w.inPhase .unflagged).phase = .unflagged := rfl
      have timed := seen.turn (f := false) (n := s.now) (.looksAtClock unflagged s.now) rfl
      rw [Option.toList_none, List.append_nil] at timed
      rw [if_neg Bool.false_ne_true, attempt_clockSeen, Worker.lookAtClock, unflagged,
        Option.getD_some, Slot.phaseAtCall, flagged, if_neg Bool.false_ne_true,
        ← stands.began.slot]
      exact ⟨_, rfl, rfl, timed⟩

/-- A call that returns no outcome. -/
theorem call_without_outcome (stands : Stands registry first rs w c)
    {result : TrialResult} (turns : w.Turns (some result) none v)
    (received : w.receive result = some v) (free : v.phase.held? = none)
    (nothing : result.outcome? = none) :
    Stands registry first (rs ++ [result]) v ((alone c.registry f n w).call result) := by
  have none : outcomesOf [result] = [] := by
    rw [outcomesOf, List.filterMap_cons_none nothing, List.filterMap_nil]
  rw [Crew.call, attempt_answered received, hands_nothing_over free]
  exact stands.turn turns none

/-- A call that returns an outcome, which is then recorded. -/
theorem call_with_outcome (stands : Stands registry first rs w c) (calling : w.phase = .calling)
    (o : Outcome) :
    ∃ v, v.phase = .head ∧
      Stands registry first (rs ++ [.outcome o]) v
        ((alone c.registry f n w).call (.outcome o)) := by
  let holding : Worker := { w with consecutiveFailures := 0, phase := .holding o }
  have received : w.receive (.outcome o) = some holding := by
    rw [Worker.receive, calling]
  rw [Crew.call, attempt_answered received, attempt_obtained_of_holding rfl,
    attempt_added_of_admitting rfl]
  have receives : w.Turns (some (.outcome o)) none holding := .receives calling o
  have finds := Worker.Turns.finds (w := holding) rfl
    (c.registry.obtainWith w.slot.experiment w.historyCapacity).1
  have adds := Worker.Turns.adds (w := holding.inPhase (.admitting
    (c.registry.obtainWith w.slot.experiment w.historyCapacity).1 o)) rfl
    (History.admission_add_eq_ignored_iff
      ((c.registry.obtainWith w.slot.experiment w.historyCapacity).2.history
        (c.registry.obtainWith w.slot.experiment w.historyCapacity).1) o)
  refine ⟨_, rfl, rfl, ?_, ((stands.began.turn receives).turn finds).turn adds, ?_⟩
  · rw [outcomesOf_append, outcomesOf_outcome, Registry.recordAll_concat, ← stands.recorded,
      ← stands.began.slot, ← stands.began.historyCapacity]
    rfl
  · have seen := ((stands.seen.turn receives).turn finds).turn adds
    rw [Option.toList_none, List.append_nil, List.append_nil] at seen
    exact seen

/-- Where a call brings a worker. -/
theorem call (stands : Stands registry first rs w c) (calling : w.phase = .calling)
    (result : TrialResult) :
    ∃ v, v.phase = Phase.afterAnswer first.limit rs result ∧
      Stands registry first (rs ++ [result]) v ((alone c.registry f n w).call result) := by
  cases result with
  | outcome o => exact stands.call_with_outcome calling o
  | exhausted =>
      refine ⟨w.inPhase (.stopped .exhausted), rfl,
        stands.call_without_outcome (.runsOut calling) ?_ rfl rfl⟩
      rw [Worker.receive, calling]
  | failure e =>
      have phase := stands.seen.phase_afterFailure calling e
      rw [stands.began.limit_eq] at phase
      refine ⟨w.afterFailure e, phase,
        stands.call_without_outcome (.fails calling e) ?_ ?_ rfl⟩
      · rw [Worker.receive, calling]
      · rw [phase]
        split <;> rfl
  | panic p =>
      refine ⟨w.inPhase (.panicked p), rfl,
        stands.call_without_outcome (.panics calling p) ?_ rfl rfl⟩
      rw [Worker.receive, calling]

/-- One pass of a worker that is at the head of its loop. -/
theorem pass (stands : Stands registry first rs w c) (head : w.phase = .head) (s : Sight) :
    c.answerIn? s = first.slot.answer? s ∧
      ∃ v, v.phase = first.slot.phaseAfter first.limit rs s ∧
        Stands registry first (rs ++ (first.slot.answer? s).toList) v (c.pass s) := by
  obtain ⟨v, phase, looked, standing⟩ := stands.looks head s
  rw [looked] at standing
  rw [answerIn?, Crew.pass, looked, Slot.answer?, Slot.phaseAfter]
  cases calls : first.slot.calls s with
  | false =>
      have ended := Slot.hasEnded_of_phaseAtCall calls phase
      rw [step_of_ended rfl ended, call_of_ended _ ended, if_neg Bool.false_ne_true,
        if_neg Bool.false_ne_true, Option.toList_none, List.append_nil]
      exact ⟨rfl, v, phase, standing⟩
  | true =>
      have calling := phase.trans (Slot.phaseAtCall_of_calls calls)
      obtain ⟨u, received⟩ : ∃ u, v.receive s.answer = some u := by
        unfold Worker.receive
        rw [calling]
        exact ⟨_, rfl⟩
      rw [if_pos rfl, if_pos rfl, Option.toList_some, step_answered, received]
      exact ⟨rfl, standing.call calling s.answer⟩

end Stands
end Crew

end RankedSearch
