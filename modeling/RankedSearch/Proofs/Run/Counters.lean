import RankedSearch.Proofs.Crew.Stopping
import RankedSearch.Proofs.Run.Report

/-!
# The counters of a worker

A worker counts its failures in a row in a word, and after each failure it compares the row
with its limit, which is a word too. So the row is below the limit whenever a failure can
come, and one more makes it at most as long as the limit (`Worker.Turns.bounded`).

Its other counts come to the number of its calls. A call that ends in neither an outcome nor
a failure ends the worker, and an outcome is counted before the worker is at the head of its
loop again, so there each call has been counted once (`Worker.Counts.at_head`). The calls are
not read off their results: `Run.callsOf` sees them when they begin.

The worker shares its counters with nobody, so every event of a run keeps both laws
(`Run.counts_of_steps`).
-/

set_option autoImplicit false

namespace RankedSearch

/-! ## One turn -/

namespace Worker

/-- Whether the source of a worker is working. -/
def inCall (w : Worker) : Bool := decide (w.phase = .calling)

variable {w w' first : Worker} {rs : List TrialResult} {received : Option TrialResult}
  {added : Option Outcome} {calls : Nat}

/-- The calls that are open before a turn or begun in it come to a result in it or are open
after it. -/
theorem Turns.open_calls (turns : w.Turns received added w') :
    w.inCall.toNat + (!w.inCall && w'.inCall).toNat = received.toList.length + w'.inCall.toNat := by
  cases turns with
  | looksAtFlag phase flagged =>
      simp only [inCall, inPhase, phase]
      cases flagged <;> rfl
  | looksAtClock phase now =>
      simp only [inCall, inPhase, phase]
      cases w.slot.deadlinePassed now <;> rfl
  | fails phase e =>
      simp only [inCall, afterFailure, phase]
      split <;> rfl
  | receives phase | runsOut phase | panics phase | finds phase | adds phase =>
      simp only [inCall, inPhase, phase]
      rfl

/-- A turn keeps the row of failures at or below the limit. -/
theorem Turns.bounded (turns : w.Turns received added w') (seen : w.HasSeen rs)
    (bounded : w.consecutiveFailures.toNat ≤ w.limit) :
    w'.consecutiveFailures.toNat ≤ w'.limit := by
  cases turns with
  | fails phase e =>
      have goesOn : w.hasEnded = false := by rw [hasEnded, phase]
      show (w.consecutiveFailures + 1).toNat ≤ w.limit
      rw [seen.toNat_row_succ goesOn]
      exact seen.row_lt goesOn
  | receives => exact Nat.zero_le _
  | looksAtFlag | looksAtClock | runsOut | panics | finds | adds => exact bounded

/-- A worker that began as `first`, got the results `rs` and made a number of calls. -/
structure Counts (w first : Worker) (rs : List TrialResult) (calls : Nat) : Prop where
  began : w.Began first
  seen : w.HasSeen rs
  bounded : w.consecutiveFailures.toNat ≤ w.limit
  /-- Every call but the one that its source is working on has come to a result. -/
  answered : calls = rs.length + w.inCall.toNat

theorem Counts.turn (counts : w.Counts first rs calls) (turns : w.Turns received added w') :
    w'.Counts first (rs ++ received.toList) (calls + (!w.inCall && w'.inCall).toNat) where
  began := counts.began.turn turns
  seen := counts.seen.turn turns
  bounded := turns.bounded counts.seen counts.bounded
  answered := by
    rw [counts.answered, Nat.add_assoc, turns.open_calls, List.length_append, Nat.add_assoc]

/-- At the head of the loop the row of failures is the one that the results end with, and the
other counts come to the number of calls. -/
theorem Counts.at_head (counts : w.Counts first rs calls) (head : w.phase = .head) :
    w.consecutiveFailures.toNat < first.limit ∧
      w.consecutiveFailures.toNat = failureRow rs ∧
      w.tally.recorded + w.tally.ignored + w.tally.failures = calls := by
  obtain ⟨unconcluded, row⟩ := counts.seen.fits_of head
  refine ⟨?_, row, ?_⟩
  · rw [← counts.began.limit_eq]
    exact counts.seen.row_lt (by rw [hasEnded, head])
  · have closed : w.inCall = false := by rw [inCall, head]; rfl
    rw [counts.seen.all_counted (by rw [head]; rfl), unconcluded.sum_counts, counts.answered,
      closed]
    rfl

end Worker

/-! ## All events -/

namespace Run

variable {r₀ r r' : Run} {e : RunEvent} {es : List RunEvent} {i : Nat} {first : Worker}

/-- Whether the source of the worker in a slot is working. -/
def inCall (r : Run) (i : Nat) : Bool := r.crew.members[i]?.any Worker.inCall

/-- An event in which the worker in a slot calls its source: the source works after it and
did not before. -/
def call? (i : Nat) (r : Run) (e : RunEvent) : Option RunEvent :=
  if !r.inCall i && (r.attempt e).inCall i then some e else none

/-- The calls that the worker in a slot makes in several events. -/
def callsOf (i : Nat) (r : Run) (es : List RunEvent) : List RunEvent := r.observe (call? i) es

theorem length_callsOf_concat (reached : r₀.steps es = some r) (stepped : r.step e = some r')
    (i : Nat) : (r₀.callsOf i (es ++ [e])).length =
      (r₀.callsOf i es).length + (!r.inCall i && r'.inCall i).toNat := by
  have attempted : r.attempt e = r' := by rw [attempt, stepped, Option.getD_some]
  rw [callsOf, observe_concat _ reached, List.length_append, call?, attempted, ← callsOf]
  cases !r.inCall i && r'.inCall i <;> rfl

/-- **What a worker has counted after any events.** -/
theorem counts_of_steps (here : r₀.crew.members[i]? = some first) (fresh : first.Counts first [] 0)
    (reached : r₀.steps es = some r) :
    ∃ w, r.crew.members[i]? = some w ∧
      w.Counts first (resultsOf i es) (r₀.callsOf i es).length := by
  refine steps_rec (motive := fun es r => ∃ w, r.crew.members[i]? = some w ∧
    w.Counts first (resultsOf i es) (r₀.callsOf i es).length) ⟨first, here, fresh⟩ ?_ reached
  rintro es e r r' reached ⟨w, here, counts⟩ stepped
  rw [resultsOf_concat, length_callsOf_concat reached stepped]
  rcases (moves_of_step stepped).slot i with
    ⟨same, result, _⟩ | ⟨v, w', _, before, there, turns, _⟩ | ⟨_, _, _, outside, _, _⟩
  · have still : r'.inCall i = r.inCall i := by rw [inCall, inCall, same]
    rw [result, still, Bool.not_and_self]
    refine ⟨w, same.trans here, ?_⟩
    rw [Option.toList_none, List.append_nil]
    exact counts
  · obtain rfl : w = v := Option.some.inj (here.symm.trans before)
    refine ⟨w', there, ?_⟩
    rw [inCall, inCall, here, there]
    exact counts.turn turns
  · -- A preparation fills an empty slot, and there is a worker in this one.
    rw [outside, List.getElem?_eq_none (Nat.le_refl _)] at here
    cases here

/-- **The row of failures stays below the limit.** A worker starts with any failure limit,
zero acting as one, in any company. Whatever happens then, the word in which it counts its
failures in a row never exceeds the limit, and counting one more failure never wraps. At the
head of its loop the row is strictly below the limit and as long as the row of failures that
the results of its calls end with, and the outcomes that it recorded, those that were ignored
and the failures are together as many as the calls that it has made. -/
theorem failure_row_stays_below_limit {slot : Slot} {registry : Registry} {capacity : Nat}
    {limit : UInt32}
    (here : r₀.crew.members[i]? = some (Crew.starter slot registry capacity limit))
    (reached : r₀.steps es = some r) :
    let bound := max limit.toNat 1
    ∃ w, r.crew.members[i]? = some w ∧
      w.limit = bound ∧
      w.consecutiveFailures.toNat ≤ bound ∧
      (∀ e next, w.receive (.failure e) = some next →
        next.consecutiveFailures.toNat = w.consecutiveFailures.toNat + 1) ∧
      (w.phase = .head →
        w.consecutiveFailures.toNat < bound ∧
        w.consecutiveFailures.toNat = failureRow (resultsOf i es) ∧
        w.tally.recorded + w.tally.ignored + w.tally.failures = (r₀.callsOf i es).length) := by
  intro bound
  have seen := Crew.hasSeen_starter slot registry capacity limit
  have started : bound = (Crew.starter slot registry capacity limit).limit :=
    (Crew.limit_starter slot registry capacity limit).symm
  obtain ⟨w, there, counts⟩ := counts_of_steps here
    ⟨(Worker.serves_nil seen rfl).began, seen, Nat.zero_le _, rfl⟩ reached
  have kept := counts.began.limit_eq
  rw [started]
  refine ⟨w, there, kept, kept ▸ counts.bounded, ?_, counts.at_head⟩
  · intro e next received
    simp only [Worker.receive] at received
    split at received
    · rename_i phase
      cases received
      exact counts.seen.toNat_row_succ (by rw [Worker.hasEnded, phase])
    · cases received

/-! ### A row of failures that an incomplete outcome breaks -/

namespace Sample

/-- The run with two workers that have not started. -/
def launched (digit : Fin 16) : Run := ((run digit).launch "a").launch "b"

/-- The first worker fails twice, returns an incomplete outcome and fails again. In between
the second one returns an outcome and the caller asks to stop. -/
def faltering : List RunEvent :=
  call 0 (.failure (.search "a")) ++ call 0 (.failure (.search "b")) ++
    call 1 (.outcome (outcome one "best")) ++
    call 0 (.outcome (Outcome.incomplete ⟨0, 0⟩ "aborted")) ++ hand 1 ++ hand 0 ++
    [.crew (.flagSeen 0), .crew (.clockSeen 0), .interrupted,
      .crew (.answered 0 (.failure (.search "c")))]

end Sample

theorem row_begins_again_after_incomplete_outcome :
    ∃ r w, (Sample.launched 7).steps Sample.faltering = some r ∧
      r.crew.members[0]? = some w ∧ w.phase = .head ∧
      w.consecutiveFailures.toNat < 3 ∧ w.consecutiveFailures.toNat = 1 ∧
      w.tally.recorded + w.tally.ignored + w.tally.failures = 4 := by
  obtain ⟨r, reached⟩ := Option.isSome_iff_exists.mp
    (show ((Sample.launched 7).steps Sample.faltering).isSome by decide +kernel)
  have here : (Sample.launched 7).crew.members[0]? = some (Crew.starter
      ((Sample.run 7).nextSlot "a") (Sample.run 7).crew.registry 2 3) := rfl
  obtain ⟨w, there, _, _, _, atHead⟩ := failure_row_stays_below_limit here reached
  have phase : (((Sample.launched 7).steps Sample.faltering).bind fun r =>
      r.crew.members[0]?.map Worker.phase) = some .head := by
    decide +kernel
  rw [reached, Option.bind_some, there, Option.map_some, Option.some.injEq] at phase
  obtain ⟨below, row, counted⟩ := atHead phase
  exact ⟨r, w, reached, there, phase, below, row.trans (by decide +kernel),
    counted.trans (by decide +kernel)⟩

end Run
end RankedSearch
