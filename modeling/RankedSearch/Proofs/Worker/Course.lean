import Mathlib.Data.List.DropRight
import RankedSearch.Proofs.ScoreOrder
import RankedSearch.Worker.Basic

/-!
# The course of a worker

Whatever else happens around it, a worker knows of its trials only the results
of its calls. They determine its counts (`Tally.ofResults`), its row of failures
(`failureRow`) and whether it has called for the last time (`concludes`). The
relation `Worker.HasSeen` says that a worker stands where given results have
brought it.

`Worker.Turns` lists what a worker can do in one step, with the result that it
receives and the outcome that it adds. A turn keeps `HasSeen` (`HasSeen.turn`),
and what a worker held before it and receives in it is what it adds in it and
holds after it (`Turns.balance`).
-/

set_option autoImplicit false

namespace RankedSearch

/-! ## Results -/

namespace TrialResult

/-- The outcome that a call returned, if it returned one. -/
def outcome? : TrialResult → Option Outcome
  | .outcome o => some o
  | .exhausted | .failure _ | .panic _ => none

/-- Whether a call failed. -/
def isFailure : TrialResult → Bool
  | .failure _ => true
  | .outcome _ | .exhausted | .panic _ => false

end TrialResult

/-- The outcomes among the results of several calls. -/
def outcomesOf (rs : List TrialResult) : List Outcome := rs.filterMap TrialResult.outcome?

/-- The number of failures at the end of several results. -/
def failureRow (rs : List TrialResult) : Nat := (rs.rtakeWhile TrialResult.isFailure).length

/-- Whether the last of several results ends a worker with a failure limit. -/
def concludes (limit : Nat) (rs : List TrialResult) : Bool :=
  match rs.getLast? with
  | some .exhausted | some (.panic _) => true
  | some (.failure _) => decide (limit ≤ failureRow rs)
  | some (.outcome _) | none => false

/-- No result so far has ended the worker. -/
def Unconcluded (limit : Nat) (rs : List TrialResult) : Prop :=
  ∀ front, front <+: rs → concludes limit front = false

/-- The counts that the results of several calls amount to. -/
def Tally.ofResults (rs : List TrialResult) : Tally where
  recorded := (outcomesOf rs).countP Outcome.isComplete
  ignored := (outcomesOf rs).countP fun o => !o.isComplete
  failures := rs.countP TrialResult.isFailure
  best := ((outcomesOf rs).filterMap Outcome.score).min?

section Results

variable {limit : Nat} {rs : List TrialResult} {o : Outcome} {e : TrialError} {p : Panic}

@[simp] theorem outcomesOf_nil : outcomesOf [] = [] := rfl

@[simp] theorem outcomesOf_append (rs ss : List TrialResult) :
    outcomesOf (rs ++ ss) = outcomesOf rs ++ outcomesOf ss := List.filterMap_append

@[simp] theorem outcomesOf_outcome (o : Outcome) : outcomesOf [.outcome o] = [o] := rfl

@[simp] theorem outcomesOf_exhausted : outcomesOf [.exhausted] = [] := rfl

@[simp] theorem outcomesOf_failure (e : TrialError) : outcomesOf [.failure e] = [] := rfl

@[simp] theorem outcomesOf_panic (p : Panic) : outcomesOf [.panic p] = [] := rfl

@[simp] theorem failureRow_concat_failure :
    failureRow (rs ++ [.failure e]) = failureRow rs + 1 := by
  rw [failureRow, List.rtakeWhile_concat_pos _ _ _ rfl, List.length_append]
  rfl

theorem failureRow_concat_of_not_failure {r : TrialResult} (other : r.isFailure = false) :
    failureRow (rs ++ [r]) = 0 := by
  rw [failureRow, List.rtakeWhile_concat_neg _ _ _ (by simp [other])]
  rfl

theorem unconcluded_nil : Unconcluded limit [] := by
  intro front inside
  rw [List.prefix_nil.mp inside]
  rfl

theorem Unconcluded.concat {r : TrialResult} (before : Unconcluded limit rs)
    (goesOn : concludes limit (rs ++ [r]) = false) : Unconcluded limit (rs ++ [r]) := by
  intro front inside
  rcases List.prefix_concat_iff.mp inside with rfl | earlier
  · exact goesOn
  · exact before front earlier

/-- A worker that goes on is below its failure limit. -/
theorem Unconcluded.failureRow_lt (unconcluded : Unconcluded limit rs) (positive : 0 < limit) :
    failureRow rs < limit := by
  have last := unconcluded rs (List.prefix_refl rs)
  cases rs using List.reverseRecOn with
  | nil => exact positive
  | append_singleton front r =>
      cases r with
      | failure e => simpa [concludes] using last
      | outcome o | exhausted | panic p =>
          rw [failureRow_concat_of_not_failure rfl]
          exact positive

theorem concludes_exhausted : concludes limit (rs ++ [.exhausted]) = true := by
  simp [concludes]

theorem concludes_panic : concludes limit (rs ++ [.panic p]) = true := by
  simp [concludes]

theorem concludes_outcome : concludes limit (rs ++ [.outcome o]) = false := by
  simp [concludes]

theorem concludes_failure_iff :
    concludes limit (rs ++ [.failure e]) = true ↔ limit ≤ failureRow rs + 1 := by
  simp [concludes]

/-- An added outcome is counted by its score, because only an incomplete one is ignored. -/
theorem Tally.credit_ofResults {admission : Admission}
    (ignoredIff : admission = .ignored ↔ o.score = none) :
    (Tally.ofResults rs).credit admission o.score = Tally.ofResults (rs ++ [.outcome o]) := by
  cases score : o.score with
  | none =>
      rw [Tally.credit, if_pos (ignoredIff.mpr score)]
      simp [Tally.ofResults, Outcome.isComplete, score, TrialResult.isFailure]
  | some s =>
      have admitted : admission ≠ .ignored := fun ignored => by
        rw [ignoredIff.mp ignored] at score
        cases score
      rw [Tally.credit, if_neg admitted]
      simp only [Tally.ofResults, outcomesOf_append, outcomesOf_outcome, List.countP_append,
        List.countP_singleton, Outcome.isComplete, score, Option.isSome_some, if_true,
        Bool.not_true, Bool.false_eq_true, if_false, TrialResult.isFailure, Nat.add_zero,
        List.filterMap_append, List.filterMap_cons, List.filterMap_nil]
      congr 1
      cases List.filterMap Outcome.score (outcomesOf rs) with
      | nil => rfl
      | cons best rest =>
          simp only [List.cons_append, List.min?_cons', List.foldl_append, List.foldl_cons,
            List.foldl_nil]
          rfl

@[simp] theorem Tally.ofResults_exhausted :
    Tally.ofResults (rs ++ [.exhausted]) = Tally.ofResults rs := by
  simp [Tally.ofResults, TrialResult.isFailure]

@[simp] theorem Tally.ofResults_panic :
    Tally.ofResults (rs ++ [.panic p]) = Tally.ofResults rs := by
  simp [Tally.ofResults, TrialResult.isFailure]

@[simp] theorem Tally.ofResults_failure :
    Tally.ofResults (rs ++ [.failure e]) = (Tally.ofResults rs).fail := by
  simp [Tally.ofResults, Tally.fail, TrialResult.isFailure]

/-- A worker goes on after outcomes and failures only. -/
theorem Unconcluded.length_eq (unconcluded : Unconcluded limit rs) :
    (outcomesOf rs).length + rs.countP TrialResult.isFailure = rs.length := by
  induction rs using List.reverseRecOn with
  | nil => rfl
  | append_singleton rs r ih =>
      have before := ih fun front inside =>
        unconcluded front (inside.trans (List.prefix_append rs [r]))
      have last := unconcluded _ (List.prefix_refl _)
      rw [outcomesOf_append, List.length_append, List.countP_append, List.length_append, ← before]
      cases r with
      | outcome o => exact Nat.add_right_comm _ 1 _
      | failure e => exact (Nat.add_assoc _ _ 1).symm
      | exhausted =>
          rw [concludes_exhausted] at last
          cases last
      | panic p =>
          rw [concludes_panic] at last
          cases last

/-- The counts of a worker that goes on come to the number of its results. -/
theorem Unconcluded.sum_counts (unconcluded : Unconcluded limit rs) :
    (Tally.ofResults rs).recorded + (Tally.ofResults rs).ignored + (Tally.ofResults rs).failures =
      rs.length := by
  have outcomes : (Tally.ofResults rs).recorded + (Tally.ofResults rs).ignored =
      (outcomesOf rs).length := by
    rw [List.length_eq_countP_add_countP Outcome.isComplete]
    simp [Tally.ofResults]
  rw [outcomes]
  exact unconcluded.length_eq

end Results

/-! ## Where results bring a worker -/

/-- The outcome that a worker has received and not yet added. -/
def Phase.held? : Phase → Option Outcome
  | .holding o | .admitting _ o => some o
  | .head | .unflagged | .calling | .stopped _ | .panicked _ => none

/-- A phase that a worker with a failure limit can be in after given results,
when it counts a row of failures. -/
def Phase.Fits (limit row : Nat) (rs : List TrialResult) : Phase → Prop
  | .head | .unflagged | .calling | .holding _ | .admitting _ _
  | .stopped .cancelled | .stopped .timedOut => Unconcluded limit rs ∧ row = failureRow rs
  | .stopped .exhausted => ∃ front, rs = front ++ [.exhausted] ∧ Unconcluded limit front
  | .stopped (.failed reason) => ∃ front e, rs = front ++ [.failure e] ∧ reason = e.message ∧
      failureRow rs = limit ∧ Unconcluded limit front
  | .panicked p => ∃ front, rs = front ++ [.panic p] ∧ Unconcluded limit front
  | .stopped (.prepareFailed _) => rs = []
  | .stopped (.panicked _) => False

namespace Worker

/-- The failure limit of a worker as a number. -/
def limit (w : Worker) : Nat := w.maxConsecutiveFailures.toNat

/-- A failure limit of zero acts as one. -/
theorem toNat_max_one (limit : UInt32) : (max limit 1).toNat = max limit.toNat 1 := by
  show (if limit ≤ 1 then 1 else limit).toNat = _
  split
  · rename_i small
    exact (max_eq_right (UInt32.le_iff_toNat_le.mp small)).symm
  · rename_i large
    have above : 1 ≤ limit.toNat :=
      Nat.le_of_not_le fun small => large (UInt32.le_iff_toNat_le.mpr small)
    exact (max_eq_left above).symm

/-- A worker stands where the results of its calls have brought it. -/
structure HasSeen (w : Worker) (rs : List TrialResult) : Prop where
  limited : 0 < w.limit
  /-- An outcome that is held is not yet counted. -/
  counted : ∃ dealt, rs = dealt ++ (w.phase.held?.map TrialResult.outcome).toList ∧
    w.tally = Tally.ofResults dealt
  fits : w.phase.Fits w.limit w.consecutiveFailures.toNat rs

variable {w : Worker} {rs : List TrialResult} {o : Outcome} {e : TrialError} {p : Panic}

theorem hasSeen_nil_of_head (limited : 0 < w.limit) (phase : w.phase = .head)
    (tally : w.tally = Tally.zero) (row : w.consecutiveFailures = 0) : w.HasSeen [] where
  limited := limited
  counted := ⟨[], by simp [phase, Phase.held?], tally⟩
  fits := by
    rw [phase, row]
    exact ⟨unconcluded_nil, rfl⟩

theorem hasSeen_unprepared (slot : Slot) (reason : String) :
    (unprepared slot reason).HasSeen [] where
  limited := Nat.one_pos
  counted := ⟨[], rfl, rfl⟩
  fits := rfl

namespace HasSeen

theorem fits_of (seen : w.HasSeen rs) {phase : Phase} (here : w.phase = phase) :
    phase.Fits w.limit w.consecutiveFailures.toNat rs := here ▸ seen.fits

/-- A step that neither receives nor adds anything. -/
theorem inPhase (seen : w.HasSeen rs) {next : Phase} (held : next.held? = w.phase.held?)
    (fits : next.Fits w.limit w.consecutiveFailures.toNat rs) : (w.inPhase next).HasSeen rs where
  limited := seen.limited
  counted := held ▸ seen.counted
  fits := fits

theorem all_counted (seen : w.HasSeen rs) (free : w.phase.held? = none) :
    w.tally = Tally.ofResults rs := by
  obtain ⟨dealt, whole, tally⟩ := seen.counted
  rw [free, Option.map_none, Option.toList_none, List.append_nil] at whole
  exact whole ▸ tally

theorem receive_outcome (seen : w.HasSeen rs) (phase : w.phase = .calling) (o : Outcome) :
    HasSeen { w with consecutiveFailures := 0, phase := .holding o } (rs ++ [.outcome o]) where
  limited := seen.limited
  counted := ⟨rs, rfl, seen.all_counted (phase ▸ rfl)⟩
  fits := by
    obtain ⟨unconcluded, _⟩ := seen.fits_of phase
    exact ⟨unconcluded.concat concludes_outcome, (failureRow_concat_of_not_failure rfl).symm⟩

theorem receive_exhausted (seen : w.HasSeen rs) (phase : w.phase = .calling) :
    HasSeen (w.inPhase (.stopped .exhausted)) (rs ++ [.exhausted]) where
  limited := seen.limited
  counted := ⟨rs ++ [.exhausted], by simp [Worker.inPhase, Phase.held?], by
    rw [Tally.ofResults_exhausted]
    exact seen.all_counted (phase ▸ rfl)⟩
  fits := ⟨rs, rfl, (seen.fits_of phase).1⟩

theorem receive_panic (seen : w.HasSeen rs) (phase : w.phase = .calling) (p : Panic) :
    HasSeen (w.inPhase (.panicked p)) (rs ++ [.panic p]) where
  limited := seen.limited
  counted := ⟨rs ++ [.panic p], by simp [Worker.inPhase, Phase.held?], by
    rw [Tally.ofResults_panic]
    exact seen.all_counted (phase ▸ rfl)⟩
  fits := ⟨rs, rfl, (seen.fits_of phase).1⟩

/-- A worker that goes on has seen fewer failures in a row than end it. -/
theorem row_lt (seen : w.HasSeen rs) (goesOn : w.hasEnded = false) :
    w.consecutiveFailures.toNat < w.limit := by
  have below (fits : Unconcluded w.limit rs ∧ w.consecutiveFailures.toNat = failureRow rs) :
      w.consecutiveFailures.toNat < w.limit := fits.2 ▸ fits.1.failureRow_lt seen.limited
  cases phase : w.phase with
  | head | unflagged | calling | holding o | admitting h o => exact below (seen.fits_of phase)
  | stopped | panicked =>
      simp only [hasEnded, phase] at goesOn
      cases goesOn

/-- Counting one more failure does not wrap, because the limit is a word too. -/
theorem toNat_row_succ (seen : w.HasSeen rs) (goesOn : w.hasEnded = false) :
    (w.consecutiveFailures + 1).toNat = w.consecutiveFailures.toNat + 1 := by
  have below := seen.row_lt goesOn
  have limitLt : w.limit < 2 ^ 32 := w.maxConsecutiveFailures.toNat_lt
  rw [UInt32.toNat_add, UInt32.toNat_one]
  exact Nat.mod_eq_of_lt (by omega)

theorem receive_failure (seen : w.HasSeen rs) (phase : w.phase = .calling) (e : TrialError) :
    (w.afterFailure e).HasSeen (rs ++ [.failure e]) := by
  obtain ⟨unconcluded, row⟩ := seen.fits_of phase
  have below := unconcluded.failureRow_lt seen.limited
  have counted : (w.consecutiveFailures + 1).toNat = failureRow rs + 1 := by
    rw [seen.toNat_row_succ (by rw [hasEnded, phase]), row]
  have reached : w.maxConsecutiveFailures ≤ w.consecutiveFailures + 1 ↔
      w.limit ≤ failureRow rs + 1 := by
    rw [UInt32.le_iff_toNat_le, counted]
    rfl
  have held : (w.afterFailure e).phase.held? = none := by
    simp only [afterFailure]
    split <;> rfl
  refine ⟨seen.limited, ⟨rs ++ [.failure e], by simp [held], ?_⟩, ?_⟩
  · rw [Tally.ofResults_failure, ← seen.all_counted (phase ▸ rfl)]
    rfl
  · by_cases last : w.maxConsecutiveFailures ≤ w.consecutiveFailures + 1
    · have atLimit := reached.mp last
      simp only [afterFailure, if_pos last]
      refine ⟨rs, e, rfl, rfl, ?_, unconcluded⟩
      rw [failureRow_concat_failure]
      exact Nat.le_antisymm below atLimit
    · simp only [afterFailure, if_neg last]
      refine ⟨unconcluded.concat (Bool.eq_false_iff.mpr fun ends => ?_), ?_⟩
      · exact last (reached.mpr (concludes_failure_iff.mp ends))
      · rw [failureRow_concat_failure, counted]

theorem credit (seen : w.HasSeen rs) {h : Handle} (phase : w.phase = .admitting h o)
    {admission : Admission} (ignoredIff : admission = .ignored ↔ o.score = none) :
    HasSeen { w with tally := w.tally.credit admission o.score, phase := .head } rs where
  limited := seen.limited
  counted := by
    obtain ⟨dealt, whole, tally⟩ := seen.counted
    rw [phase] at whole
    refine ⟨rs, by simp [Phase.held?], ?_⟩
    rw [whole, tally]
    exact Tally.credit_ofResults ignoredIff
  fits := by
    obtain ⟨unconcluded, row⟩ := seen.fits_of phase
    exact ⟨unconcluded, row⟩

end HasSeen

/-! ## Turns -/

/-- What a worker can do in one step: it may receive a result, and it may add an
outcome. -/
inductive Turns (w : Worker) : Option TrialResult → Option Outcome → Worker → Prop
  | looksAtFlag (phase : w.phase = .head) (flagged : Bool) :
      Turns w none none (w.inPhase (if flagged then .stopped .cancelled else .unflagged))
  | looksAtClock (phase : w.phase = .unflagged) (now : Instant) :
      Turns w none none
        (w.inPhase (if w.slot.deadlinePassed now then .stopped .timedOut else .calling))
  | receives (phase : w.phase = .calling) (o : Outcome) :
      Turns w (some (.outcome o)) none { w with consecutiveFailures := 0, phase := .holding o }
  | runsOut (phase : w.phase = .calling) :
      Turns w (some .exhausted) none (w.inPhase (.stopped .exhausted))
  | fails (phase : w.phase = .calling) (e : TrialError) :
      Turns w (some (.failure e)) none (w.afterFailure e)
  | panics (phase : w.phase = .calling) (p : Panic) :
      Turns w (some (.panic p)) none (w.inPhase (.panicked p))
  | finds {o : Outcome} (phase : w.phase = .holding o) (h : Handle) :
      Turns w none none (w.inPhase (.admitting h o))
  | adds {h : Handle} {o : Outcome} (phase : w.phase = .admitting h o) {admission : Admission}
      (ignoredIff : admission = .ignored ↔ o.score = none) :
      Turns w none (some o)
        { w with tally := w.tally.credit admission o.score, phase := .head }

section Turns

variable {w' : Worker} {received : Option TrialResult} {added : Option Outcome}

theorem HasSeen.turn (seen : w.HasSeen rs) (turns : w.Turns received added w') :
    w'.HasSeen (rs ++ received.toList) := by
  cases turns with
  | looksAtFlag phase flagged =>
      rw [Option.toList_none, List.append_nil]
      refine seen.inPhase ?_ ?_
      · rw [phase]
        cases flagged <;> rfl
      · obtain ⟨unconcluded, row⟩ := seen.fits_of phase
        cases flagged <;> exact ⟨unconcluded, row⟩
  | looksAtClock phase now =>
      rw [Option.toList_none, List.append_nil]
      refine seen.inPhase ?_ ?_
      · rw [phase]
        cases w.slot.deadlinePassed now <;> rfl
      · obtain ⟨unconcluded, row⟩ := seen.fits_of phase
        cases w.slot.deadlinePassed now <;> exact ⟨unconcluded, row⟩
  | receives phase o => exact seen.receive_outcome phase o
  | runsOut phase => exact seen.receive_exhausted phase
  | fails phase e => exact seen.receive_failure phase e
  | panics phase p => exact seen.receive_panic phase p
  | finds phase h =>
      rw [Option.toList_none, List.append_nil]
      obtain ⟨unconcluded, row⟩ := seen.fits_of phase
      exact seen.inPhase (phase ▸ rfl) ⟨unconcluded, row⟩
  | adds phase ignoredIff =>
      rw [Option.toList_none, List.append_nil]
      exact seen.credit phase ignoredIff

/-- What a worker held and receives is what it adds and then holds. -/
theorem Turns.balance (turns : w.Turns received added w') :
    w.phase.held?.toList ++ outcomesOf received.toList =
      added.toList ++ w'.phase.held?.toList := by
  cases turns with
  | looksAtFlag phase flagged =>
      rw [phase]
      cases flagged <;> rfl
  | looksAtClock phase now =>
      rw [phase]
      simp only [inPhase]
      cases w.slot.deadlinePassed now <;> rfl
  | fails phase e =>
      rw [phase]
      simp only [afterFailure]
      split <;> rfl
  | receives phase | runsOut phase | panics phase | finds phase | adds phase =>
      rw [phase]
      rfl

/-- A turn changes neither the slot of a worker nor its settings. -/
theorem Turns.settings_kept (turns : w.Turns received added w') :
    w'.slot = w.slot ∧ w'.historyCapacity = w.historyCapacity ∧
      w'.maxConsecutiveFailures = w.maxConsecutiveFailures := by
  cases turns <;> exact ⟨rfl, rfl, rfl⟩

/-- Only a worker that was launched has a turn. -/
theorem Turns.launched (turns : w.Turns received added w') : w'.wasLaunched = true := by
  cases turns with
  | looksAtFlag phase flagged => cases flagged <;> rfl
  | looksAtClock phase now =>
      simp only [inPhase]
      cases w.slot.deadlinePassed now <;> rfl
  | fails phase e =>
      simp only [afterFailure, wasLaunched]
      split
      · rename_i reason stopped
        split at stopped <;> cases stopped
      · rfl
  | receives | runsOut | panics | finds | adds => rfl

/-- A worker that has ended has no turn. -/
theorem Turns.not_ended (turns : w.Turns received added w') : w.hasEnded = false := by
  cases turns with
  | looksAtFlag phase | looksAtClock phase | receives phase | runsOut phase | fails phase
  | panics phase | finds phase | adds phase => simp only [hasEnded, phase]

end Turns

/-- A worker that has ended holds nothing. -/
theorem held?_of_hasEnded (ended : w.hasEnded = true) : w.phase.held? = none := by
  cases phase : w.phase with
  | stopped | panicked => rfl
  | head | unflagged | calling | holding | admitting =>
      simp only [hasEnded, phase] at ended
      cases ended

/-! ## From the beginning on -/

/-- A worker that was another one at first: in the same slot and with the same
settings, launched if that one was, and still that one if it had ended at once. -/
structure Began (w first : Worker) : Prop where
  slot : w.slot = first.slot
  historyCapacity : w.historyCapacity = first.historyCapacity
  failureLimit : w.maxConsecutiveFailures = first.maxConsecutiveFailures
  launched : first.wasLaunched = true → w.wasLaunched = true
  ended : first.hasEnded = true → w = first

/-- A worker that began as `first`, stands where the results `rs` have brought it
and has added the outcomes `os`; the outcomes that it received are those and the
one that it holds. -/
structure Serves (w first : Worker) (rs : List TrialResult) (os : List Outcome) : Prop where
  began : w.Began first
  seen : w.HasSeen rs
  balance : outcomesOf rs = os ++ w.phase.held?.toList

section Serves

variable {w' first : Worker} {os : List Outcome} {received : Option TrialResult}
  {added : Option Outcome}

theorem Began.limit_eq (began : w.Began first) : w.limit = first.limit :=
  congrArg UInt32.toNat began.failureLimit

theorem Began.turn (began : w.Began first) (turns : w.Turns received added w') :
    w'.Began first := by
  obtain ⟨slot, historyCapacity, failureLimit⟩ := turns.settings_kept
  refine ⟨slot.trans began.slot, historyCapacity.trans began.historyCapacity,
    failureLimit.trans began.failureLimit, fun _ => turns.launched, fun ended => ?_⟩
  have stopped := began.ended ended ▸ ended
  rw [turns.not_ended] at stopped
  cases stopped

theorem serves_nil (seen : w.HasSeen []) (free : w.phase.held? = none) : w.Serves w [] [] where
  began := ⟨rfl, rfl, rfl, fun launched => launched, fun _ => rfl⟩
  seen := seen
  balance := by rw [free]; rfl

theorem Serves.turn (serves : w.Serves first rs os) (turns : w.Turns received added w') :
    w'.Serves first (rs ++ received.toList) (os ++ added.toList) where
  began := serves.began.turn turns
  seen := serves.seen.turn turns
  balance := by
    rw [outcomesOf_append, serves.balance, List.append_assoc, turns.balance, List.append_assoc]

/-- An ended worker has added every outcome that it received. -/
theorem Serves.added_eq (serves : w.Serves first rs os) (ended : w.hasEnded = true) :
    os = outcomesOf rs := by
  rw [serves.balance, held?_of_hasEnded ended, Option.toList_none, List.append_nil]

end Serves
end Worker
end RankedSearch
