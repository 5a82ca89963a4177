import RankedSearch.Proofs.Crew.Alone
import RankedSearch.Proofs.ExactValue
import RankedSearch.Proofs.Worker.Conclusion

/-!
# Why a worker stops

A worker on its own has five reasons to stop, and the first pass in which one of
them holds ends it: the flag, then the clock, then what its source answers
(`Stops`). A failed call is a reason only if it ends a row of failures that is as
long as the limit says, and anything else that a call returns breaks such a row
(`le_failureRow_firstAnswers_iff`).

Until then every pass brings one more answer, and afterwards the source is not
called any more, by induction over the passes (`Crew.stands_at_head`,
`Crew.stands_after_reason`). So the flags, times and answers that a worker meets
determine all that it does (`Crew.stops_at_first_reason`).
-/

set_option autoImplicit false

namespace RankedSearch

/-! ## Reasons to stop -/

/-- The answers of a source that is called in each of the first `k` passes. -/
def firstAnswers (sights : Nat → Sight) (k : Nat) : List TrialResult :=
  (List.range k).map fun i => (sights i).answer

/-- A reason that ends a worker in pass `i`, if it has called its source in every pass
before: with the number of answers that it has got in the end, and its last phase. -/
inductive Stops (slot : Slot) (limit : Nat) (sights : Nat → Sight) (i : Nat) : Nat → Phase → Prop
  | cancelled (flagged : (sights i).flagged = true) :
      Stops slot limit sights i i (.stopped .cancelled)
  | timedOut (unflagged : (sights i).flagged = false)
      (late : slot.deadlinePassed (sights i).now = true) :
      Stops slot limit sights i i (.stopped .timedOut)
  | exhausted (calls : slot.calls (sights i) = true) (answer : (sights i).answer = .exhausted) :
      Stops slot limit sights i (i + 1) (.stopped .exhausted)
  /-- The last answers, as many as the limit says, are failures. -/
  | failed (calls : slot.calls (sights i) = true) {e : TrialError}
      (answer : (sights i).answer = .failure e) (enough : limit ≤ i + 1)
      (row : ∀ j ≤ i, i < j + limit → (sights j).answer.isFailure = true) :
      Stops slot limit sights i (i + 1) (.stopped (.failed e.message))
  | panicked (calls : slot.calls (sights i) = true) {p : Panic}
      (answer : (sights i).answer = .panic p) :
      Stops slot limit sights i (i + 1) (.panicked p)

section Reasons

variable {slot : Slot} {limit i m : Nat} {sights : Nat → Sight} {p : Phase}

theorem firstAnswers_succ (sights : Nat → Sight) (k : Nat) :
    firstAnswers sights (k + 1) = firstAnswers sights k ++ [(sights k).answer] := by
  rw [firstAnswers, List.range_succ, List.map_append]
  rfl

/-- A row of failures is long enough exactly if the last answers are failures. -/
theorem le_failureRow_firstAnswers_iff (sights : Nat → Sight) (limit k : Nat) :
    limit ≤ failureRow (firstAnswers sights k) ↔
      limit ≤ k ∧ ∀ j < k, k ≤ j + limit → (sights j).answer.isFailure = true := by
  induction k generalizing limit with
  | zero =>
      show limit ≤ 0 ↔ _
      exact ⟨fun none => ⟨none, fun j absurdity => absurd absurdity (Nat.not_lt_zero j)⟩, And.left⟩
  | succ k ih =>
      rw [firstAnswers_succ]
      cases limit with
      | zero =>
          refine iff_of_true (Nat.zero_le _) ⟨Nat.zero_le _, fun j before reached => ?_⟩
          omega
      | succ limit =>
          cases answer : (sights k).answer with
          | failure e =>
              rw [failureRow_concat_failure, Nat.succ_le_succ_iff, ih]
              constructor
              · rintro ⟨enough, row⟩
                refine ⟨Nat.succ_le_succ enough, fun j before reached => ?_⟩
                rcases Nat.lt_succ_iff_lt_or_eq.mp before with earlier | rfl
                · exact row j earlier (by omega)
                · rw [answer]
                  rfl
              · rintro ⟨enough, row⟩
                exact ⟨Nat.le_of_succ_le_succ enough,
                  fun j before reached => row j (Nat.lt_succ_of_lt before) (by omega)⟩
          | outcome | exhausted | panic =>
              rw [failureRow_concat_of_not_failure rfl]
              refine iff_of_false (Nat.not_succ_le_zero limit) fun ⟨_, row⟩ => ?_
              have last := row k (Nat.lt_succ_self k) (by omega)
              rw [answer] at last
              cases last

theorem Stops.phaseAfter_eq (stops : Stops slot limit sights i m p) :
    slot.phaseAfter limit (firstAnswers sights i) (sights i) = p ∧
      firstAnswers sights i ++ (slot.answer? (sights i)).toList = firstAnswers sights m := by
  cases stops with
  | cancelled flagged =>
      have uncalled : slot.calls (sights i) = false := by rw [Slot.calls, flagged]; rfl
      rw [Slot.phaseAfter, Slot.answer?, uncalled, if_neg Bool.false_ne_true,
        if_neg Bool.false_ne_true, Option.toList_none, List.append_nil, Slot.phaseAtCall,
        if_pos flagged]
      exact ⟨rfl, rfl⟩
  | timedOut unflagged late =>
      have uncalled : slot.calls (sights i) = false := by rw [Slot.calls, unflagged, late]; rfl
      rw [Slot.phaseAfter, Slot.answer?, uncalled, if_neg Bool.false_ne_true,
        if_neg Bool.false_ne_true, Option.toList_none, List.append_nil, Slot.phaseAtCall,
        unflagged, if_neg Bool.false_ne_true, if_pos late]
      exact ⟨rfl, rfl⟩
  | exhausted calls answer =>
      rw [Slot.phaseAfter, Slot.answer?, if_pos calls, if_pos calls, Option.toList_some,
        firstAnswers_succ, answer]
      exact ⟨rfl, rfl⟩
  | failed calls answer enough row =>
      have reached : limit ≤ failureRow (firstAnswers sights i) + 1 := by
        have whole := (le_failureRow_firstAnswers_iff sights limit (i + 1)).mpr
          ⟨enough, fun j before reached => row j (Nat.le_of_lt_succ before) reached⟩
        rwa [firstAnswers_succ, answer, failureRow_concat_failure] at whole
      rw [Slot.phaseAfter, Slot.answer?, if_pos calls, if_pos calls, Option.toList_some,
        firstAnswers_succ, answer, Phase.afterAnswer, if_pos reached]
      exact ⟨rfl, rfl⟩
  | panicked calls answer =>
      rw [Slot.phaseAfter, Slot.answer?, if_pos calls, if_pos calls, Option.toList_some,
        firstAnswers_succ, answer]
      exact ⟨rfl, rfl⟩

theorem Stops.hasEnded {w : Worker} (stops : Stops slot limit sights i m p) (phase : w.phase = p) :
    w.hasEnded = true := by
  cases stops <;> rw [Worker.hasEnded, phase]

/-- Without a reason to stop, a pass comes back to the head. -/
theorem phaseAfter_of_not_stops (goesOn : ∀ m p, ¬ Stops slot limit sights i m p) :
    slot.phaseAfter limit (firstAnswers sights i) (sights i) = .head ∧
      slot.answer? (sights i) = some (sights i).answer := by
  have calls : slot.calls (sights i) = true := by
    refine Slot.calls_iff.mpr ⟨?_, ?_⟩
    · exact Bool.eq_false_iff.mpr fun flagged => goesOn _ _ (.cancelled flagged)
    · refine Bool.eq_false_iff.mpr fun late => ?_
      cases flagged : (sights i).flagged with
      | true => exact goesOn _ _ (.cancelled flagged)
      | false => exact goesOn _ _ (.timedOut flagged late)
  rw [Slot.phaseAfter, Slot.answer?, if_pos calls, if_pos calls]
  refine ⟨?_, rfl⟩
  cases answer : (sights i).answer with
  | outcome o => rfl
  | exhausted => exact absurd (.exhausted calls answer) (goesOn _ _)
  | panic p => exact absurd (.panicked calls answer) (goesOn _ _)
  | failure e =>
      refine if_neg fun reached => goesOn (i + 1) (.stopped (.failed e.message)) ?_
      rw [← failureRow_concat_failure (e := e), ← answer, ← firstAnswers_succ,
        le_failureRow_firstAnswers_iff] at reached
      exact .failed calls answer reached.1
        fun j before near => reached.2 j (Nat.lt_succ_of_le before) near

end Reasons

namespace Crew

/-! ## All passes -/

variable {registry : Registry} {first : Worker} {sights : Nat → Sight} {i k m : Nat} {p : Phase}

theorem answersIn_succ (c : Crew) (sights : Nat → Sight) (k : Nat) :
    c.answersIn sights (k + 1) =
      c.answersIn sights k ++ ((c.passes sights k).answerIn? (sights k)).toList := by
  rw [answersIn, answersIn, List.range_succ, List.filterMap_append, List.filterMap_cons,
    List.filterMap_nil]
  cases (c.passes sights k).answerIn? (sights k) <;> rfl

/-- Before there is a reason to stop, every pass brings the worker back to the head of
its loop, with one more answer. -/
theorem stands_at_head (registry : Registry) (f : Bool) (n : Instant)
    (head : first.phase = .head) (seen : first.HasSeen [])
    (goesOn : ∀ i < k, ∀ m p, ¬ Stops first.slot first.limit sights i m p) :
    (alone registry f n first).answersIn sights k = firstAnswers sights k ∧
      ∃ w, w.phase = .head ∧ Stands registry first (firstAnswers sights k) w
        ((alone registry f n first).passes sights k) := by
  induction k with
  | zero =>
      exact ⟨rfl, first, head, rfl, rfl, ⟨rfl, rfl, rfl, id, fun _ => rfl⟩, seen⟩
  | succ k ih =>
      obtain ⟨answers, w, here, stands⟩ := ih fun i before => goesOn i (Nat.lt_succ_of_lt before)
      obtain ⟨back, called⟩ := phaseAfter_of_not_stops (goesOn k (Nat.lt_succ_self k))
      obtain ⟨answer, v, phase, standing⟩ := stands.pass here (sights k)
      rw [called, Option.toList_some, ← firstAnswers_succ] at standing
      refine ⟨?_, v, phase.trans back, standing⟩
      rw [answersIn_succ, answers, answer, called, firstAnswers_succ]
      rfl

/-- From the pass on in which the first reason to stop holds, the worker stands where
it has stopped. -/
theorem stands_after_reason (registry : Registry) (f : Bool) (n : Instant)
    (head : first.phase = .head) (seen : first.HasSeen [])
    (stops : Stops first.slot first.limit sights i m p)
    (goesOn : ∀ j < i, ∀ m p, ¬ Stops first.slot first.limit sights j m p) (later : i < k) :
    (alone registry f n first).answersIn sights k = firstAnswers sights m ∧
      ∃ w, w.phase = p ∧ Stands registry first (firstAnswers sights m) w
        ((alone registry f n first).passes sights k) := by
  induction k, later using Nat.le_induction with
  | base =>
      obtain ⟨answers, w, here, stands⟩ := stands_at_head registry f n head seen goesOn
      obtain ⟨last, all⟩ := stops.phaseAfter_eq
      obtain ⟨answer, v, phase, standing⟩ := stands.pass here (sights i)
      rw [all] at standing
      refine ⟨?_, v, phase.trans last, standing⟩
      rw [answersIn_succ, answers, answer, all]
  | succ k later ih =>
      obtain ⟨answers, w, here, stands⟩ := ih
      obtain ⟨uncalled, standing⟩ := stands.pass_of_ended (stops.hasEnded here) (sights k)
      refine ⟨?_, w, here, standing⟩
      rw [answersIn_succ, answers, uncalled, Option.toList_none, List.append_nil]

/-- A worker as it starts, with a failure limit and a capacity for the history that it
makes. -/
def starter (slot : Slot) (registry : Registry) (capacity : Nat) (limit : UInt32) : Worker :=
  ((Worker.new slot registry).withHistoryCapacity capacity).withMaxConsecutiveFailures limit

theorem limit_starter (slot : Slot) (registry : Registry) (capacity : Nat) (limit : UInt32) :
    (starter slot registry capacity limit).limit = max limit.toNat 1 :=
  Worker.toNat_max_one limit

theorem hasSeen_starter (slot : Slot) (registry : Registry) (capacity : Nat) (limit : UInt32) :
    (starter slot registry capacity limit).HasSeen [] := by
  refine Worker.hasSeen_nil_of_head ?_ rfl rfl rfl
  rw [limit_starter]
  exact Nat.lt_of_lt_of_le Nat.one_pos (Nat.le_max_right _ _)

/-- The report of a worker that stopped of itself. -/
theorem Stands.report?_eq {rs : List TrialResult} {w : Worker} {c : Crew} {exit : WorkerExit}
    (stands : Stands registry first rs w c) (phase : w.phase = .stopped exit) :
    w.report? = some ((Tally.ofResults rs).report first.slot.index first.slot.seed exit) := by
  have counted : w.tally = Tally.ofResults rs := stands.seen.all_counted (by rw [phase]; rfl)
  rw [Worker.report?, phase, counted, stands.began.slot]
  rfl

/-- The outcomes among the answers are in the entry of the experiment. -/
theorem Stands.entryOf?_eq {rs : List TrialResult} {w : Worker} {c : Crew}
    (stands : Stands registry first rs w c) (wellFormed : registry.WellFormed) :
    c.registry.entryOf? first.slot.experiment =
      if outcomesOf rs = [] then registry.entryOf? first.slot.experiment else
        some ((registry.entryOrNew first.slot.experiment first.historyCapacity).1,
          (registry.entryOrNew first.slot.experiment first.historyCapacity).2.addAll
            (outcomesOf rs)) := by
  rw [stands.recorded]
  exact Registry.entryOf?_recordAll wellFormed _ _ _

/-- **A worker stops for the first reason that there is.** As long as there is none,
every pass brings it back to the head of its loop and it has got one answer in each;
the first reason, in the order of `Stops`, determines its last phase and the number of
its answers, whatever comes later. Its report counts the complete outcomes, the
incomplete ones and the failures among these answers and has the least of their
scores. The outcomes among the answers have been added to the history of its
experiment in order, which is made for the first of them if there is none. A call that
panics is the last answer, so just the outcomes before it have been added. -/
theorem stops_at_first_reason (wellFormed : registry.WellFormed) (slot : Slot) (capacity : Nat)
    (limit : UInt32) (f : Bool) (n : Instant) (sights : Nat → Sight) :
    let run := alone registry f n (starter slot registry capacity limit)
    let reason := Stops slot (max limit.toNat 1) sights
    let entryWith (os : List Outcome) := if os = [] then registry.entryOf? slot.experiment else
      some ((registry.entryOrNew slot.experiment capacity).1,
        (registry.entryOrNew slot.experiment capacity).2.addAll os)
    (∀ k, (∀ i < k, ∀ m p, ¬ reason i m p) →
      ∃ w, (run.passes sights k).members = [w] ∧ w.phase = .head ∧
        run.answersIn sights k = firstAnswers sights k ∧
        (run.passes sights k).registry.entryOf? slot.experiment =
          entryWith (outcomesOf (firstAnswers sights k))) ∧
    ∀ i m p, reason i m p → (∀ j < i, ∀ l q, ¬ reason j l q) → ∀ k, i < k →
      let got := firstAnswers sights m
      ∃ w, (run.passes sights k).members = [w] ∧ w.phase = p ∧ run.answersIn sights k = got ∧
        (run.passes sights k).registry.entryOf? slot.experiment = entryWith (outcomesOf got) ∧
        ∀ exit, p = .stopped exit →
          ∃ report, w.report? = some report ∧ report.workerIndex = slot.index ∧
            report.seed = slot.seed ∧ report.exit = exit ∧
            report.recorded = (outcomesOf got).countP Outcome.isComplete ∧
            report.ignored = (outcomesOf got).countP (fun o => !o.isComplete) ∧
            report.failures = got.countP TrialResult.isFailure ∧
            Binary64.LeastOf report.bestScore
              (((outcomesOf got).filterMap Outcome.score).map Score.word) := by
  intro run reason entryWith
  have seen := hasSeen_starter slot registry capacity limit
  have reasons : reason = Stops (starter slot registry capacity limit).slot
      (starter slot registry capacity limit).limit sights := by
    rw [limit_starter]
    rfl
  clear_value reason
  subst reasons
  constructor
  · intro k goesOn
    obtain ⟨answers, w, phase, stands⟩ := stands_at_head (k := k) registry f n rfl seen
      goesOn
    exact ⟨w, stands.members, phase, answers, stands.entryOf?_eq wellFormed⟩
  · intro i m p stops goesOn k later got
    obtain ⟨answers, w, phase, stands⟩ := stands_after_reason registry f n rfl seen stops
      goesOn later
    refine ⟨w, stands.members, phase, answers, stands.entryOf?_eq wellFormed, ?_⟩
    rintro exit rfl
    exact ⟨_, stands.report?_eq phase, rfl, rfl, rfl, rfl, rfl, rfl, Binary64.leastOf_min? _⟩

/-! ### A row of failures after two that were broken -/

namespace Sample

def slot (digit : Fin 16) : Slot :=
  ⟨⟨List.ofFn fun _ => digit, List.length_ofFn⟩, 3, 126, 10, "a", none⟩

def best : Outcome :=
  Outcome.ofScore ⟨0, 0⟩ (some ⟨⟨0x3FE8000000000000⟩, by decide, by decide⟩) "best"

def aborted : Outcome := Outcome.incomplete ⟨0, 0⟩ "aborted"

/-- Two failures in a row come only after an aborted and a finished trial. The flag is
set when the worker has ended. -/
def attempts (i : Nat) : Sight :=
  ⟨decide (6 ≤ i), ⟨i⟩,
    [.failure (.search "a"), .outcome aborted, .failure (.search "b"), .outcome best,
      .failure (.search "c"), .failure (.search "d")].getD i .exhausted⟩

/-- The last of the attempts is the first reason to stop. -/
theorem stops_at_last :
    Stops (slot 7) 2 attempts 5 6 (.stopped (.failed (TrialError.search "d").message)) := by
  refine .failed (e := .search "d") (by decide) rfl (by decide) fun j before near => ?_
  have row : ∀ j ≤ 5, 5 < j + 2 → (attempts j).answer.isFailure = true := by decide
  exact row j before near

theorem not_stops_before {j m : Nat} {p : Phase} (before : j < 5) :
    ¬ Stops (slot 7) 2 attempts j m p := by
  intro stops
  have back : ∀ j < 5, (slot 7).phaseAfter 2 (firstAnswers attempts j) (attempts j) = .head := by
    decide +kernel
  have last := stops.phaseAfter_eq.1
  rw [back j before] at last
  subst last
  cases stops

end Sample

theorem stops_at_second_failure_in_a_row :
    let run := (alone (Registry.withCapacity 9) false ⟨0⟩
      (starter (Sample.slot 7) (Registry.withCapacity 9) 4 2)).passes Sample.attempts 9
    ∃ w report, run.members = [w] ∧ w.report? = some report ∧
      report.exit = .failed (TrialError.search "d").message ∧
      report.recorded = 1 ∧ report.ignored = 1 ∧ report.failures = 4 ∧
      run.registry.entryOf? (Sample.slot 7).experiment =
        some (⟨0⟩,
          (History.new (Sample.slot 7).experiment 4).addAll [Sample.aborted, Sample.best]) := by
  intro run
  obtain ⟨_, stopped⟩ := @stops_at_first_reason (Registry.withCapacity 9)
    (Registry.wellFormed_withCapacity 9) (Sample.slot 7) 4 2 false ⟨0⟩ Sample.attempts
  obtain ⟨w, members, _, _, entry, reported⟩ := stopped 5 6 _ Sample.stops_at_last
    (fun _ before _ _ => Sample.not_stops_before before) 9 (by decide)
  obtain ⟨report, made, _, _, exit, recorded, ignored, failures, _⟩ := reported _ rfl
  have outcomes : outcomesOf (firstAnswers Sample.attempts 6) = [Sample.aborted, Sample.best] := by
    decide +kernel
  rw [outcomes] at entry recorded ignored
  exact ⟨w, report, members, made, exit, recorded, ignored, failures, entry⟩

end Crew
end RankedSearch
