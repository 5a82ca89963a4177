import RankedSearch.Proofs.Continuation
import RankedSearch.Proofs.Crew.Stopping
import RankedSearch.Proofs.Registry.Generations

/-!
# What a worker leaves in a registry

A worker on its own records the outcomes that its source has returned, and does nothing
else to a registry, however it ends (`Crew.stands_after_passes`). What that makes of the
entry of its experiment is told by ranking (`Registry.retains_of_live`): whoever filled a
history before, a worker goes on with what is still in it.

So the effect of a worker is determined by its outcomes and the entry that it finds
(`Crew.leaves_just_its_outcomes`), and without an outcome there is none: an entry is made
when the first outcome is there, not when a worker starts, fails or is stopped.
-/

set_option autoImplicit false

namespace RankedSearch

/-- The entries of a registry that clients have used retain some outcomes, as the front of
their ranking. -/
theorem Registry.retains_of_live {base : Registry} (fresh : base.isEmpty = true)
    (cs : List Command) {x : ExperimentId} {h : Handle} {old : History}
    (entry : (base.after cs).entryOf? x = some (h, old)) : ∃ os, old.Retains os := by
  obtain ⟨k, live, same⟩ := Option.map_eq_some_iff.mp entry
  cases same
  have vacant : base.live = [] := List.isEmpty_iff.mp fresh
  have whole : cs.take cs.length = cs := List.take_length
  rw [← whole] at live
  obtain ⟨i, c, capacity, before, there, makes⟩ := made_of_live vacant le_rfl live
  have contents := history_after_made there makes before le_rfl
  rw [whole] at contents
  rw [contents]
  exact ⟨_, History.retains_addAll _ _ _⟩

/-- A pass from the head of the loop comes back there or ends the worker. -/
theorem Slot.head_or_ended {slot : Slot} {limit : Nat} {rs : List TrialResult} {s : Sight}
    {w : Worker} (phase : w.phase = slot.phaseAfter limit rs s) :
    w.phase = .head ∨ w.hasEnded = true := by
  cases calls : slot.calls s with
  | false =>
      rw [phaseAfter, calls, if_neg Bool.false_ne_true] at phase
      exact .inr (hasEnded_of_phaseAtCall calls phase)
  | true =>
      rw [phaseAfter, calls, if_pos rfl] at phase
      cases answer : s.answer with
      | outcome o =>
          rw [answer] at phase
          exact .inl phase
      | exhausted | panic =>
          rw [answer] at phase
          exact .inr (by simp [Worker.hasEnded, phase, Phase.afterAnswer])
      | failure e =>
          rw [answer, Phase.afterAnswer] at phase
          split at phase
          · exact .inr (by simp [Worker.hasEnded, phase])
          · exact .inl phase

namespace Crew

variable {registry : Registry} {first : Worker}

/-- After any number of passes a worker stands where its answers have brought it. -/
theorem stands_after_passes (registry : Registry) (f : Bool) (n : Instant)
    (head : first.phase = .head) (seen : first.HasSeen []) (sights : Nat → Sight) (k : Nat) :
    ∃ w, (w.phase = .head ∨ w.hasEnded = true) ∧
      Stands registry first ((alone registry f n first).answersIn sights k) w
        ((alone registry f n first).passes sights k) := by
  induction k with
  | zero => exact ⟨first, .inl head, rfl, rfl, ⟨rfl, rfl, rfl, id, fun _ => rfl⟩, seen⟩
  | succ k ih =>
      obtain ⟨w, working | ended, stands⟩ := ih
      · obtain ⟨answer, v, phase, standing⟩ := stands.pass working (sights k)
        rw [answersIn_succ, answer]
        exact ⟨v, Slot.head_or_ended phase, standing⟩
      · obtain ⟨uncalled, standing⟩ := stands.pass_of_ended ended (sights k)
        rw [answersIn_succ, uncalled, Option.toList_none, List.append_nil]
        exact ⟨w, .inr ended, standing⟩

/-- **A worker leaves just its outcomes in a registry.** It may find any registry that
clients have used. After any number of passes, ended or not, it has changed no entry of
another experiment and no other history that anyone holds, and without an outcome it has
changed nothing, whatever else its source did. Its outcomes are in the entry that there
was, as the same object with its old capacity, or else in a new object of the capacity
that the worker was given, at least one. Either retains the front of the stable sort of
what was in it before and the complete outcomes of the worker, and counts the others. -/
theorem leaves_just_its_outcomes {base : Registry} (fresh : base.isEmpty = true)
    (cs : List Registry.Command) (slot : Slot) (capacity : Nat) (limit : UInt32) (f : Bool)
    (n : Instant) (sights : Nat → Sight) (k : Nat) :
    let registry := base.after cs
    let run := alone registry f n (starter slot registry capacity limit)
    let left := (run.passes sights k).registry
    let os := outcomesOf (run.answersIn sights k)
    (∀ x, x ≠ slot.experiment → left.entryOf? x = registry.entryOf? x) ∧
    (∀ h, registry.Holds h → registry.get? slot.experiment ≠ some h →
      left.history h = registry.history h) ∧
    (os = [] → left = registry) ∧
    (∀ h old, registry.entryOf? slot.experiment = some (h, old) →
      ∃ next, left.entryOf? slot.experiment = some (h, next) ∧ old.Continues os next) ∧
    (registry.entryOf? slot.experiment = none → os ≠ [] →
      ∃ h next, left.entryOf? slot.experiment = some (h, next) ∧ ¬ registry.Holds h ∧
        next.capacity = max capacity 1 ∧
        (History.new slot.experiment capacity).Continues os next) := by
  intro registry run left os
  have wellFormed : registry.WellFormed :=
    Registry.wellFormed_after (Registry.wellFormed_of_live_eq_nil (List.isEmpty_iff.mp fresh)) cs
  obtain ⟨w, _, stands⟩ := stands_after_passes registry f n rfl
    (hasSeen_starter slot registry capacity limit) sights k
  have recorded : left = registry.recordAll slot.experiment capacity os := stands.recorded
  have entry := Registry.entryOf?_recordAll wellFormed slot.experiment capacity os
  rw [← recorded] at entry
  refine ⟨?_, ?_, ?_, ?_, ?_⟩
  · intro x different
    rw [recorded]
    exact Registry.entryOf?_recordAll_of_ne wellFormed different capacity os
  · intro h held apart
    rw [recorded]
    exact (Registry.history_recordAll_of_held ⟨held, apart⟩ capacity os).2
  · intro nothing
    rw [recorded, nothing]
    rfl
  · intro h old found
    obtain ⟨past, retains⟩ := Registry.retains_of_live fresh cs found
    refine ⟨old.addAll os, ?_, retains.continues os⟩
    rw [entry, Registry.entryOrNew, found]
    split
    · rename_i nothing
      rw [nothing]
      rfl
    · rfl
  · intro absent something
    refine ⟨⟨registry.histories.length⟩, (History.new slot.experiment capacity).addAll os,
      ?_, ?_, ?_, ?_⟩
    · rw [entry, if_neg something, Registry.entryOrNew, absent]
      rfl
    · exact Nat.lt_irrefl _
    · exact History.capacity_addAll _ os
    · exact (History.retains_empty (some slot.experiment) capacity).continues os

/-! ### A full history that a panic leaves behind -/

namespace Sample

open History.Sample (quarter three four trial)

/-- What clients do before a worker starts: a history of two has to drop an outcome. -/
def filling (digit : Fin 16) : List Registry.Command :=
  [.obtainWith (slot digit).experiment 2, .add ⟨0⟩ (trial three "kept"),
    .add ⟨0⟩ (trial four "dropped"), .add ⟨0⟩ (trial quarter "best")]

def filled (digit : Fin 16) : Registry := (Registry.withCapacity 9).after (filling digit)

/-- The worker's outcomes come between a failure and a panic. -/
def unsteady (i : Nat) : Sight :=
  ⟨false, ⟨i⟩,
    [.failure (.search "a"), .outcome aborted, .outcome (trial three "tied"),
      .outcome (trial quarter "again"), .panic .other].getD i .exhausted⟩

/-- Nothing but failures, until the flag is set. -/
def hopeless (i : Nat) : Sight := ⟨decide (2 ≤ i), ⟨i⟩, .failure (.search "a")⟩

end Sample

theorem full_history_goes_on :
    let left (sights : Nat → Sight) := ((alone (Sample.filled 7) false ⟨0⟩
      (starter (Sample.slot 7) (Sample.filled 7) 5 4)).passes sights 6).registry
    (∃ next, (left Sample.unsteady).entryOf? (Sample.slot 7).experiment = some (⟨0⟩, next) ∧
      next.capacity = 2 ∧ next.all.map Outcome.summary = ["best", "again"] ∧
      next.evicted = 3 ∧ next.ignored = 1) ∧
    left Sample.hopeless = Sample.filled 7 := by
  intro left
  have effect := @leaves_just_its_outcomes (Registry.withCapacity 9) rfl (Sample.filling 7)
    (Sample.slot 7) 5 4 false ⟨0⟩
  obtain ⟨_, _, _, kept, _⟩ := effect Sample.unsteady 6
  obtain ⟨_, _, unchanged, _, _⟩ := effect Sample.hopeless 6
  obtain ⟨next, entry, continues⟩ := kept ⟨0⟩ ((Sample.filled 7).history ⟨0⟩) rfl
  refine ⟨⟨next, entry, continues.capacity, ?_, ?_, ?_⟩, unchanged (by decide +kernel)⟩
  · have shown : ((left Sample.unsteady).entryOf? (Sample.slot 7).experiment).map
        (fun found => found.2.all.map Outcome.summary) = some ["best", "again"] := by
      decide +kernel
    change (left Sample.unsteady).entryOf? _ = _ at entry
    rw [entry] at shown
    exact Option.some.inj shown
  · rw [continues.evicted]
    decide +kernel
  · rw [continues.ignored]
    decide +kernel

end Crew
end RankedSearch
