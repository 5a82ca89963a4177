import Mathlib.Data.List.TFAE
import RankedSearch.Proofs.Run.Accounts
import RankedSearch.Proofs.Run.Entry

/-!
# Results of a run

A run has a result if the baseline or an outcome that some worker returned is
complete. Otherwise it reports the history of no experiment, and every other way to
ask for a result finds none (`result_iff_complete_outcome`). It does not matter
whether the entry of the run was never made or holds nothing.

A run that has a result reports the very history to which the baseline and all
workers added: whatever has been written so far was written to the live entry
(`targets_live_of_steps`), which stays the same until it is taken out.
-/

set_option autoImplicit false

namespace RankedSearch

/-! ## Histories that retain nothing -/

namespace History

variable {h : History} {os : List Outcome}

/-- A history retains nothing when nothing complete was handed in. -/
theorem Retains.isEmpty_iff (retains : h.Retains os) :
    h.isEmpty = true ↔ ∀ o ∈ os, o.isComplete = false := by
  have length := retains.length_entries
  have positive := retains.positive
  have none : h.entries.length = 0 ↔ os.countP Outcome.isComplete = 0 := by omega
  rw [isEmpty, List.isEmpty_iff_length_eq_zero, none, List.countP_eq_zero]
  simp only [Bool.not_eq_true]

theorem best?_eq_none_iff : h.best? = none ↔ h.isEmpty = true := by
  rw [best?, first?, Option.map_eq_none_iff, List.head?_eq_none_iff, isEmpty, List.isEmpty_iff]

theorem Retains.bestScore?_eq_none_iff (retains : h.Retains os) :
    h.bestScore? = none ↔ h.isEmpty = true := by
  rw [retains.bestScore?_eq, List.min?_eq_none_iff, List.filterMap_eq_nil_iff, retains.isEmpty_iff]
  simp only [Outcome.isComplete, Option.isSome_eq_false_iff, Option.isNone_iff_eq_none]

@[simp] theorem isEmpty_orSentinel (h : History) : h.orSentinel.isEmpty = h.isEmpty := by
  rw [isEmpty, isEmpty, entries_orSentinel]

/-- The history of an experiment is reported as that of none when it retains nothing. -/
theorem isSentinel_orSentinel {id : ExperimentId} (owner : h.owner = some id) :
    h.orSentinel.isSentinel = h.isEmpty := by
  rw [orSentinel]
  split
  · rename_i empty
    rw [empty]
    rfl
  · rename_i filled
    rw [Bool.not_eq_true] at filled
    rw [isSentinel, owner, filled]
    rfl

end History

/-! ## The history that is written to -/

/-- The history that a worker in this phase adds to. -/
def Phase.target? : Phase → Option Handle
  | .admitting h _ => some h
  | .head | .unflagged | .calling | .holding _ | .stopped _ | .panicked _ => none

/-- The history to which an event adds an outcome. -/
def Crew.target? (c : Crew) : CrewEvent → Option Handle
  | .added i => c.members[i]?.bind fun w => w.phase.target?
  | .flagSeen _ | .clockSeen _ | .flagRaised _ | .answered _ _ | .obtained _ | .elapsed _ => none

theorem Phase.eq_admitting_of_target? {p : Phase} {h : Handle} (target : p.target? = some h) :
    ∃ o, p = .admitting h o := by
  cases p with
  | admitting k o =>
      cases target
      exact ⟨o, rfl⟩
  | head | unflagged | calling | holding | stopped | panicked => cases target

namespace Run

variable {config : Config} {stat : String → Except IoError FileKind} {id : ExperimentId}
  {registry : Registry} {baseline : Option Outcome} {now : Instant} {time : Timestamp}
  {r₀ r r' : Run} {e : RunEvent} {es : List RunEvent} {os : List Outcome} {h k : Handle}

/-- The history to which an event adds an outcome. -/
def target? (r : Run) : RunEvent → Option Handle
  | .crew e => r.crew.target? e
  | .prepared _ | .joined _ | .interrupted | .raised | .finished _ | .dropped _ | .drained
  | .elsewhere _ => none

/-- The histories to which the workers add in several events, one for each addition. -/
def targets (r : Run) (es : List RunEvent) : List Handle := r.observe target? es

/-- The history to which a run adds its baseline, if it has one. -/
def baselineTarget? (config : Config) (id : ExperimentId) (registry : Registry)
    (baseline : Option Outcome) : Option Handle :=
  baseline.map fun _ => (registry.obtainWith id config.historyCapacity.toNat).1

/-- While somebody waits for the workers, an addition goes to the live entry. -/
theorem Collects.get?_of_target? (collects : r.Collects os) (target : r.target? e = some k) :
    r.crew.registry.get? r.id = some k := by
  cases e with
  | crew e =>
      cases e with
      | added i =>
          obtain ⟨w, here, found⟩ := Option.bind_eq_some_iff.mp target
          obtain ⟨o, phase⟩ := Phase.eq_admitting_of_target? found
          exact collects.found w (List.mem_of_getElem? here) k o phase
      | flagSeen | clockSeen | flagRaised | answered | obtained | elapsed => cases target
  | prepared | joined | interrupted | raised | finished | dropped | drained | elsewhere =>
      cases target

/-- Nobody waits any more once the entry has been taken out. -/
theorem Moves.keeps_of_tended (moves : r.Moves e r') (tended : r'.Tended) : e.polls = false := by
  cases moves with
  | finished | abandoned | drained => rcases tended with stage | ⟨d, stage⟩ <;> cases stage
  | launched | unplaced | refused | unwound | crew | joined | interrupted | raised | dropped
  | elsewhere => rfl

theorem Starts.get?_baselineTarget (starts : Starts config id registry baseline time r₀)
    (target : baselineTarget? config id registry baseline = some k) :
    r₀.crew.registry.get? r₀.id = some k := by
  rw [starts.ranked, starts.id_eq]
  obtain ⟨b, rfl, rfl⟩ := Option.map_eq_some_iff.mp target
  exact Registry.get?_obtainWith_self registry id config.historyCapacity.toNat

/-- As long as somebody waits for the workers, everything that was written was
written to the live entry. -/
theorem Starts.targets_live_of_steps (starts : Starts config id registry baseline time r₀)
    (fresh : registry.get? id = none) (reached : r₀.steps es = some r) (tended : r.Tended) :
    ∀ k ∈ (baselineTarget? config id registry baseline).toList ++ r₀.targets es,
      r.crew.registry.get? r.id = some k := by
  refine steps_induction
    (motive := fun es r => r.Tended →
      ∀ k ∈ (baselineTarget? config id registry baseline).toList ++ r₀.targets es,
        r.crew.registry.get? r.id = some k)
    (fun _ k member => ?_) (fun {es e r r'} reached ih moves tended k member => ?_) reached tended
  · rw [targets, observe, List.append_nil] at member
    exact starts.get?_baselineTarget (Option.mem_toList.mp member)
  · have before := moves.tended_before tended
    have course := course_of_steps starts.unmanned reached
    have live : r.crew.registry.get? r.id = some k := by
      rw [targets, observe_concat _ reached, ← List.append_assoc] at member
      rcases List.mem_append.mp member with earlier | now
      · exact ih before k earlier
      · have collects := collects_of_steps starts.unmanned (starts.collects fresh) reached before
        exact collects.get?_of_target? (Option.mem_toList.mp now)
    rw [moves.settings_kept.1]
    exact moves.get?_kept course live (moves.keeps_of_tended tended)

/-! ## The report -/

/-- A history that is taken out and retains something is the one that is reported. -/
theorem reportedHistory_of_live (live : registry.get? id = some h)
    (filled : (registry.history h).isEmpty = false) :
    (reportedHistory (registry.poll id).2 (registry.poll id).1).1 = h := by
  have polled : (registry.poll id).1 = some h := live
  rw [polled, reportedHistory, Registry.history_poll, filled]
  rfl

/-- A run that has collected something complete reports the live entry. -/
theorem Collects.closing_eq (collects : r.Collects os)
    (filled : ((History.new r.id r.config.historyCapacity.toNat).addAll os).isEmpty = false) :
    r.crew.registry.get? r.id = some r.closing.1 := by
  cases collects.entry with
  | absent missing nothing =>
      rw [nothing] at filled
      cases filled
  | @present h live held contents =>
      rw [closing, reportedHistory_of_live live (contents ▸ filled)]
      exact live

/-- What the workers have added is what their calls returned. -/
theorem Course.forall_additions_iff (course : Course r₀ es r)
    (ended : ∀ w ∈ r.crew.members, w.hasEnded = true) (p : Outcome → Prop) :
    (∀ o ∈ (r₀.additions es).map Prod.snd, p o) ↔ ∀ i, ∀ o ∈ outcomesOf (resultsOf i es), p o := by
  have share (i : Nat) (o : Outcome) :
      o ∈ outcomesOf (resultsOf i es) ↔ (i, o) ∈ r₀.additions es := by
    rw [← course.additionsBy_eq ended, additionsBy_eq_ownedBy, mem_ownedBy]
  constructor
  · intro all i o member
    exact all o (List.mem_map_of_mem ((share i o).mp member))
  · intro all o member
    obtain ⟨⟨i, _⟩, added, rfl⟩ := List.mem_map.mp member
    exact all i _ ((share i _).mpr added)

/-- The best score in the status is that of the reported history. -/
theorem bestScore_reportAt {moment : Timestamp} (finished : r.step (.finished moment) = some r')
    {reported : History} (contents : r'.reported? = some reported) :
    (r.reportAt moment).status.bestScore = reported.bestScore?.map Score.word := by
  cases moves_of_step finished with
  | finished =>
      have closing : r.closing.2.history r.closing.1 = reported := Option.some.inj contents
      rw [← closing]
      rfl

/-- **A run has a result exactly if something complete was handed in.** The reported
history is that of no experiment, the report has no result, no best outcome and no
best score: each of these says that neither the baseline nor any outcome that a call
of a worker returned was complete, whatever became of the workers. The history of no
experiment counts nothing, whatever incomplete outcomes were handed in. Any other
reported history is the one to which the baseline and all workers added, as an
object; it belongs to the experiment of the run and has the capacity of its
configuration. -/
theorem result_iff_complete_outcome
    (started : start config stat id registry baseline now time = .ok r₀)
    (fresh : registry.get? id = none) (reached : r₀.steps es = some r) {moment : Timestamp}
    (finished : r.step (.finished moment) = some r') :
    ∃ report h, r'.report? = some report ∧ r'.reported? = some h ∧
      List.TFAE [h.isSentinel = true, r'.hasResult = false, r'.best? = none,
        report.status.bestScore = none,
        (∀ b, baseline = some b → b.isComplete = false) ∧
          ∀ i, ∀ o ∈ outcomesOf (resultsOf i es), o.isComplete = false] ∧
      (h.isSentinel = true → h.size = 0 ∧ h.evicted = 0 ∧ h.ignored = 0) ∧
      (h.isSentinel = false →
        (∀ k ∈ (baselineTarget? config id registry baseline).toList ++ r₀.targets es,
          k = report.history) ∧
        h.owner = some report.status.id ∧ h.capacity = config.historyCapacity.toNat) := by
  have starts := starts_of_start started
  have course := course_of_steps starts.unmanned reached
  obtain ⟨ended, reports, _, contents⟩ := starts.finish fresh reached finished
  have retains := retains_collected id config
    (baseline.toList ++ (r₀.additions es).map Prod.snd)
  have bound := capacity_collected id config (baseline.toList ++ (r₀.additions es).map Prod.snd)
  have owner : (collected id config
      (baseline.toList ++ (r₀.additions es).map Prod.snd)).owner = some id :=
    History.owner_addAll _ _
  have best := bestScore_reportAt finished contents
  have sentinel := History.isSentinel_orSentinel owner
  refine ⟨r.reportAt moment, _, reports, contents, ?_, ?_, ?_⟩
  · -- Each of the statements says that the run has collected nothing.
    refine List.tfae_of_forall ((collected id config
      (baseline.toList ++ (r₀.additions es).map Prod.snd)).isEmpty = true) _ ?_
    simp only [List.forall_mem_cons, List.not_mem_nil, false_implies, implies_true, and_true]
    refine ⟨by rw [sentinel], ?_, ?_, ?_, ?_⟩
    · rw [hasResult, contents, Option.any_some, History.isEmpty_orSentinel, Bool.not_eq_false']
    · rw [best?, contents, Option.bind_some, History.best?_eq_none_iff, History.isEmpty_orSentinel]
    · rw [best, Option.map_eq_none_iff, History.bestScore?_orSentinel,
        retains.bestScore?_eq_none_iff]
    · rw [retains.isEmpty_iff, List.forall_mem_append, course.forall_additions_iff ended]
      simp only [Option.mem_toList]
  · intro empty
    rw [sentinel] at empty
    rw [History.orSentinel, if_pos empty]
    exact ⟨rfl, rfl, rfl⟩
  · intro filled
    rw [sentinel] at filled
    cases moves_of_step finished with
    | finished _ stage _ _ =>
        have collects := collects_of_steps starts.unmanned (starts.collects fresh) reached
          (.inl stage)
        have same : r.id = id := course.id.trans starts.id_eq
        have live := collects.closing_eq (by
          rw [course.config, starts.settings, same]
          exact filled)
        rw [History.orSentinel, if_neg (by rw [filled]; exact Bool.false_ne_true)]
        refine ⟨fun k member => ?_, owner.trans (congrArg some same.symm), ?_⟩
        · have written := starts.targets_live_of_steps fresh reached (.inl stage) k member
          exact Option.some.inj (written.symm.trans live)
        · exact bound.trans (max_eq_left starts.positive)

/-! ### A worker that makes the history -/

namespace Sample

/-- A run without a baseline, in a registry that would make larger histories. -/
def unranked (digit : Fin 16) : Run :=
  opened settings (experiment digit) (Registry.withCapacity 9) none ⟨0⟩ ⟨0, 0⟩

/-- The second worker makes the history with an aborted trial, then the first one
adds a score and panics. -/
def madeByWorker : List RunEvent :=
  [.prepared (.ready "a"), .prepared (.ready "b")] ++
    call 1 (.outcome (Outcome.incomplete ⟨0, 0⟩ "aborted")) ++ hand 1 ++
    call 0 (.outcome (outcome two "only")) ++ hand 0 ++
    call 0 (.panic (.text "source exploded")) ++ call 1 .exhausted ++ [.joined 1, .joined 0]

end Sample

theorem result_in_history_made_by_worker :
    ∃ r r' report h, (Sample.unranked 7).steps Sample.madeByWorker = some r ∧
      r.step (.finished ⟨1, 0⟩) = some r' ∧ r'.report? = some report ∧ r'.reported? = some h ∧
      r'.hasResult = true ∧
      (Sample.unranked 7).targets Sample.madeByWorker = [report.history, report.history] ∧
      h.owner = some report.status.id ∧ h.capacity = 2 := by
  obtain ⟨r, r', reached, finished⟩ := exists_finish
    (show (((Sample.unranked 7).steps Sample.madeByWorker).bind fun r =>
      r.step (.finished ⟨1, 0⟩)).isSome by decide +kernel)
  obtain ⟨report, h, reports, contents, same, _, filled⟩ :=
    @result_iff_complete_outcome Sample.settings (fun _ => .ok .directory)
      (Sample.experiment 7) (Registry.withCapacity 9) none ⟨0⟩ ⟨0, 0⟩
      (Sample.unranked 7) r r' Sample.madeByWorker rfl rfl reached ⟨1, 0⟩ finished
  have known : ((((Sample.unranked 7).steps Sample.madeByWorker).bind fun r =>
      r.step (.finished ⟨1, 0⟩)).map Run.hasResult) = some true := by
    decide +kernel
  rw [reached, Option.bind_some, finished, Option.map_some] at known
  have result := Option.some.inj known
  have owned : h.isSentinel = false := by
    have iff : h.isSentinel = true ↔ r'.hasResult = false := same.out 0 1
    rw [result] at iff
    exact Bool.eq_false_iff.mpr fun sentinel => Bool.noConfusion (iff.mp sentinel)
  obtain ⟨written, owner, capacity⟩ := filled owned
  have count : ((Sample.unranked 7).targets Sample.madeByWorker).length = 2 := by decide +kernel
  refine ⟨r, r', report, h, reached, finished, reports, contents, result, ?_, owner, capacity⟩
  rw [List.eq_replicate_iff.mpr ⟨count, fun k member => written k (List.mem_append_right _ member)⟩]
  rfl

end Run
end RankedSearch
