import Mathlib.Data.List.Induction
import RankedSearch.Experiment.Status

/-!
# The life of an experiment

The stages of an experiment come in order, and the last one is its end. The status of an
experiment does not see to that: a mark writes its own fields, whatever stage the
experiment is in, so the status tells the latest mark of each kind (`markAll_new`) and a
late mark leads back from the end (`late_start_reopens_experiment`).

The order is therefore up to those who set the marks. `FollowsLifecycle` is what the order
demands of a row of marks, step by step, and `Orderly` says of each mark what may have come
before it; the two are the same (`lifecycle_is_kept_by_orderly_marks`).
-/

set_option autoImplicit false

namespace RankedSearch

/-- What is recorded of an experiment. -/
inductive StatusMark where
  | running (now : Timestamp)
  | draining
  | cancelled
  | finalized (now : Timestamp) (best : Option Binary64)
  deriving DecidableEq

namespace StatusMark

/-- The stage that a mark leads to. -/
def stage? : StatusMark → Option ExperimentState
  | .running _ => some .running
  | .draining => some .draining
  | .cancelled => none
  | .finalized _ _ => some .finalized

/-- The moment of a start. -/
def start? : StatusMark → Option Timestamp
  | .running now => some now
  | _ => none

/-- The moment of an end and its best score. -/
def ending? : StatusMark → Option (Timestamp × Option Binary64)
  | .finalized now best => some (now, best)
  | _ => none

end StatusMark

/-- The place of a stage in the life of an experiment. -/
def ExperimentState.place : ExperimentState → Nat
  | .notStarted => 0
  | .running => 1
  | .draining => 2
  | .finalized => 3

namespace ExperimentState

variable {stage : ExperimentState}

theorem place_le_running :
    stage.place ≤ place .running ↔ stage ≠ .draining ∧ stage ≠ .finalized := by
  cases stage <;> decide

theorem place_le_draining : stage.place ≤ place .draining ↔ stage ≠ .finalized := by
  cases stage <;> decide

theorem place_le_finalized (stage : ExperimentState) : stage.place ≤ place .finalized := by
  cases stage <;> decide

end ExperimentState

namespace ExperimentStatus

variable {id : ExperimentId} {s : ExperimentStatus} {ms : List StatusMark} {m : StatusMark}

/-- Sets a mark. -/
def mark (s : ExperimentStatus) : StatusMark → ExperimentStatus
  | .running now => s.markRunning now
  | .draining => s.markDraining
  | .cancelled => s.markCancelled
  | .finalized now best => s.markFinalized now best

/-- Sets several marks, one after the other. -/
def markAll (s : ExperimentStatus) (ms : List StatusMark) : ExperimentStatus := ms.foldl mark s

theorem markAll_concat (s : ExperimentStatus) (ms : List StatusMark) (m : StatusMark) :
    s.markAll (ms ++ [m]) = (s.markAll ms).mark m := by
  rw [markAll, List.foldl_append]
  rfl

/-! ## What a status tells -/

/-- A status tells the latest mark of each kind, and nothing of those before it. -/
theorem markAll_new (id : ExperimentId) (ms : List StatusMark) :
    (new id).markAll ms =
      { new id with
        state := (ms.filterMap StatusMark.stage?).getLast?.getD .notStarted
        startedAt := (ms.filterMap StatusMark.start?).getLast?
        finishedAt := (ms.filterMap StatusMark.ending?).getLast?.map Prod.fst
        bestScore := (ms.filterMap StatusMark.ending?).getLast?.bind Prod.snd
        cancelled := ms.contains .cancelled } := by
  induction ms using List.reverseRecOn with
  | nil => rfl
  | append_singleton ms m ih =>
      rw [markAll_concat, ih]
      cases m <;>
        simp [mark, markRunning, markDraining, markCancelled, markFinalized, StatusMark.stage?,
          StatusMark.start?, StatusMark.ending?]

/-! ## What the order of the stages demands -/

/-- A status in the order of the stages behind another one: its stage is no earlier, and
nothing of an experiment that has ended is changed. -/
structure Continues (s t : ExperimentStatus) : Prop where
  forward : s.state.place ≤ t.state.place
  terminal : s.state = .finalized →
    t.state = s.state ∧ t.startedAt = s.startedAt ∧ t.finishedAt = s.finishedAt ∧
      t.bestScore = s.bestScore ∧ t.cancelled = s.cancelled

/-- The status follows the order of the stages while marks are set, and its end is set
exactly while it is in its last stage. -/
structure FollowsLifecycle (id : ExperimentId) (ms : List StatusMark) : Prop where
  continues : ∀ past m, past ++ [m] <+: ms →
    Continues ((new id).markAll past) ((new id).markAll (past ++ [m]))
  finished : ∀ past, past <+: ms →
    (((new id).markAll past).isFinalized = true ↔ ((new id).markAll past).finishedAt.isSome = true)

/-- Among the marks is one of an end. -/
def HasEnd (ms : List StatusMark) : Prop := ∃ now best, .finalized now best ∈ ms

/-- Whether a mark comes in time behind others: no start after the collecting of workers has
begun, and after an end nothing but what has been marked already. -/
def Timely (past : List StatusMark) : StatusMark → Prop
  | .running _ => .draining ∉ past ∧ ¬ HasEnd past
  | .draining => ¬ HasEnd past
  | .cancelled => HasEnd past → .cancelled ∈ past
  | .finalized now best => ∀ t b, .finalized t b ∈ past → t = now ∧ b = best

/-- Every mark comes in time. -/
def Orderly (ms : List StatusMark) : Prop := ∀ past m, past ++ [m] <+: ms → Timely past m

theorem orderly_nil : Orderly [] := by
  intro past m front
  simp at front

theorem orderly_concat_iff : Orderly (ms ++ [m]) ↔ Orderly ms ∧ Timely ms m := by
  constructor
  · intro orderly
    exact ⟨fun past n front => orderly past n (front.trans (List.prefix_append ms [m])),
      orderly ms m List.prefix_rfl⟩
  · rintro ⟨before, timely⟩ past n front
    rcases List.prefix_concat_iff.mp front with whole | inside
    · obtain ⟨rfl, rfl⟩ := List.append_singleton_inj.mp whole
      exact timely
    · exact before past n inside

theorem hasEnd_concat_iff : HasEnd (ms ++ [m]) ↔ HasEnd ms ∨ m.ending?.isSome = true := by
  cases m <;> simp [HasEnd, StatusMark.ending?, exists_or]

/-! ## Orderly marks -/

/-- What a status tells of orderly marks. -/
structure Tells (s : ExperimentStatus) (ms : List StatusMark) : Prop where
  finalized : s.state = .finalized ↔ HasEnd ms
  draining : s.state = .draining ↔ .draining ∈ ms ∧ ¬ HasEnd ms
  ending : ∀ now best, .finalized now best ∈ ms → s.finishedAt = some now ∧ s.bestScore = best
  unended : ¬ HasEnd ms → s.finishedAt = none
  cancelled : s.cancelled = true ↔ .cancelled ∈ ms

theorem tells_new (id : ExperimentId) : Tells (new id) [] := by
  constructor <;> simp [new, HasEnd]

/-- A mark comes in time exactly if it keeps the order of the stages. -/
theorem Tells.continues_iff (tells : Tells s ms) : Continues s (s.mark m) ↔ Timely ms m := by
  cases m with
  | running now =>
      constructor
      · intro continues
        obtain ⟨notDraining, notFinalized⟩ := ExperimentState.place_le_running.mp continues.forward
        have unended : ¬ HasEnd ms := fun ended => notFinalized (tells.finalized.mpr ended)
        exact ⟨fun drained => notDraining (tells.draining.mpr ⟨drained, unended⟩), unended⟩
      · rintro ⟨undrained, unended⟩
        have notFinalized : s.state ≠ .finalized := fun last => unended (tells.finalized.mp last)
        have notDraining : s.state ≠ .draining := fun stage => undrained (tells.draining.mp stage).1
        exact ⟨ExperimentState.place_le_running.mpr ⟨notDraining, notFinalized⟩,
          fun last => absurd last notFinalized⟩
  | draining =>
      constructor
      · intro continues ended
        exact ExperimentState.place_le_draining.mp continues.forward (tells.finalized.mpr ended)
      · intro unended
        have notFinalized : s.state ≠ .finalized := fun last => unended (tells.finalized.mp last)
        exact ⟨ExperimentState.place_le_draining.mpr notFinalized,
          fun last => absurd last notFinalized⟩
  | cancelled =>
      constructor
      · intro continues ended
        obtain ⟨_, _, _, _, same⟩ := continues.terminal (tells.finalized.mpr ended)
        exact tells.cancelled.mp same.symm
      · intro marked
        refine ⟨Nat.le_refl _, fun last => ⟨rfl, rfl, rfl, rfl, ?_⟩⟩
        exact (tells.cancelled.mpr (marked (tells.finalized.mp last))).symm
  | finalized now best =>
      constructor
      · intro continues t b member
        obtain ⟨finishedAt, bestScore⟩ := tells.ending t b member
        obtain ⟨_, _, sameTime, sameScore, _⟩ :=
          continues.terminal (tells.finalized.mpr ⟨t, b, member⟩)
        rw [finishedAt] at sameTime
        rw [bestScore] at sameScore
        exact ⟨(Option.some.inj sameTime).symm, sameScore.symm⟩
      · intro same
        refine ⟨s.state.place_le_finalized, fun last => ?_⟩
        obtain ⟨t, b, member⟩ := tells.finalized.mp last
        obtain ⟨finishedAt, bestScore⟩ := tells.ending t b member
        obtain ⟨rfl, rfl⟩ := same t b member
        exact ⟨last.symm, rfl, finishedAt.symm, bestScore.symm, rfl⟩

theorem cancelled_mark : (s.mark m).cancelled = true ↔ s.cancelled = true ∨ m = .cancelled := by
  cases m <;> simp [mark, markRunning, markDraining, markCancelled, markFinalized]

theorem Tells.mark (tells : Tells s ms) (timely : Timely ms m) : Tells (s.mark m) (ms ++ [m]) := by
  have cancelled : (s.mark m).cancelled = true ↔ .cancelled ∈ ms ++ [m] := by
    rw [cancelled_mark, tells.cancelled, List.mem_append, List.mem_singleton, eq_comm (a := m)]
  cases m with
  | running now =>
      obtain ⟨undrained, unended⟩ := timely
      have still : ¬ HasEnd (ms ++ [.running now]) := by
        simpa [hasEnd_concat_iff, StatusMark.ending?] using unended
      exact
        { finalized := iff_of_false ExperimentState.noConfusion still
          draining := iff_of_false ExperimentState.noConfusion (by simp [undrained])
          ending := fun t b member => absurd ⟨t, b, member⟩ still
          unended := fun _ => tells.unended unended
          cancelled := cancelled }
  | draining =>
      have unended : ¬ HasEnd ms := timely
      have still : ¬ HasEnd (ms ++ [.draining]) := by
        simpa [hasEnd_concat_iff, StatusMark.ending?] using unended
      exact
        { finalized := iff_of_false ExperimentState.noConfusion still
          draining := iff_of_true rfl ⟨by simp, still⟩
          ending := fun t b member => absurd ⟨t, b, member⟩ still
          unended := fun _ => tells.unended unended
          cancelled := cancelled }
  | cancelled =>
      have same : HasEnd (ms ++ [.cancelled]) ↔ HasEnd ms := by
        simp [hasEnd_concat_iff, StatusMark.ending?]
      exact
        { finalized := tells.finalized.trans same.symm
          draining := by
            rw [same, List.mem_append, List.mem_singleton, or_iff_left StatusMark.noConfusion]
            exact tells.draining
          ending := fun t b member => tells.ending t b (by simpa using member)
          unended := fun unended => tells.unended fun ended => unended (same.mpr ended)
          cancelled := cancelled }
  | finalized now best =>
      have ended : HasEnd (ms ++ [.finalized now best]) := ⟨now, best, by simp⟩
      exact
        { finalized := iff_of_true rfl ended
          draining := iff_of_false ExperimentState.noConfusion fun stage => stage.2 ended
          ending := by
            intro t b member
            rcases List.mem_append.mp member with before | last
            · obtain ⟨rfl, rfl⟩ := timely t b before
              exact ⟨rfl, rfl⟩
            · cases List.mem_singleton.mp last
              exact ⟨rfl, rfl⟩
          unended := fun unended => absurd ended unended
          cancelled := cancelled }

theorem Orderly.tells (orderly : Orderly ms) : Tells ((new id).markAll ms) ms := by
  induction ms using List.reverseRecOn with
  | nil => exact tells_new id
  | append_singleton ms m ih =>
      obtain ⟨before, timely⟩ := orderly_concat_iff.mp orderly
      rw [markAll_concat]
      exact (ih before).mark timely

/-- After orderly marks the end is set exactly in the last stage. -/
theorem Tells.isFinalized_iff (tells : Tells s ms) :
    s.isFinalized = true ↔ s.finishedAt.isSome = true := by
  rw [isFinalized, beq_iff_eq, tells.finalized]
  constructor
  · rintro ⟨now, best, member⟩
    rw [(tells.ending now best member).1, Option.isSome_some]
  · intro finished
    by_contra unended
    rw [tells.unended unended] at finished
    cases finished

theorem FollowsLifecycle.before (follows : FollowsLifecycle id (ms ++ [m])) :
    FollowsLifecycle id ms where
  continues past n front := follows.continues past n (front.trans (List.prefix_append ms [m]))
  finished past front := follows.finished past (front.trans (List.prefix_append ms [m]))

theorem orderly_of_followsLifecycle (follows : FollowsLifecycle id ms) : Orderly ms := by
  induction ms using List.reverseRecOn with
  | nil => exact orderly_nil
  | append_singleton ms m ih =>
      have before : Orderly ms := ih follows.before
      have continues := follows.continues ms m List.prefix_rfl
      rw [markAll_concat] at continues
      exact orderly_concat_iff.mpr ⟨before, before.tells.continues_iff.mp continues⟩

theorem Orderly.followsLifecycle (orderly : Orderly ms) : FollowsLifecycle id ms where
  continues past m front := by
    have before : Orderly past := fun older n inside =>
      orderly older n ((inside.trans (List.prefix_append past [m])).trans front)
    rw [markAll_concat]
    exact before.tells.continues_iff.mpr (orderly past m front)
  finished past front := by
    have before : Orderly past := fun older n inside => orderly older n (inside.trans front)
    exact before.tells.isFinalized_iff

/-- In the last stage the end is set, however the marks came. -/
theorem isSome_finishedAt (id : ExperimentId) (ms : List StatusMark) :
    ((new id).markAll ms).isFinalized = true → ((new id).markAll ms).finishedAt.isSome = true := by
  induction ms using List.reverseRecOn with
  | nil => nofun
  | append_singleton ms m ih =>
      rw [markAll_concat]
      cases m with
      | running | draining => nofun
      | cancelled => exact ih
      | finalized now best => exact fun _ => rfl

/-! ## Any marks -/

/-- **Only orderly marks keep the order of the stages.** A status tells the latest mark of
each kind, so in the last stage its end is set. But its stage never goes back, an
experiment that has ended stays as it is, and its end is set in no other stage, exactly if
every mark comes in time: no start after the collecting of workers has begun or the
experiment has ended, no collecting after the end, and after the end nothing but an
interruption or an end that has been marked the same before. -/
theorem lifecycle_is_kept_by_orderly_marks (id : ExperimentId) (ms : List StatusMark) :
    let s := (new id).markAll ms
    (s = { new id with
      state := (ms.filterMap StatusMark.stage?).getLast?.getD .notStarted
      startedAt := (ms.filterMap StatusMark.start?).getLast?
      finishedAt := (ms.filterMap StatusMark.ending?).getLast?.map Prod.fst
      bestScore := (ms.filterMap StatusMark.ending?).getLast?.bind Prod.snd
      cancelled := ms.contains .cancelled }) ∧
    (s.isFinalized = true → s.finishedAt.isSome = true) ∧
    (FollowsLifecycle id ms ↔ Orderly ms) :=
  ⟨markAll_new id ms, isSome_finishedAt id ms, orderly_of_followsLifecycle,
    Orderly.followsLifecycle⟩

namespace Sample

/-- The marks of a search that is interrupted while its workers run. -/
def interrupted : List StatusMark :=
  [.running ⟨1, 0⟩, .cancelled, .draining, .finalized ⟨2, 0⟩ (some ⟨0x3FA47AE147AE147B⟩)]

end Sample

theorem interrupted_search_follows_lifecycle : FollowsLifecycle .nil Sample.interrupted := by
  obtain ⟨_, _, _, kept⟩ := lifecycle_is_kept_by_orderly_marks .nil Sample.interrupted
  refine kept ?_
  have orderly : Orderly ((((([] ++ [.running ⟨1, 0⟩]) ++ [.cancelled]) ++ [.draining]) ++
      [.finalized ⟨2, 0⟩ (some ⟨0x3FA47AE147AE147B⟩)] : List StatusMark)) := by
    simp only [orderly_concat_iff, Timely, hasEnd_concat_iff]
    simp [orderly_nil, HasEnd, StatusMark.ending?]
  exact orderly

/-- A start that is marked after the end leads back from the last stage, while the end
stays set. -/
theorem late_start_reopens_experiment :
    let s := (new .nil).markAll Sample.interrupted
    let t := (new .nil).markAll (Sample.interrupted ++ [.running ⟨3, 0⟩])
    s.state = .finalized ∧ t.state = .running ∧ t.startedAt ≠ s.startedAt ∧
      t.isFinalized = false ∧ t.finishedAt = s.finishedAt ∧ t.finishedAt.isSome = true ∧
      ¬ FollowsLifecycle .nil (Sample.interrupted ++ [.running ⟨3, 0⟩]) := by
  refine ⟨rfl, rfl, by decide, rfl, rfl, rfl, fun follows => ?_⟩
  have continues := follows.continues Sample.interrupted (.running ⟨3, 0⟩) List.prefix_rfl
  exact absurd continues.forward (by decide)

end ExperimentStatus
end RankedSearch
