import RankedSearch.Proofs.Run.Return

/-!
# The registry entry of a run

A worker makes the entry of its experiment anew whenever it finds none, so an
entry that is taken out while somebody still works comes back and stays for good.
A run takes it out in two ways, when it reports and when a detached task has
drained it. Both wait for all workers, so afterwards nobody is left who could
make the entry again (`Gone.move`), whatever the way on which the run was left.
A run that is left is drained: the workers are asked to stop at once, and when they
have ended nothing is in the way of the detached task (`exists_drained`).

The entries of other experiments go their own way meanwhile: only the operations
of other clients change them (`Moves.entryOf?_other`).
-/

set_option autoImplicit false

namespace RankedSearch

open Registry (EntryOp)

/-- Whether an event takes the entry of its run out of the registry. -/
def RunEvent.polls : RunEvent → Bool
  | .finished _ | .drained | .dropped false => true
  | .prepared _ | .crew _ | .joined _ | .interrupted | .raised | .dropped true
  | .elsewhere _ => false

/-- Events of a run that is dropped, if at all, where a detached task can live. -/
def Attended (es : List RunEvent) : Prop := RunEvent.dropped false ∉ es

namespace Run

variable {config : Config} {stat : String → Except IoError FileKind} {id x : ExperimentId}
  {registry : Registry} {baseline : Option Outcome} {now : Instant} {time : Timestamp}
  {r₀ r r' : Run} {e : RunEvent} {es : List RunEvent} {os : List Outcome} {h : Handle}

/-! ## While somebody waits -/

theorem Course.experiment_eq (course : Course r₀ es r) {w : Worker} (member : w ∈ r.crew.members)
    (works : w.hasEnded = false) : w.slot.experiment = r.id := by
  obtain ⟨j, here⟩ := List.mem_iff_getElem?.mp member
  obtain ⟨workDir, _, slot, _⟩ := course.working here works
  rw [slot, course.id]
  rfl

/-- An entry stays until it is taken out. -/
theorem Moves.get?_kept (moves : r.Moves e r') (course : Course r₀ es r)
    (live : r.crew.registry.get? r.id = some h) (keeps : e.polls = false) :
    r'.crew.registry.get? r.id = some h := by
  cases moves with
  | @crew e c moves =>
      rcases moves.registry with same | ⟨w, member, works, made⟩ | ⟨w, _, k, o, _, added⟩
      · exact (congrArg (Registry.get? · r.id) same).trans live
      · rw [course.experiment_eq member works, Registry.obtainWith_of_live live] at made
        exact (congrArg (Registry.get? · r.id) made).trans live
      · exact (congrArg (Registry.get? · r.id) added).trans live
  | elsewhere apart => exact (Registry.get?_execute_of_apart apart).trans live
  | launched | unplaced | refused | unwound | joined | interrupted | raised | dropped =>
      exact live
  | finished | abandoned | drained => cases keeps

/-! ## When it is over -/

/-- The run has reported, or it was left and has been drained. -/
def Over (r : Run) : Prop := (∃ report, r.stage = .finished report) ∨ ∃ d, r.stage = .drained d

/-- It is over, nobody works, and there is no entry. -/
structure Gone (r : Run) : Prop where
  isOver : r.Over
  ended : ∀ w ∈ r.crew.members, w.hasEnded = true
  absent : r.crew.registry.get? r.id = none

theorem Over.not_tended (isOver : r.Over) : ¬ r.Tended := by
  rintro (searching | ⟨d, draining⟩) <;> rcases isOver with ⟨report, stage⟩ | ⟨c, stage⟩ <;>
    simp_all

/-- When it is over, no move brings the entry back. -/
theorem Gone.move (gone : r.Gone) (moves : r.Moves e r') : r'.Gone := by
  have untended := gone.isOver.not_tended
  cases moves with
  | crew moves =>
      obtain ⟨ended, registry⟩ := moves.idle gone.ended
      exact ⟨gone.isOver, ended, (congrArg (Registry.get? · r.id) registry).trans gone.absent⟩
  | elsewhere apart =>
      exact ⟨gone.isOver, gone.ended, (Registry.get?_execute_of_apart apart).trans gone.absent⟩
  | joined | raised => exact ⟨gone.isOver, gone.ended, gone.absent⟩
  | launched stage | unplaced stage | refused stage | unwound stage | interrupted stage
  | finished _ stage | dropped stage | abandoned stage => exact absurd (.inl stage) untended
  | drained stage => exact absurd (.inr ⟨_, stage⟩) untended

theorem get?_reportedHistory (registry : Registry) (polled : Option Handle) :
    (reportedHistory registry polled).2.get? x = registry.get? x := by
  cases polled with
  | none => rfl
  | some h =>
      simp only [reportedHistory]
      split <;> rfl

/-- The entry is taken out when all workers have ended, and then it is over. -/
theorem Moves.gone_of_polls (moves : r.Moves e r') (joined : r.Joined) (polls : e.polls = true)
    (attended : e ≠ .dropped false) : r'.Gone ∧ ∀ w ∈ r.crew.members, w.hasEnded = true := by
  cases moves with
  | finished now stage prepared all =>
      have ended := joined.all_ended all
      refine ⟨⟨.inl ⟨_, rfl⟩, ended, ?_⟩, ended⟩
      exact (get?_reportedHistory _ _).trans (Registry.get?_poll_self _ _)
  | drained stage all =>
      have ended := joined.all_ended all
      exact ⟨⟨.inr ⟨_, rfl⟩, ended, Registry.get?_poll_self _ _⟩, ended⟩
  | abandoned => exact absurd rfl attended
  | launched | unplaced | refused | unwound | crew | joined | interrupted | raised | dropped
  | elsewhere => cases polls

theorem Moves.tended (moves : r.Moves e r') (tended : r.Tended) (keeps : e.polls = false) :
    r'.Tended := by
  cases moves with
  | launched stage | unplaced stage | refused stage | interrupted stage => exact .inl stage
  | unwound | dropped => exact .inr ⟨_, rfl⟩
  | crew | joined | raised | elsewhere => exact tended
  | finished | abandoned | drained => cases keeps

/-- Either somebody waits for the workers, or it is over and the entry is gone. -/
theorem tended_or_gone (tended : r₀.Tended) (joined : r₀.Joined) (reached : r₀.steps es = some r)
    (attended : Attended es) : r.Tended ∨ r.Gone := by
  refine steps_induction (motive := fun es r => Attended es → r.Tended ∨ r.Gone)
    (fun _ => .inl tended) (fun {es e r r'} reached ih moves attended => ?_) reached attended
  have before : Attended es := fun member => attended (List.mem_append_left _ member)
  have last : e ≠ .dropped false := by
    rintro rfl
    exact attended (List.mem_append_right _ (List.mem_singleton.mpr rfl))
  rcases ih before with waits | gone
  · cases polls : e.polls with
    | false => exact .inl (moves.tended waits polls)
    | true => exact .inr (moves.gone_of_polls (joined_of_steps joined reached) polls last).1
  · exact .inr (gone.move moves)

theorem gone_of_steps (gone : r.Gone) (later : r.steps es = some r') : r'.Gone :=
  steps_induction (motive := fun _ r => r.Gone) gone (fun _ gone moves => gone.move moves) later

/-! ## Other experiments -/

/-- The operation of another client on the entry of an experiment. -/
def operation? (x : ExperimentId) (r : Run) : RunEvent → Option EntryOp
  | .elsewhere command => r.crew.registry.operation? x command
  | .prepared _ | .crew _ | .joined _ | .interrupted | .raised | .finished _ | .dropped _
  | .drained => none

/-- The operations of other clients on the entry of an experiment. -/
def operations (r : Run) (x : ExperimentId) (es : List RunEvent) : List EntryOp :=
  r.observe (operation? x) es

theorem wellFormed_reportedHistory (wellFormed : registry.WellFormed) (polled : Option Handle) :
    (reportedHistory registry polled).2.WellFormed := by
  cases polled with
  | none => exact wellFormed.allocate History.sentinel
  | some h =>
      simp only [reportedHistory]
      split
      · exact wellFormed.allocate History.sentinel
      · exact wellFormed

theorem Moves.wellFormed (moves : r.Moves e r') (wellFormed : r.crew.registry.WellFormed) :
    r'.crew.registry.WellFormed := by
  cases moves with
  | crew moves =>
      rcases moves.registry with same | ⟨w, _, _, made⟩ | ⟨w, _, h, o, _, added⟩
      · exact same ▸ wellFormed
      · exact made ▸ wellFormed.obtainWith _ _
      · exact added ▸ wellFormed.add h o
  | elsewhere apart => exact wellFormed.execute _
  | finished => exact wellFormed_reportedHistory (wellFormed.poll _) _
  | abandoned | drained => exact wellFormed.poll _
  | launched | unplaced | refused | unwound | joined | interrupted | raised | dropped =>
      exact wellFormed

theorem entryOf?_reportedHistory (wellFormed : registry.WellFormed) (polled : Option Handle) :
    (reportedHistory registry polled).2.entryOf? x = registry.entryOf? x := by
  cases polled with
  | none => exact Registry.entryOf?_allocate wellFormed History.sentinel
  | some h =>
      simp only [reportedHistory]
      split
      · exact Registry.entryOf?_allocate wellFormed History.sentinel
      · rfl

/-- A move touches the entry of another experiment only if it is an operation of
another client on it. -/
theorem Moves.entryOf?_other (moves : r.Moves e r') (wellFormed : r.crew.registry.WellFormed)
    (course : Course r₀ es r) (known : r.Collects os ∨ r.Gone) (other : x ≠ r.id) :
    r'.crew.registry.entryOf? x =
      EntryOp.applyAll x (operation? x r e).toList (r.crew.registry.entryOf? x) := by
  cases moves with
  | crew moves =>
      rcases moves.registry with same | ⟨w, member, works, made⟩ | ⟨w, member, h, o, phase, added⟩
      · exact congrArg (Registry.entryOf? · x) same
      · rw [course.experiment_eq member works] at made
        exact (congrArg (Registry.entryOf? · x) made).trans
          (Registry.entryOf?_obtainWith_of_ne wellFormed other _)
      · rcases known with collects | gone
        · have live := collects.found w member h o phase
          have elsewhere : r.crew.registry.get? x ≠ some h := fun found =>
            wellFormed.handle_ne found live other rfl
          exact (congrArg (Registry.entryOf? · x) added).trans
            (Registry.entryOf?_add_of_ne elsewhere o)
        · exact congrArg (Registry.entryOf? · x) (moves.idle gone.ended).2
  | elsewhere apart => exact Registry.entryOf?_execute wellFormed x _
  | finished =>
      exact (entryOf?_reportedHistory (wellFormed.poll _) _).trans
        (Registry.entryOf?_poll_of_ne other)
  | abandoned | drained => exact Registry.entryOf?_poll_of_ne other
  | launched | unplaced | refused | unwound | joined | interrupted | raised | dropped => rfl

theorem wellFormed_rankBaseline (wellFormed : registry.WellFormed) :
    (rankBaseline config id registry baseline).WellFormed := by
  cases baseline with
  | none => exact wellFormed
  | some b => exact (wellFormed.obtainWith _ _).add _ b

theorem entryOf?_rankBaseline (wellFormed : registry.WellFormed) (other : x ≠ id) :
    (rankBaseline config id registry baseline).entryOf? x = registry.entryOf? x := by
  cases baseline with
  | none => rfl
  | some b =>
      have made := wellFormed.obtainWith id config.historyCapacity.toNat
      have live := Registry.get?_obtainWith_self registry id config.historyCapacity.toNat
      have elsewhere : (registry.obtainWith id config.historyCapacity.toNat).2.get? x ≠
          some (registry.obtainWith id config.historyCapacity.toNat).1 := fun found =>
        made.handle_ne found live other rfl
      exact (Registry.entryOf?_add_of_ne elsewhere b).trans
        (Registry.entryOf?_obtainWith_of_ne wellFormed other _)

/-- The entry of another experiment is what it was, apart from the operations of
other clients on it. -/
theorem Starts.entryOf?_other (starts : Starts config id registry baseline time r₀)
    (wellFormed : registry.WellFormed) (fresh : registry.get? id = none)
    (reached : r₀.steps es = some r) (attended : Attended es) (other : x ≠ id) :
    r.crew.registry.WellFormed ∧
      r.crew.registry.entryOf? x =
        EntryOp.applyAll x (r₀.operations x es) (registry.entryOf? x) := by
  refine steps_induction
    (motive := fun es r => Attended es → r.crew.registry.WellFormed ∧
      r.crew.registry.entryOf? x =
        EntryOp.applyAll x (r₀.operations x es) (registry.entryOf? x))
    (fun _ => ?_) (fun {es e r r'} reached ih moves attended => ?_) reached attended
  · rw [starts.ranked]
    exact ⟨wellFormed_rankBaseline wellFormed, entryOf?_rankBaseline wellFormed other⟩
  · have before : Attended es := fun member => attended (List.mem_append_left _ member)
    obtain ⟨sound, entry⟩ := ih before
    have course := course_of_steps starts.unmanned reached
    have known : r.Collects (baseline.toList ++ (r₀.additions es).map Prod.snd) ∨ r.Gone :=
      (tended_or_gone starts.tended starts.joined reached before).imp_left
        (collects_of_steps starts.unmanned (starts.collects fresh) reached)
    have elsewhere : x ≠ r.id := by
      rw [course.id, starts.id_eq]
      exact other
    refine ⟨moves.wellFormed sound, ?_⟩
    rw [moves.entryOf?_other sound course known elsewhere, entry, operations, operations,
      observe_concat _ reached, EntryOp.applyAll, EntryOp.applyAll, EntryOp.applyAll,
      List.foldl_append]

/-! ## Every way out -/

/-- Whoever leaves a run has its workers asked to stop, and nothing keeps the detached task
from joining those that have ended and from taking the entry out. -/
structure Drainable (r : Run) : Prop where
  dropped : r.stage = .searching → r.allPrepared = true →
    ∃ r', r.step (.dropped true) = some r' ∧ r'.stage = .draining .dropped ∧
      r'.crew.flagged = true
  unwound : r.stage = .searching → r.allPrepared = false → ∀ workDir p,
    ∃ r', r.step (.prepared (.panicked workDir p)) = some r' ∧
      r'.stage = .draining (.unwound p) ∧ r'.crew.flagged = true
  drained : ∀ d, r.stage = .draining d → r.allJoined = true →
    ∃ r', r.step .drained = some r' ∧ r'.stage = .drained d
  /-- The workers are joined in any order. -/
  joined : ∀ d, r.stage = .draining d → (∀ w ∈ r.crew.members, w.hasEnded = true) →
    ∀ slots : List Nat, slots.Perm r.unjoined →
      ∃ r', r.steps (slots.map RunEvent.joined ++ [.drained]) = some r' ∧ r'.stage = .drained d

/-- A drop leaves a run that waits for its workers to a detached task. -/
theorem step_dropped (stage : r.stage = .searching) (prepared : r.allPrepared = true) :
    r.step (.dropped true) = some (r.depart .dropped) := by
  simp only [step, drop, stage, prepared, and_self, if_true]

/-- A preparation that panics leaves a run to a detached task. -/
theorem step_unwound (stage : r.stage = .searching) (more : r.allPrepared = false)
    (workDir : String) (p : Panic) :
    r.step (.prepared (.panicked workDir p)) = some (r.depart (.unwound p)) := by
  simp only [step, prepare, stage, more, and_self, if_true]

theorem drainable (r : Run) : r.Drainable where
  dropped := fun stage prepared => ⟨_, step_dropped stage prepared, rfl, rfl⟩
  unwound := fun stage more workDir p => ⟨_, step_unwound stage more workDir p, rfl, rfl⟩
  drained := fun _ stage all => ⟨_, step_drained stage all, rfl⟩
  joined := fun _ stage ended _ rest => exists_drained stage ended rest

/-- **No entry is left behind.** An invalid configuration is refused, and the registry is
left as it was. A run that starts in a well-formed registry, and is not dropped where no
detached task can live, keeps its entry until it takes it out; it does so only when all its
workers have ended, when it reports or has been drained, and from then on there is no
entry, whatever happens. A drop or a preparation that panics asks the workers to stop and
leaves them to a detached task, which can take the entry out as soon as all are joined; and
those that have ended can be joined in any order. The entries of other experiments are
changed by the operations of other clients alone. -/
theorem leaves_no_entry (config : Config) (stat : String → Except IoError FileKind)
    (id : ExperimentId) (registry : Registry) (baseline : Option Outcome) (now : Instant)
    (time : Timestamp) :
    (∀ e, config.validate stat = .error e →
      start config stat id registry baseline now time = .error ⟨e, registry⟩) ∧
    (registry.WellFormed → registry.get? id = none →
      ∀ r₀, start config stat id registry baseline now time = .ok r₀ →
      ∀ es r, Attended es → r₀.steps es = some r →
        (r.Tended ∨ r.Over) ∧
        (∀ e r', e ≠ .dropped false → r.step e = some r' →
          (e.polls = true → r'.Over ∧ ∀ w ∈ r.crew.members, w.hasEnded = true) ∧
          (e.polls = false → ∀ h, r.crew.registry.get? id = some h →
            r'.crew.registry.get? id = some h)) ∧
        (r.Over → ∀ later r', r.steps later = some r' →
          r'.crew.registry.contains id = false) ∧
        r.Drainable ∧
        ∀ x, x ≠ id → r.crew.registry.entryOf? x =
          EntryOp.applyAll x (r₀.operations x es) (registry.entryOf? x)) := by
  constructor
  · intro e invalid
    simp only [start, invalid]
  · intro wellFormed fresh r₀ started es r attended reached
    have starts := starts_of_start started
    have course := course_of_steps starts.unmanned reached
    have joined := joined_of_steps starts.joined reached
    have same : r.id = id := course.id.trans starts.id_eq
    have ways := tended_or_gone starts.tended starts.joined reached attended
    refine ⟨ways.imp_right Gone.isOver, fun e r' last stepped => ⟨fun polls => ?_, ?_⟩, ?_,
      r.drainable, ?_⟩
    · obtain ⟨gone, ended⟩ := (moves_of_step stepped).gone_of_polls joined polls last
      exact ⟨gone.isOver, ended⟩
    · intro keeps h live
      rw [← same] at live ⊢
      exact (moves_of_step stepped).get?_kept course live keeps
    · intro isOver later r' follows
      rcases ways with waits | gone
      · exact absurd waits isOver.not_tended
      · have still := gone_of_steps gone follows
        have named : r'.id = id :=
          ((steps_induction (motive := fun _ q => q.id = r.id) rfl
            (fun _ ih moves => moves.settings_kept.1.trans ih) follows)).trans same
        rw [Registry.contains, ← named, still.absent]
        rfl
    · intro x other
      exact (starts.entryOf?_other wellFormed fresh reached attended other).2

namespace Sample

/-- An experiment of another client. -/
def other : ExperimentId := experiment ⟨3, by decide⟩

/-- The second preparation panics while the first worker is at work, and another
client makes an entry of its own before the worker is joined. -/
def unwinding : List RunEvent :=
  [.prepared (.ready "a"), .crew (.flagSeen 0), .crew (.clockSeen 0),
    .prepared (.panicked "b" (.text "no source"))] ++
    [.crew (.answered 0 (.outcome (outcome one "late")))] ++ hand 0 ++
    [.elsewhere (.obtainWith other 4), .crew (.flagSeen 0), .joined 0, .drained]

/-- The caller drops the run while the first worker is at work. -/
def dropping : List RunEvent :=
  [.prepared (.ready "a"), .prepared (.ready "b"), .crew (.flagSeen 0), .crew (.clockSeen 0),
    .dropped true, .crew (.answered 0 (.outcome (outcome one "late")))] ++ hand 0 ++
    [.crew (.flagSeen 1), .joined 1, .crew (.flagSeen 0), .joined 0, .drained]

end Sample

theorem left_runs_leave_no_entry :
    (∃ r, (Sample.run 7).steps Sample.unwinding = some r ∧
      r.stage = .drained (.unwound (.text "no source")) ∧
      r.crew.registry.contains (Sample.experiment 7) = false ∧
      r.crew.registry.entryOf? Sample.other = some (⟨1⟩, History.new Sample.other 4)) ∧
    ∃ r, (Sample.run 7).steps Sample.dropping = some r ∧ r.stage = .drained .dropped ∧
      r.crew.registry.contains (Sample.experiment 7) = false := by
  have leaves := (leaves_no_entry Sample.settings (fun _ => .ok .directory) (Sample.experiment 7)
    Registry.new (some (Sample.outcome Sample.two "baseline")) ⟨0⟩ ⟨0, 0⟩).2
    (Registry.wellFormed_withCapacity _) rfl (Sample.run 7) rfl
  constructor
  · obtain ⟨r, reached⟩ := Option.isSome_iff_exists.mp
      (show ((Sample.run 7).steps Sample.unwinding).isSome by decide +kernel)
    have stage : ((Sample.run 7).steps Sample.unwinding).map Run.stage =
        some (.drained (.unwound (.text "no source"))) := by
      decide +kernel
    rw [reached] at stage
    have drained : r.stage = .drained (.unwound (.text "no source")) := Option.some.inj stage
    obtain ⟨_, _, gone, _, others⟩ :=
      leaves Sample.unwinding r (by unfold Attended; decide +kernel) reached
    refine ⟨r, reached, drained, gone (.inr ⟨_, drained⟩) [] r rfl, ?_⟩
    rw [others Sample.other (by decide +kernel)]
    decide +kernel
  · obtain ⟨r, reached⟩ := Option.isSome_iff_exists.mp
      (show ((Sample.run 7).steps Sample.dropping).isSome by decide +kernel)
    have stage : ((Sample.run 7).steps Sample.dropping).map Run.stage =
        some (.drained .dropped) := by
      decide +kernel
    rw [reached] at stage
    have drained : r.stage = .drained .dropped := Option.some.inj stage
    obtain ⟨_, _, gone, _⟩ :=
      leaves Sample.dropping r (by unfold Attended; decide +kernel) reached
    exact ⟨r, reached, drained, gone (.inr ⟨_, drained⟩) [] r rfl⟩

end Run
end RankedSearch
