import RankedSearch.Proofs.Registry.Entries
import RankedSearch.Proofs.Run.Joins

/-!
# What a run collects

As long as somebody waits for the workers of a run, the live history of its
experiment is what the additions so far leave in a new history
(`Registry.Collects`), and every worker that is about to add an outcome has found
this very history (`Crew.Collects`). The entry may be missing before the first
addition; a worker that needs it then makes it, with the capacity of the run.

So the history that a finished run reports ranks everything that the workers were
handed, in the order in which they added it.
-/

set_option autoImplicit false

namespace RankedSearch

/-! ## The entry -/

namespace Registry

variable {r q : Registry} {id x : ExperimentId} {h : Handle} {o : Outcome} {capacity : Nat}
  {os : List Outcome}

/-- The live history of an experiment is what some outcomes leave in a new one.
It may be missing when there are none. -/
inductive Collects (r : Registry) (id : ExperimentId) (capacity : Nat) (os : List Outcome) : Prop
  | absent (missing : r.get? id = none) (nothing : os = [])
  | present {h : Handle} (live : r.get? id = some h) (held : r.Holds h)
      (contents : r.history h = (History.new id capacity).addAll os)

theorem Collects.contents (collects : r.Collects id capacity os) (live : r.get? id = some h) :
    r.Holds h ∧ r.history h = (History.new id capacity).addAll os := by
  cases collects with
  | absent missing nothing =>
      rw [missing] at live
      cases live
  | present found held contents =>
      rw [found] at live
      cases live
      exact ⟨held, contents⟩

theorem Collects.congr (collects : r.Collects id capacity os) (found : q.get? id = r.get? id)
    (kept : ∀ h, r.get? id = some h → r.Holds h → (r.history h).owner = some id →
      q.Holds h ∧ q.history h = r.history h) : q.Collects id capacity os := by
  cases collects with
  | absent missing nothing => exact .absent (found.trans missing) nothing
  | @present h live held contents =>
      have owner : (r.history h).owner = some id := by
        rw [contents, History.owner_addAll]
        rfl
      obtain ⟨still, same⟩ := kept h live held owner
      exact .present (found.trans live) still (same.trans contents)

theorem Collects.obtainWith (collects : r.Collects id capacity os) :
    (r.obtainWith id capacity).2.Collects id capacity os := by
  cases collects with
  | present live held contents =>
      rw [obtainWith_of_live live]
      exact .present live held contents
  | absent missing nothing =>
      subst nothing
      have live := get?_obtainWith_self r id capacity
      refine .present live ?_ ?_
      · rw [obtainWith_of_absent missing]
        exact holds_allocate r _
      · rw [obtainWith_of_absent missing]
        exact history_allocate_self r _

theorem Collects.add (collects : r.Collects id capacity os) (live : r.get? id = some h)
    (o : Outcome) : (r.add h o).2.Collects id capacity (os ++ [o]) := by
  obtain ⟨held, contents⟩ := collects.contents live
  refine .present ((get?_add r h o).trans live) (holds_add.mpr held) ?_
  rw [history_add_self held, contents, History.addAll_concat]

/-- A command that does not concern an experiment finds its entry as before. -/
theorem get?_execute_of_apart {command : Command}
    (apart : Run.concerns r id command = false) : (r.execute command).2.get? id = r.get? id := by
  cases command with
  | obtain x | obtainWith x capacity =>
      have different : id ≠ x := fun same => by simp [Run.concerns, same] at apart
      exact get?_obtainWith_of_ne different
  | poll x =>
      have different : id ≠ x := fun same => by simp [Run.concerns, same] at apart
      exact get?_poll_of_ne different
  | get x | sentinel | contains x | add k o | view k => rfl

/-- A command that does not concern an experiment leaves its history alone. -/
theorem history_execute_of_apart {command : Command}
    (apart : Run.concerns r id command = false) (held : r.Holds h)
    (owner : (r.history h).owner = some id) :
    (r.execute command).2.Holds h ∧ (r.execute command).2.history h = r.history h := by
  cases command with
  | obtain x | obtainWith x capacity =>
      exact ⟨held.obtainWith, history_obtainWith_of_holds held⟩
  | sentinel => exact ⟨held.allocate _, history_allocate_of_holds held _⟩
  | add k o =>
      have different : h ≠ k := by
        rintro rfl
        simp [Run.concerns, owner] at apart
      exact ⟨holds_add.mpr held, history_add_of_ne different⟩
  | get x | poll x | contains x | view k => exact ⟨held, rfl⟩

theorem Collects.execute (collects : r.Collects id capacity os) {command : Command}
    (apart : Run.concerns r id command = false) :
    (r.execute command).2.Collects id capacity os :=
  collects.congr (get?_execute_of_apart apart) fun _ _ held owner =>
    history_execute_of_apart apart held owner

end Registry

/-! ## The crew -/

namespace Crew

open Registry (get?_obtainWith_self obtainWith_of_live)

variable {c c' : Crew} {e : CrewEvent} {id : ExperimentId} {capacity : Nat} {os : List Outcome}

/-- Some outcomes have been collected, and whoever adds one next has found the
history in which they are. -/
structure Collects (c : Crew) (id : ExperimentId) (capacity : Nat) (os : List Outcome) :
    Prop where
  entry : c.registry.Collects id capacity os
  found : ∀ w ∈ c.members, ∀ h o, w.phase = .admitting h o → c.registry.get? id = some h

/-- A worker that does not come to admit anything may take the place of another. -/
theorem Collects.withMember (collects : c.Collects id capacity os) {w : Worker}
    (other : ∀ h o, w.phase ≠ .admitting h o) (i : Nat) :
    (c.withMember i w).Collects id capacity os where
  entry := collects.entry
  found := by
    intro v member h o phase
    rcases List.mem_or_eq_of_mem_set member with before | rfl
    · exact collects.found v before h o phase
    · exact absurd phase (other h o)

theorem Collects.obtained (collects : c.Collects id capacity os) {i : Nat} {w : Worker}
    {o : Outcome} (experiment : w.slot.experiment = id) (bound : w.historyCapacity = capacity) :
    Collects
      { c with
        registry := (c.registry.obtainWith w.slot.experiment w.historyCapacity).2
        members := c.members.set i
          (w.inPhase (.admitting
            (c.registry.obtainWith w.slot.experiment w.historyCapacity).1 o)) }
      id capacity os where
  entry := by
    rw [experiment, bound]
    exact collects.entry.obtainWith
  found := by
    have now := get?_obtainWith_self c.registry id capacity
    intro v member h p phase
    rw [experiment, bound] at member ⊢
    rcases List.mem_or_eq_of_mem_set member with before | rfl
    · have live := collects.found v before h p phase
      rw [obtainWith_of_live live] at now ⊢
      exact live
    · cases phase
      exact now

theorem Collects.added (collects : c.Collects id capacity os) {i : Nat} {w w' : Worker}
    {h : Handle} {o : Outcome} (here : c.members[i]? = some w) (phase : w.phase = .admitting h o)
    (head : w'.phase = .head) :
    Collects { c with registry := (c.registry.add h o).2, members := c.members.set i w' }
      id capacity (os ++ [o]) where
  entry := collects.entry.add (collects.found w (List.mem_of_getElem? here) h o phase) o
  found := by
    intro v member k p admits
    rcases List.mem_or_eq_of_mem_set member with before | rfl
    · exact collects.found v before k p admits
    · rw [head] at admits
      cases admits

/-- Every move of the crew collects what it adds. -/
theorem Collects.move (collects : c.Collects id capacity os)
    (working : ∀ w ∈ c.members, w.hasEnded = false →
      w.slot.experiment = id ∧ w.historyCapacity = capacity)
    (moves : c.Moves e c') :
    c'.Collects id capacity (os ++ ((c.addition? e).map Prod.snd).toList) := by
  cases moves with
  | added here phase =>
      rw [addition?_added here phase]
      exact collects.added here phase rfl
  | @obtained i w o here phase =>
      obtain ⟨experiment, bound⟩ := working w (List.mem_of_getElem? here) (by
        simp only [Worker.hasEnded, phase])
      rw [addition?, Option.map_none, Option.toList_none, List.append_nil]
      exact collects.obtained experiment bound
  | flagSeen here phase =>
      rw [addition?, Option.map_none, Option.toList_none, List.append_nil]
      refine collects.withMember (fun h o => ?_) _
      cases c.flagged <;> exact Phase.noConfusion
  | clockSeen here phase =>
      rw [addition?, Option.map_none, Option.toList_none, List.append_nil]
      refine collects.withMember (fun h o admits => ?_) _
      simp only [Worker.inPhase] at admits
      split at admits <;> cases admits
  | failed here phase =>
      rw [addition?, Option.map_none, Option.toList_none, List.append_nil]
      refine collects.withMember (fun h o admits => ?_) _
      simp only [Worker.afterFailure] at admits
      split at admits <;> cases admits
  | returned here phase | exhausted here phase | panicked here phase =>
      rw [addition?, Option.map_none, Option.toList_none, List.append_nil]
      exact collects.withMember (fun h o admits => by cases admits) _
  | flagRaised here phase =>
      rw [addition?, Option.map_none, Option.toList_none, List.append_nil]
      exact ⟨collects.entry, collects.found⟩
  | elapsed nanos =>
      rw [addition?, Option.map_none, Option.toList_none, List.append_nil]
      exact ⟨collects.entry, collects.found⟩

/-- Only a worker that has found the history matters, so others may be added. -/
theorem Collects.enlist (collects : c.Collects id capacity os) {w : Worker}
    (other : ∀ h o, w.phase ≠ .admitting h o) :
    Collects { c with members := c.members ++ [w] } id capacity os where
  entry := collects.entry
  found := by
    intro v member h o phase
    rcases List.mem_append.mp member with before | last
    · exact collects.found v before h o phase
    · rw [List.mem_singleton.mp last] at phase
      exact absurd phase (other h o)

end Crew

/-! ## The run -/

namespace Run

variable {r₀ r r' : Run} {e : RunEvent} {es : List RunEvent} {os : List Outcome} {w : Worker}
  {j : Nat}

/-- Somebody waits for the workers: the caller, or the detached task. -/
def Tended (r : Run) : Prop := r.stage = .searching ∨ ∃ d, r.stage = .draining d

/-- Some outcomes have been collected in the history of the run. -/
def Collects (r : Run) (os : List Outcome) : Prop :=
  r.crew.Collects r.id r.config.historyCapacity.toNat os

theorem Moves.tended_before (moves : r.Moves e r') (tended : r'.Tended) : r.Tended := by
  cases moves with
  | launched before | unplaced before | refused before | unwound before | interrupted before
  | dropped before => exact .inl before
  | crew | joined | raised | elsewhere => exact tended
  | finished | abandoned | drained =>
      rcases tended with stage | ⟨d, stage⟩ <;> cases stage

/-- A worker that works was launched, with the settings of the run. -/
theorem Course.working (course : Course r₀ es r) (here : r.crew.members[j]? = some w)
    (works : w.hasEnded = false) :
    ∃ workDir, (preparations es)[j]? = some (.ready workDir) ∧ w.slot = r₀.slotAt j workDir ∧
      w.historyCapacity = r₀.config.historyCapacity.toNat ∧
      w.maxConsecutiveFailures = max r₀.config.maxConsecutiveFailures 1 := by
  have known := course.slots j
  rw [here] at known
  cases known with
  | @manned p _ first prepared began serves =>
      cases p with
      | ready workDir =>
          cases began
          exact ⟨workDir, prepared, serves.began.slot, serves.began.historyCapacity,
            serves.began.failureLimit⟩
      | noDirectory e | refused workDir e =>
          cases began
          rw [serves.began.ended rfl] at works
          cases works
      | panicked workDir p => cases began

/-- While somebody waits, the run collects what its moves add. -/
theorem Collects.move (collects : r.Collects os) (course : Course r₀ es r)
    (moves : r.Moves e r') (tended : r'.Tended) :
    r'.Collects (os ++ ((r.addition? e).map Prod.snd).toList) := by
  have settled {q : Run} (same : q.Collects os) (none : r.addition? e = none) :
      q.Collects (os ++ ((r.addition? e).map Prod.snd).toList) := by
    rwa [none, Option.map_none, Option.toList_none, List.append_nil]
  cases moves with
  | crew moves =>
      refine Crew.Collects.move collects (fun w member works => ?_) moves
      obtain ⟨j, here⟩ := List.mem_iff_getElem?.mp member
      obtain ⟨workDir, _, slot, bound, _⟩ := course.working here works
      rw [slot, bound, course.config]
      exact ⟨course.id.symm, rfl⟩
  | launched | unplaced | refused =>
      exact settled (Crew.Collects.enlist collects fun h o admits => by cases admits) rfl
  | unwound | interrupted | raised | dropped =>
      exact settled ⟨collects.entry, collects.found⟩ rfl
  | joined => exact settled collects rfl
  | elsewhere apart =>
      refine settled ⟨Registry.Collects.execute collects.entry apart, ?_⟩ rfl
      intro w member h o phase
      exact (Registry.get?_execute_of_apart apart).trans (collects.found w member h o phase)
  | finished | abandoned | drained =>
      rcases tended with stage | ⟨d, stage⟩ <;> cases stage

/-- While somebody waits, the run has collected what it began with and everything
that has been added since. -/
theorem collects_of_steps (unmanned : r₀.crew.members = []) (first : r₀.Collects os)
    (reached : r₀.steps es = some r) (tended : r.Tended) :
    r.Collects (os ++ (r₀.additions es).map Prod.snd) := by
  refine steps_induction
    (motive := fun es r => r.Tended → r.Collects (os ++ (r₀.additions es).map Prod.snd))
    (fun _ => ?_) (fun reached ih moves tended => ?_) reached tended
  · rw [additions, observe, List.map_nil, List.append_nil]
    exact first
  · have next := (ih (moves.tended_before tended)).move
      (course_of_steps unmanned reached) moves tended
    rw [additions_concat reached, List.map_append, ← List.append_assoc]
    cases addition : Run.addition? _ _ with
    | none => rwa [addition] at next
    | some a => rwa [addition] at next

end Run
end RankedSearch
