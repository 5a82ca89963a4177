import Mathlib.Data.List.Induction
import RankedSearch.Crew
import RankedSearch.Proofs.Retention
import RankedSearch.Proofs.Worker.Course

/-!
# Moves of a crew

`Crew.Moves` lists what the events of a crew can do, one case for each, with the
phase that the worker must be in. Seen from the workers, a move is a turn of one
of them, or it leaves them all as they are (`Moves.turn_or_same`). So a worker
keeps its slot, an ended worker stays as it is, and each worker stands where the
results of its own calls have brought it. A worker that the flag or the clock has
stopped had a reason to stop (`Moves.reasoned`).
-/

set_option autoImplicit false

namespace RankedSearch

/-- The worker that moves in an event. -/
def CrewEvent.worker? : CrewEvent → Option Nat
  | .flagSeen i | .clockSeen i | .flagRaised i | .answered i _ | .obtained i | .added i => some i
  | .elapsed _ => none

theorem Slot.isSome_deadline {s : Slot} {now : Instant} (passed : s.deadlinePassed now = true) :
    s.deadline.isSome = true := by
  rw [deadlinePassed] at passed
  split at passed
  · rename_i deadline limited
    rw [limited]
    rfl
  · cases passed

namespace Crew

/-- The crew with another worker in a place. -/
def withMember (c : Crew) (i : Nat) (w : Worker) : Crew :=
  { c with members := c.members.set i w }

/-- What an event can do to a crew. -/
inductive Moves (c : Crew) : CrewEvent → Crew → Prop
  | flagSeen {i : Nat} {w : Worker} (here : c.members[i]? = some w) (phase : w.phase = .head) :
      Moves c (.flagSeen i)
        (c.withMember i (w.inPhase (if c.flagged then .stopped .cancelled else .unflagged)))
  | clockSeen {i : Nat} {w : Worker} (here : c.members[i]? = some w)
      (phase : w.phase = .unflagged) :
      Moves c (.clockSeen i)
        (c.withMember i
          (w.inPhase (if w.slot.deadlinePassed c.now then .stopped .timedOut else .calling)))
  | flagRaised {i : Nat} {w : Worker} (here : c.members[i]? = some w)
      (phase : w.phase = .calling) :
      Moves c (.flagRaised i) { c with flagged := true }
  | returned {i : Nat} {w : Worker} {o : Outcome} (here : c.members[i]? = some w)
      (phase : w.phase = .calling) :
      Moves c (.answered i (.outcome o))
        (c.withMember i { w with consecutiveFailures := 0, phase := .holding o })
  | exhausted {i : Nat} {w : Worker} (here : c.members[i]? = some w)
      (phase : w.phase = .calling) :
      Moves c (.answered i .exhausted) (c.withMember i (w.inPhase (.stopped .exhausted)))
  | failed {i : Nat} {w : Worker} {e : TrialError} (here : c.members[i]? = some w)
      (phase : w.phase = .calling) :
      Moves c (.answered i (.failure e)) (c.withMember i (w.afterFailure e))
  | panicked {i : Nat} {w : Worker} {p : Panic} (here : c.members[i]? = some w)
      (phase : w.phase = .calling) :
      Moves c (.answered i (.panic p)) (c.withMember i (w.inPhase (.panicked p)))
  | obtained {i : Nat} {w : Worker} {o : Outcome} (here : c.members[i]? = some w)
      (phase : w.phase = .holding o) :
      Moves c (.obtained i)
        { c with
          registry := (c.registry.obtainWith w.slot.experiment w.historyCapacity).2
          members := c.members.set i
            (w.inPhase (.admitting
              (c.registry.obtainWith w.slot.experiment w.historyCapacity).1 o)) }
  | added {i : Nat} {w : Worker} {h : Handle} {o : Outcome} (here : c.members[i]? = some w)
      (phase : w.phase = .admitting h o) :
      Moves c (.added i)
        { c with
          registry := (c.registry.add h o).2
          members := c.members.set i
            { w with
              tally := w.tally.credit (c.registry.add h o).1 o.score
              phase := .head } }
  | elapsed (nanos : Nat) : Moves c (.elapsed nanos) { c with now := c.now.advance nanos }

variable {c c' : Crew} {e : CrewEvent}

theorem update_eq_some {i : Nat} {f : Worker → Option Worker} (updated : c.update i f = some c') :
    ∃ w w', c.members[i]? = some w ∧ f w = some w' ∧ c.withMember i w' = c' := by
  simp only [update, Option.bind_eq_bind, Option.bind_eq_some_iff, Option.pure_def,
    Option.some.injEq] at updated
  obtain ⟨w, here, w', result, rfl⟩ := updated
  exact ⟨w, w', here, result, rfl⟩

/-- Every step is one of the listed moves. -/
theorem moves_of_step (stepped : c.step e = some c') : c.Moves e c' := by
  cases e with
  | flagSeen i =>
      obtain ⟨w, w', here, looked, rfl⟩ := update_eq_some stepped
      simp only [Worker.lookAtFlag] at looked
      split at looked
      · rename_i phase
        cases looked
        exact .flagSeen here phase
      · cases looked
  | clockSeen i =>
      obtain ⟨w, w', here, looked, rfl⟩ := update_eq_some stepped
      simp only [Worker.lookAtClock] at looked
      split at looked
      · rename_i phase
        cases looked
        exact .clockSeen here phase
      · cases looked
  | flagRaised i =>
      simp only [step] at stepped
      split at stepped
      · rename_i calling
        cases stepped
        obtain ⟨w, here, phase⟩ := Option.map_eq_some_iff.mp calling
        exact .flagRaised here phase
      · cases stepped
  | answered i result =>
      obtain ⟨w, w', here, received, rfl⟩ := update_eq_some stepped
      simp only [Worker.receive] at received
      split at received
      · rename_i phase
        cases result with
        | outcome o =>
            cases received
            exact .returned here phase
        | exhausted =>
            cases received
            exact .exhausted here phase
        | failure e =>
            cases received
            exact .failed here phase
        | panic p =>
            cases received
            exact .panicked here phase
      · cases received
  | obtained i =>
      simp only [step, lookUp, Option.bind_eq_bind, Option.bind_eq_some_iff, Option.pure_def,
        Option.some.injEq] at stepped
      obtain ⟨w, here, w', obtained, rfl⟩ := stepped
      simp only [Worker.obtain] at obtained
      split at obtained
      · rename_i phase
        cases obtained
        exact .obtained here phase
      · cases obtained
  | added i =>
      simp only [step, addHeld, Option.bind_eq_bind, Option.bind_eq_some_iff] at stepped
      obtain ⟨w, here, stepped⟩ := stepped
      split at stepped
      · rename_i h o phase
        simp only [Worker.credit, phase, Option.bind_some, Option.pure_def,
          Option.some.injEq] at stepped
        subst stepped
        exact .added here phase
      · cases stepped
  | elapsed nanos =>
      cases stepped
      exact .elapsed nanos

/-- A worker that moves has not ended. -/
theorem Moves.works (moves : c.Moves e c') {i : Nat} (own : e.worker? = some i) :
    ∃ w, c.members[i]? = some w ∧ w.hasEnded = false := by
  cases moves with
  | flagSeen here phase | clockSeen here phase | flagRaised here phase | returned here phase
  | exhausted here phase | failed here phase | panicked here phase | obtained here phase
  | added here phase =>
      cases own
      refine ⟨_, here, ?_⟩
      simp only [Worker.hasEnded, phase]
  | elapsed nanos => cases own

/-! ## Turns of the workers -/

/-- The result that an event brings to a worker. -/
def resultOf? (i : Nat) : CrewEvent → Option TrialResult
  | .answered j result => if j = i then some result else none
  | .flagSeen _ | .clockSeen _ | .flagRaised _ | .obtained _ | .added _ | .elapsed _ => none

/-- The outcome that an event adds to a history, with the worker that adds it. -/
def addition? (c : Crew) : CrewEvent → Option (Nat × Outcome)
  | .added i => (c.members[i]?.bind fun w => w.phase.held?).map fun o => (i, o)
  | .flagSeen _ | .clockSeen _ | .flagRaised _ | .answered _ _ | .obtained _ | .elapsed _ => none

theorem addition?_added {i : Nat} {w : Worker} {h : Handle} {o : Outcome}
    (here : c.members[i]? = some w) (phase : w.phase = .admitting h o) :
    c.addition? (.added i) = some (i, o) := by
  rw [addition?, here, Option.bind_some, phase]
  rfl

theorem resultOf?_answered (i j : Nat) (result : TrialResult) :
    resultOf? j (.answered i result) = if j = i then some result else none := by
  simp only [resultOf?, eq_comm]

/-- A move is a turn of one worker, or no worker changes and nothing is received
or added. -/
theorem Moves.turn_or_same (moves : c.Moves e c') :
    (∃ (i : Nat) (w w' : Worker) (received : Option TrialResult) (added : Option Outcome),
      c.members[i]? = some w ∧ w.Turns received added w' ∧ c'.members = c.members.set i w' ∧
      (∀ j, resultOf? j e = if j = i then received else none) ∧
      c.addition? e = added.map fun o => (i, o)) ∨
    (c'.members = c.members ∧ (∀ j, resultOf? j e = none) ∧ c.addition? e = none) := by
  cases moves with
  | flagSeen here phase =>
      exact .inl ⟨_, _, _, _, _, here, .looksAtFlag phase _, rfl, fun j => (ite_self _).symm, rfl⟩
  | clockSeen here phase =>
      exact .inl ⟨_, _, _, _, _, here, .looksAtClock phase _, rfl, fun j => (ite_self _).symm, rfl⟩
  | returned here phase =>
      exact .inl
        ⟨_, _, _, _, _, here, .receives phase _, rfl, fun j => resultOf?_answered _ j _, rfl⟩
  | exhausted here phase =>
      exact .inl ⟨_, _, _, _, _, here, .runsOut phase, rfl, fun j => resultOf?_answered _ j _, rfl⟩
  | failed here phase =>
      exact .inl ⟨_, _, _, _, _, here, .fails phase _, rfl, fun j => resultOf?_answered _ j _, rfl⟩
  | panicked here phase =>
      exact .inl ⟨_, _, _, _, _, here, .panics phase _, rfl, fun j => resultOf?_answered _ j _, rfl⟩
  | obtained here phase =>
      exact .inl ⟨_, _, _, _, _, here, .finds phase _, rfl, fun j => (ite_self _).symm, rfl⟩
  | added here phase =>
      refine .inl ⟨_, _, _, _, _, here, .adds phase
        (History.admission_add_eq_ignored_iff _ _), rfl, fun j => (ite_self _).symm, ?_⟩
      exact addition?_added here phase
  | flagRaised here phase => exact .inr ⟨rfl, fun j => rfl, rfl⟩
  | elapsed nanos => exact .inr ⟨rfl, fun j => rfl, rfl⟩

theorem getElem?_set_of_some {ws : List Worker} {i : Nat} {w : Worker} (here : ws[i]? = some w)
    (w' : Worker) (j : Nat) : (ws.set i w')[j]? = if j = i then some w' else ws[j]? := by
  obtain ⟨inside, _⟩ := List.getElem?_eq_some_iff.mp here
  by_cases same : j = i
  · subst same
    simp [inside]
  · rw [if_neg same, List.getElem?_set_ne (Ne.symm same)]

/-- What a move does in one place: nothing, or the worker there takes a turn, in
which it receives the result and makes the addition of the event. -/
theorem Moves.member (moves : c.Moves e c') (j : Nat) :
    (c'.members[j]? = c.members[j]? ∧ resultOf? j e = none ∧
      ∀ o, c.addition? e ≠ some (j, o)) ∨
    ∃ w w' added, c.members[j]? = some w ∧ c'.members[j]? = some w' ∧
      w.Turns (resultOf? j e) added w' ∧ c.addition? e = added.map fun o => (j, o) := by
  rcases moves.turn_or_same with
    ⟨i, w, w', received, added, here, turns, members, results, additions⟩ |
    ⟨members, results, none⟩
  · rw [members, getElem?_set_of_some here, results, additions]
    by_cases same : j = i
    · subst same
      simp only [if_true]
      exact .inr ⟨w, w', added, here, rfl, turns, rfl⟩
    · simp only [if_neg same]
      refine .inl ⟨trivial, trivial, fun o added => ?_⟩
      obtain ⟨_, _, pair⟩ := Option.map_eq_some_iff.mp added
      exact same (congrArg Prod.fst pair).symm
  · rw [members, none]
    exact .inl ⟨rfl, results j, fun o absurdity => by cases absurdity⟩

theorem Moves.length_members (moves : c.Moves e c') :
    c'.members.length = c.members.length := by
  rcases moves.turn_or_same with ⟨i, w, w', _, _, _, _, members, _, _⟩ | ⟨members, _, _⟩
  · rw [members, List.length_set]
  · rw [members]

/-! ## The registry -/

/-- A move uses the registry at most once: a working worker makes sure of an
entry, or a worker adds an outcome through the handle that it has found. -/
theorem Moves.registry (moves : c.Moves e c') :
    c'.registry = c.registry ∨
    (∃ w ∈ c.members, w.hasEnded = false ∧
      c'.registry = (c.registry.obtainWith w.slot.experiment w.historyCapacity).2) ∨
    ∃ w ∈ c.members, ∃ h o, w.phase = .admitting h o ∧ c'.registry = (c.registry.add h o).2 := by
  cases moves with
  | @obtained i w o here phase =>
      refine .inr (.inl ⟨w, List.mem_of_getElem? here, ?_, rfl⟩)
      simp only [Worker.hasEnded, phase]
  | @added i w h o here phase =>
      exact .inr (.inr ⟨w, List.mem_of_getElem? here, h, o, phase, rfl⟩)
  | flagSeen | clockSeen | flagRaised | returned | exhausted | failed | panicked | elapsed =>
      exact .inl rfl

/-- When nobody works, nobody starts to, and the registry stays as it is. -/
theorem Moves.idle (moves : c.Moves e c') (ended : ∀ w ∈ c.members, w.hasEnded = true) :
    (∀ w ∈ c'.members, w.hasEnded = true) ∧ c'.registry = c.registry := by
  constructor
  · intro w member
    obtain ⟨j, there⟩ := List.mem_iff_getElem?.mp member
    rcases moves.member j with ⟨same, _, _⟩ | ⟨v, _, _, here, _, turns, _⟩
    · exact ended w (List.mem_of_getElem? (same ▸ there))
    · have stopped := ended v (List.mem_of_getElem? here)
      rw [turns.not_ended] at stopped
      cases stopped
  · rcases moves.registry with same | ⟨w, member, works, _⟩ | ⟨w, member, h, o, phase, _⟩
    · exact same
    · have stopped := ended w member
      rw [works] at stopped
      cases stopped
    · have stopped := ended w member
      simp only [Worker.hasEnded, phase] at stopped
      cases stopped

/-! ## Reasons to stop -/

/-- Every worker that was stopped has a reason for it. -/
structure Reasoned (c : Crew) : Prop where
  cancelled : ∀ w ∈ c.members, w.phase = .stopped .cancelled → c.flagged = true
  timedOut : ∀ w ∈ c.members, w.phase = .stopped .timedOut → w.slot.deadline.isSome = true

/-- The flag and the clock stop a worker only if it sees them. -/
theorem Moves.reasoned (moves : c.Moves e c') (reasoned : c.Reasoned) : c'.Reasoned := by
  have replaced {i : Nat} {w : Worker} {registry : Registry}
      (cancelled : w.phase = .stopped .cancelled → c.flagged = true)
      (timedOut : w.phase = .stopped .timedOut → w.slot.deadline.isSome = true) :
      Reasoned { c with registry := registry, members := c.members.set i w } := by
    constructor
    · intro v member phase
      rcases List.mem_or_eq_of_mem_set member with old | rfl
      · exact reasoned.cancelled v old phase
      · exact cancelled phase
    · intro v member phase
      rcases List.mem_or_eq_of_mem_set member with old | rfl
      · exact reasoned.timedOut v old phase
      · exact timedOut phase
  cases moves with
  | flagSeen here phase =>
      refine replaced ?_ ?_
      · intro stopped
        cases flagged : c.flagged with
        | true => rfl
        | false =>
            rw [flagged] at stopped
            cases stopped
      · intro stopped
        simp only [Worker.inPhase] at stopped
        split at stopped <;> cases stopped
  | @clockSeen i w here phase =>
      refine replaced ?_ ?_
      · intro stopped
        simp only [Worker.inPhase] at stopped
        split at stopped <;> cases stopped
      · intro stopped
        cases passed : w.slot.deadlinePassed c.now with
        | true => exact Slot.isSome_deadline passed
        | false =>
            rw [passed] at stopped
            cases stopped
  | @failed i w e here phase =>
      have other : (w.afterFailure e).phase ≠ .stopped .cancelled ∧
          (w.afterFailure e).phase ≠ .stopped .timedOut := by
        simp only [Worker.afterFailure]
        split <;> simp
      exact replaced (fun stopped => absurd stopped other.1) fun stopped => absurd stopped other.2
  | returned | exhausted | panicked | obtained | added =>
      exact replaced (by simp [Worker.inPhase]) (by simp [Worker.inPhase])
  | flagRaised => exact ⟨fun _ _ _ => rfl, reasoned.timedOut⟩
  | elapsed => exact ⟨reasoned.cancelled, reasoned.timedOut⟩

end Crew
end RankedSearch
