import RankedSearch.Proofs.Crew.Moves
import RankedSearch.Run

/-!
# Moves of a run

`Run.Moves` lists what the events of a run can do, one case for each, with what
must hold for it. A move concerns a single slot at most (`Moves.slot`): either
its worker takes a turn, or it is given its first worker, or nothing happens
there.

What a sequence of events amounts to is read off the sequence: the preparations,
the results that came to a worker, and the outcomes that were added, in the order
in which they were added.
-/

set_option autoImplicit false

namespace RankedSearch

/-! ## Events -/

/-- The preparation that an event is. -/
def RunEvent.preparation? : RunEvent → Option Preparation
  | .prepared p => some p
  | .crew _ | .joined _ | .interrupted | .raised | .finished _ | .dropped _ | .drained
  | .elsewhere _ => none

/-- The result that an event brings to a worker. -/
def RunEvent.resultOf? (i : Nat) : RunEvent → Option TrialResult
  | .crew e => Crew.resultOf? i e
  | .prepared _ | .joined _ | .interrupted | .raised | .finished _ | .dropped _ | .drained
  | .elsewhere _ => none

namespace Run

/-! ## Moves -/

/-- A slot of the run. -/
def slotAt (r : Run) (index : Nat) (workDir : String) : Slot :=
  ⟨r.id, index, r.config.workerSeed index, r.config.foldCount, workDir, r.deadline⟩

/-- The worker that a preparation puts into a slot, unless it panics. -/
def firstWorker? (r : Run) (index : Nat) : Preparation → Option Worker
  | .ready workDir =>
    some ⟨r.slotAt index workDir, r.config.historyCapacity.toNat,
      max r.config.maxConsecutiveFailures 1, Tally.zero, 0, .head⟩
  | .noDirectory e =>
    some (Worker.unprepared (r.slotAt index "") (PreparationError.message ⟨index, e.message⟩))
  | .refused workDir e =>
    some (Worker.unprepared (r.slotAt index workDir) (PreparationError.message ⟨index, e.message⟩))
  | .panicked _ _ => none

/-- The history that a report made now would hold, and the registry with it. -/
def closing (r : Run) : Handle × Registry :=
  reportedHistory (r.crew.registry.poll r.id).2 (r.crew.registry.poll r.id).1

/-- The report that is made at a moment. -/
def reportAt (r : Run) (now : Timestamp) : SearchReport where
  status :=
    (tallied r.status.markDraining (WorkerReport.sortByIndex r.reports)).markFinalized now
      ((r.closing.2.history r.closing.1).bestScore?.map Score.word)
  history := r.closing.1
  workers := WorkerReport.sortByIndex r.reports

/-- The run with its report made. -/
def reported (r : Run) (now : Timestamp) : Run :=
  { r with
    status := (r.reportAt now).status
    crew := { r.crew with registry := r.closing.2 }
    stage := .finished (r.reportAt now) }

/-- What an event can do to a run. -/
inductive Moves (r : Run) : RunEvent → Run → Prop
  | launched {workDir : String} (stage : r.stage = .searching) (more : r.allPrepared = false) :
      Moves r (.prepared (.ready workDir)) (r.launch workDir)
  | unplaced {e : IoError} (stage : r.stage = .searching) (more : r.allPrepared = false) :
      Moves r (.prepared (.noDirectory e)) (r.giveUpSlot "" e.message)
  | refused {workDir : String} {e : TrialError} (stage : r.stage = .searching)
      (more : r.allPrepared = false) :
      Moves r (.prepared (.refused workDir e)) (r.giveUpSlot workDir e.message)
  | unwound {workDir : String} {p : Panic} (stage : r.stage = .searching)
      (more : r.allPrepared = false) :
      Moves r (.prepared (.panicked workDir p)) (r.depart (.unwound p))
  | crew {e : CrewEvent} {c : Crew} (moves : r.crew.Moves e c) :
      Moves r (.crew e) { r with crew := c }
  | joined {i : Nat} {w : Worker} {report : WorkerReport} (joins : r.joins = true)
      (unjoined : i ∉ r.joined) (here : r.crew.members[i]? = some w)
      (ended : w.report? = some report) :
      Moves r (.joined i) { r with joined := r.joined ++ [i], reports := r.reports ++ [report] }
  | interrupted (stage : r.stage = .searching) (prepared : r.allPrepared = true)
      (first : r.interrupted = false) :
      Moves r .interrupted
        { r with
          crew := { r.crew with flagged := true }
          status := r.status.markCancelled
          interrupted := true }
  | raised (searches : r.config.skipSearch = false) :
      Moves r .raised { r with crew := { r.crew with flagged := true } }
  | finished (now : Timestamp) (stage : r.stage = .searching) (prepared : r.allPrepared = true)
      (joined : r.allJoined = true) : Moves r (.finished now) (r.reported now)
  | dropped (stage : r.stage = .searching) (prepared : r.allPrepared = true) :
      Moves r (.dropped true) (r.depart .dropped)
  | abandoned (stage : r.stage = .searching) (prepared : r.allPrepared = true) :
      Moves r (.dropped false)
        { r.withoutEntry with
          crew := { r.withoutEntry.crew with flagged := true }
          stage := .abandoned }
  | drained {d : Departure} (stage : r.stage = .draining d) (joined : r.allJoined = true) :
      Moves r .drained { r.withoutEntry with stage := .drained d }
  | elsewhere {command : Registry.Command}
      (apart : concerns r.crew.registry r.id command = false) :
      Moves r (.elsewhere command)
        { r with crew := { r.crew with registry := (r.crew.registry.execute command).2 } }

variable {r r' : Run} {e : RunEvent}

/-- Every step is one of the listed moves. -/
theorem moves_of_step (stepped : r.step e = some r') : r.Moves e r' := by
  cases e with
  | prepared p =>
      simp only [step, prepare] at stepped
      split at stepped
      · rename_i may
        cases stepped
        cases p with
        | ready workDir => exact .launched may.1 may.2
        | noDirectory e => exact .unplaced may.1 may.2
        | refused workDir e => exact .refused may.1 may.2
        | panicked workDir p => exact .unwound may.1 may.2
      · cases stepped
  | crew e =>
      obtain ⟨c, moved, rfl⟩ := Option.map_eq_some_iff.mp stepped
      exact .crew (Crew.moves_of_step moved)
  | joined i =>
      simp only [step, join] at stepped
      split at stepped
      · rename_i may
        simp only [Option.bind_eq_bind, Option.bind_eq_some_iff, Option.pure_def,
          Option.some.injEq] at stepped
        obtain ⟨w, here, report, ended, rfl⟩ := stepped
        exact .joined may.1 may.2 here ended
      · cases stepped
  | interrupted =>
      simp only [step, interrupt] at stepped
      split at stepped
      · rename_i may
        cases stepped
        exact .interrupted may.1 may.2.1 may.2.2
      · cases stepped
  | raised =>
      simp only [step, raise] at stepped
      split at stepped
      · rename_i searches
        cases stepped
        exact .raised searches
      · cases stepped
  | finished now =>
      simp only [step, finish] at stepped
      split at stepped
      · rename_i may
        cases stepped
        exact .finished now may.1 may.2.1 may.2.2
      · cases stepped
  | dropped attended =>
      simp only [step, drop] at stepped
      split at stepped
      · rename_i may
        cases stepped
        cases attended with
        | true => exact .dropped may.1 may.2
        | false => exact .abandoned may.1 may.2
      · cases stepped
  | drained =>
      simp only [step, drain] at stepped
      split at stepped
      · rename_i d stage
        split at stepped
        · rename_i joined
          cases stepped
          exact .drained stage joined
        · cases stepped
      · cases stepped
  | elsewhere command =>
      simp only [step] at stepped
      split at stepped
      · cases stepped
      · rename_i apart
        cases stepped
        exact .elsewhere (Bool.eq_false_iff.mpr apart)

/-! ## Sequences of events -/

theorem steps_append (r : Run) (es fs : List RunEvent) :
    r.steps (es ++ fs) = (r.steps es).bind fun r => r.steps fs := by
  induction es generalizing r with
  | nil => rfl
  | cons e es ih =>
      rw [List.cons_append, steps, steps, Option.bind_assoc]
      exact congrArg _ (funext ih)

theorem steps_concat (r : Run) (es : List RunEvent) (e : RunEvent) :
    r.steps (es ++ [e]) = (r.steps es).bind fun r => r.step e := by
  have once : (fun r : Run => r.steps [e]) = fun r => r.step e := by
    funext r
    exact Option.bind_fun_some (r.step e)
  rw [steps_append, once]

/-- An event among others happens to the run that those before it have made. -/
theorem exists_step_of_steps {r₀ : Run} {front back : List RunEvent}
    (reached : r₀.steps (front ++ e :: back) = some r) :
    ∃ p q, r₀.steps front = some p ∧ p.step e = some q ∧ q.steps back = some r := by
  rw [steps_append] at reached
  obtain ⟨p, before, onwards⟩ := Option.bind_eq_some_iff.mp reached
  obtain ⟨q, stepped, after⟩ := Option.bind_eq_some_iff.mp onwards
  exact ⟨p, q, before, stepped, after⟩

/-- What holds of a run at first, and is kept by every step, holds after any events. -/
theorem steps_rec {motive : List RunEvent → Run → Prop} {r₀ : Run} (first : motive [] r₀)
    (next : ∀ {es e r r'}, r₀.steps es = some r → motive es r → r.step e = some r' →
      motive (es ++ [e]) r') {es : List RunEvent} (reached : r₀.steps es = some r) :
    motive es r := by
  induction es using List.reverseRecOn generalizing r with
  | nil =>
      cases reached
      exact first
  | append_singleton es e ih =>
      rw [steps_concat] at reached
      obtain ⟨q, before, stepped⟩ := Option.bind_eq_some_iff.mp reached
      exact next before (ih before) stepped

/-- What holds of a run at first, and is kept by every move, holds after any events. -/
theorem steps_induction {motive : List RunEvent → Run → Prop} {r₀ : Run} (first : motive [] r₀)
    (next : ∀ {es e r r'}, r₀.steps es = some r → motive es r → r.Moves e r' →
      motive (es ++ [e]) r') {es : List RunEvent} (reached : r₀.steps es = some r) :
    motive es r :=
  steps_rec first (fun before known stepped => next before known (moves_of_step stepped)) reached

/-- The preparations among several events. -/
def preparations (es : List RunEvent) : List Preparation := es.filterMap RunEvent.preparation?

/-- The results that came to a worker in several events. -/
def resultsOf (i : Nat) (es : List RunEvent) : List TrialResult :=
  es.filterMap (RunEvent.resultOf? i)

/-- The outcome that an event adds to a history, with the worker that adds it. -/
def addition? (r : Run) : RunEvent → Option (Nat × Outcome)
  | .crew e => r.crew.addition? e
  | .prepared _ | .joined _ | .interrupted | .raised | .finished _ | .dropped _ | .drained
  | .elsewhere _ => none

/-- What can be observed of several events, each seen in the run to which it happens. -/
def observe {α : Type} (see : Run → RunEvent → Option α) (r : Run) : List RunEvent → List α
  | [] => []
  | e :: es => (see r e).toList ++ (r.attempt e).observe see es

/-- The outcomes that workers add in several events, in the order of adding. -/
def additions (r : Run) (es : List RunEvent) : List (Nat × Outcome) := r.observe addition? es

/-- The outcomes that one worker has added. -/
def additionsBy (i : Nat) (as : List (Nat × Outcome)) : List Outcome :=
  as.filterMap fun a => if a.1 = i then some a.2 else none

@[simp] theorem preparations_concat (es : List RunEvent) (e : RunEvent) :
    preparations (es ++ [e]) = preparations es ++ e.preparation?.toList := by
  cases prepared : e.preparation? <;> simp [preparations, prepared]

@[simp] theorem resultsOf_concat (i : Nat) (es : List RunEvent) (e : RunEvent) :
    resultsOf i (es ++ [e]) = resultsOf i es ++ (e.resultOf? i).toList := by
  cases received : e.resultOf? i <;> simp [resultsOf, received]

theorem observe_append {α : Type} (see : Run → RunEvent → Option α) {r₀ : Run}
    {es : List RunEvent} (reached : r₀.steps es = some r) (fs : List RunEvent) :
    r₀.observe see (es ++ fs) = r₀.observe see es ++ r.observe see fs := by
  induction es generalizing r₀ with
  | nil =>
      cases reached
      rfl
  | cons e es ih =>
      obtain ⟨q, stepped, later⟩ := Option.bind_eq_some_iff.mp reached
      have attempted : r₀.attempt e = q := by simp [attempt, stepped]
      simp only [List.cons_append, observe, attempted, ih later, List.append_assoc]

theorem observe_concat {α : Type} (see : Run → RunEvent → Option α) {r₀ : Run}
    {es : List RunEvent} (reached : r₀.steps es = some r) (e : RunEvent) :
    r₀.observe see (es ++ [e]) = r₀.observe see es ++ (see r e).toList := by
  rw [observe_append see reached, observe, observe, List.append_nil]

theorem additions_concat {r₀ : Run} {es : List RunEvent} (reached : r₀.steps es = some r)
    (e : RunEvent) : r₀.additions (es ++ [e]) = r₀.additions es ++ (r.addition? e).toList :=
  observe_concat addition? reached e

@[simp] theorem additionsBy_append (i : Nat) (as bs : List (Nat × Outcome)) :
    additionsBy i (as ++ bs) = additionsBy i as ++ additionsBy i bs := List.filterMap_append

theorem additionsBy_own (i : Nat) (o : Option Outcome) :
    additionsBy i (o.map fun o => (i, o)).toList = o.toList := by
  cases o <;> simp [additionsBy]

theorem additionsBy_other {i : Nat} {a : Option (Nat × Outcome)}
    (other : ∀ o, a ≠ some (i, o)) : additionsBy i a.toList = [] := by
  cases a with
  | none => rfl
  | some a =>
      obtain ⟨j, o⟩ := a
      have different : j ≠ i := by
        rintro rfl
        exact other o rfl
      simp [additionsBy, different]

/-- What each worker has added determines the additions up to their order. -/
theorem perm_of_additionsBy {as bs : List (Nat × Outcome)}
    (same : ∀ i, additionsBy i as = additionsBy i bs) : as.Perm bs := by
  have counted (as : List (Nat × Outcome)) (i : Nat) (o : Outcome) :
      as.count (i, o) = (additionsBy i as).count o := by
    rw [additionsBy, List.count_filterMap, List.count_eq_countP]
    refine List.countP_congr fun a _ => ?_
    obtain ⟨k, p⟩ := a
    by_cases own : k = i <;> simp [own]
  refine List.perm_iff_count.mpr fun (i, o) => ?_
  rw [counted, counted, same]

/-! ## What a move does to one slot -/

/-- A preparation that does not panic puts its worker into the next slot. -/
theorem Moves.prepared_members {p : Preparation} (moves : r.Moves (.prepared p) r') :
    (∃ w, r.firstWorker? r.crew.members.length p = some w ∧
      r'.crew.members = r.crew.members ++ [w]) ∨
    (r.firstWorker? r.crew.members.length p = none ∧ r'.crew.members = r.crew.members) := by
  cases moves with
  | launched => exact .inl ⟨_, rfl, rfl⟩
  | unplaced => exact .inl ⟨_, rfl, rfl⟩
  | refused => exact .inl ⟨_, rfl, rfl⟩
  | unwound => exact .inr ⟨rfl, rfl⟩

/-- What a move does to one slot: nothing, or its worker takes a turn, or it
gets its first worker. -/
theorem Moves.slot (moves : r.Moves e r') (j : Nat) :
    (r'.crew.members[j]? = r.crew.members[j]? ∧ e.resultOf? j = none ∧
      ∀ o, r.addition? e ≠ some (j, o)) ∨
    (∃ w w' added, r.crew.members[j]? = some w ∧ r'.crew.members[j]? = some w' ∧
      w.Turns (e.resultOf? j) added w' ∧ r.addition? e = added.map fun o => (j, o)) ∨
    (∃ p w, e = .prepared p ∧ j = r.crew.members.length ∧ r.firstWorker? j p = some w ∧
      r'.crew.members[j]? = some w) := by
  cases e with
  | prepared p =>
      have none : ∀ o, r.addition? (.prepared p) ≠ some (j, o) := fun o added => by cases added
      rcases moves.prepared_members with ⟨w, first, members⟩ | ⟨_, members⟩
      · rcases Nat.lt_trichotomy j r.crew.members.length with inside | rfl | outside
        · exact .inl ⟨by rw [members, List.getElem?_append_left inside], rfl, none⟩
        · exact .inr (.inr ⟨p, w, rfl, rfl, first, by rw [members, List.getElem?_concat_length]⟩)
        · refine .inl ⟨?_, rfl, none⟩
          rw [members, List.getElem?_eq_none (by simp; omega), List.getElem?_eq_none outside.le]
      · exact .inl ⟨by rw [members], rfl, none⟩
  | crew e =>
      cases moves with
      | crew moves =>
          rcases moves.member j with same | turn
          · exact .inl same
          · exact .inr (.inl turn)
  | joined i | interrupted | raised | finished now | dropped attended | drained
  | elsewhere command =>
      cases moves <;> exact .inl ⟨rfl, rfl, fun o added => by cases added⟩

end Run
end RankedSearch
