import RankedSearch.Proofs.Run.Moves

/-!
# The course of a run

From its start on, a run knows for each of its slots what the preparation of the
slot, the results that came to it and the additions made from it amount to
(`Run.AtSlot`): the worker there began as the preparation says, it stands where
its results have brought it, and the outcomes among the results are those that it
has added, in their order, followed by the one that it holds.

Every move keeps this (`Course.move`), so it holds after any events
(`course_of_steps`).
-/

set_option autoImplicit false

namespace RankedSearch
namespace Run

variable {r₀ r r' : Run} {e : RunEvent} {es : List RunEvent} {i j : Nat} {w : Worker}

/-! ## What every move keeps -/

/-- A move leaves the settings of a run as they are. -/
theorem Moves.settings_kept (moves : r.Moves e r') :
    r'.id = r.id ∧ r'.config = r.config ∧ r'.deadline = r.deadline := by
  cases moves <;> exact ⟨rfl, rfl, rfl⟩

/-- The caller waits at first, or no more. -/
theorem Moves.searching_before (moves : r.Moves e r') (stage : r'.stage = .searching) :
    r.stage = .searching := by
  cases moves with
  | launched before | unplaced before | refused before | interrupted before => exact before
  | crew | joined | raised | elsewhere => exact stage
  | unwound | finished | dropped | abandoned | drained => cases stage

theorem Moves.stage_of_prepared {p : Preparation} (moves : r.Moves (.prepared p) r') :
    r.stage = .searching := by
  cases moves <;> assumption

/-- While the caller waits, a preparation fills a slot and nothing else does. -/
theorem Moves.length_members (moves : r.Moves e r') (stage : r'.stage = .searching) :
    r'.crew.members.length = r.crew.members.length + e.preparation?.toList.length := by
  cases moves with
  | launched | unplaced | refused => exact List.length_append
  | crew moves => exact moves.length_members
  | joined | interrupted | raised | elsewhere => rfl
  | unwound | finished | dropped | abandoned | drained => cases stage

/-- No more slots are filled than there are. -/
theorem Moves.length_le (moves : r.Moves e r')
    (fits : r.crew.members.length ≤ r.config.slotCount) :
    r'.crew.members.length ≤ r'.config.slotCount := by
  cases moves with
  | launched stage more | unplaced stage more | refused stage more =>
      have room : r.crew.members.length < r.config.slotCount := by
        simpa [allPrepared] using more
      exact (@List.length_append _ r.crew.members _).trans_le room
  | crew moves => exact moves.length_members.trans_le fits
  | unwound | joined | interrupted | raised | finished | dropped | abandoned | drained
  | elsewhere => exact fits

/-! ## What is known of the slots -/

/-- What events of a run that began as `r₀` have made of a slot, in which there is
no worker or the given one. -/
inductive AtSlot (r₀ : Run) (es : List RunEvent) (j : Nat) : Option Worker → Prop
  | vacant (results : resultsOf j es = []) (additions : additionsBy j (r₀.additions es) = []) :
      AtSlot r₀ es j none
  | manned {p : Preparation} {w first : Worker} (prepared : (preparations es)[j]? = some p)
      (began : r₀.firstWorker? j p = some first)
      (serves : w.Serves first (resultsOf j es) (additionsBy j (r₀.additions es))) :
      AtSlot r₀ es j (some w)

/-- What events of a run that began as `r₀` have brought about. -/
structure Course (r₀ : Run) (es : List RunEvent) (r : Run) : Prop where
  id : r.id = r₀.id
  config : r.config = r₀.config
  deadline : r.deadline = r₀.deadline
  /-- While the caller waits, every preparation has filled a slot. -/
  prepared : r.stage = .searching → (preparations es).length = r.crew.members.length
  slots : ∀ j, AtSlot r₀ es j r.crew.members[j]?

theorem course_nil (unmanned : r₀.crew.members = []) : Course r₀ [] r₀ where
  id := rfl
  config := rfl
  deadline := rfl
  prepared := fun _ => by rw [unmanned]; rfl
  slots := fun j => by
    rw [unmanned, List.getElem?_nil]
    exact .vacant rfl rfl

theorem firstWorker?_congr (id : r.id = r₀.id) (config : r.config = r₀.config)
    (deadline : r.deadline = r₀.deadline) (j : Nat) (p : Preparation) :
    r.firstWorker? j p = r₀.firstWorker? j p := by
  cases p <;> simp only [firstWorker?, slotAt, id, config, deadline]

/-- The first worker of a slot has seen nothing and added nothing. -/
theorem serves_firstWorker {p : Preparation} (first : r.firstWorker? j p = some w) :
    w.Serves w [] [] := by
  cases p with
  | ready workDir =>
      cases first
      have limited : 0 < (max r.config.maxConsecutiveFailures 1).toNat := by
        rw [Worker.toNat_max_one]
        exact Nat.lt_of_lt_of_le Nat.one_pos (Nat.le_max_right _ _)
      exact Worker.serves_nil (Worker.hasSeen_nil_of_head limited rfl rfl rfl) rfl
  | noDirectory e =>
      cases first
      exact Worker.serves_nil (Worker.hasSeen_unprepared _ _) rfl
  | refused workDir e =>
      cases first
      exact Worker.serves_nil (Worker.hasSeen_unprepared _ _) rfl
  | panicked workDir p => cases first

theorem getElem?_preparations_concat {p : Preparation} (there : (preparations es)[j]? = some p)
    (e : RunEvent) : (preparations (es ++ [e]))[j]? = some p := by
  obtain ⟨inside, _⟩ := List.getElem?_eq_some_iff.mp there
  rw [preparations_concat, List.getElem?_append_left inside, there]

/-- Every move keeps what is known of a slot. -/
theorem Course.slot_move (course : Course r₀ es r) (reached : r₀.steps es = some r)
    (moves : r.Moves e r') (j : Nat) : AtSlot r₀ (es ++ [e]) j r'.crew.members[j]? := by
  have known := course.slots j
  rcases moves.slot j with
    ⟨same, result, addition⟩ | ⟨w, w', added, here, there, turns, addition⟩ |
    ⟨p, w, rfl, rfl, first, there⟩
  · have results : resultsOf j (es ++ [e]) = resultsOf j es := by
      rw [resultsOf_concat, result, Option.toList_none, List.append_nil]
    have additions : additionsBy j (r₀.additions (es ++ [e])) =
        additionsBy j (r₀.additions es) := by
      rw [additions_concat reached, additionsBy_append, additionsBy_other addition,
        List.append_nil]
    rw [same]
    generalize r.crew.members[j]? = member at known
    cases known with
    | vacant noResults noAdditions =>
        exact .vacant (results.trans noResults) (additions.trans noAdditions)
    | manned prepared began serves =>
        refine .manned (getElem?_preparations_concat prepared e) began ?_
        rw [results, additions]
        exact serves
  · rw [here] at known
    cases known with
    | manned prepared began serves =>
        rw [there]
        refine .manned (getElem?_preparations_concat prepared e) began ?_
        rw [resultsOf_concat, additions_concat reached, additionsBy_append, addition,
          additionsBy_own]
        exact serves.turn turns
  · rw [List.getElem?_eq_none le_rfl] at known
    cases known with
    | vacant results additions =>
        have filled := course.prepared moves.stage_of_prepared
        have prepared : (preparations (es ++ [.prepared p]))[r.crew.members.length]? = some p := by
          rw [preparations_concat, ← filled]
          exact List.getElem?_concat_length
        have began : r₀.firstWorker? r.crew.members.length p = some w :=
          firstWorker?_congr course.id course.config course.deadline _ p ▸ first
        rw [there]
        refine .manned prepared began ?_
        rw [resultsOf_concat, additions_concat reached, additionsBy_append, results, additions]
        exact serves_firstWorker first

theorem Course.move (course : Course r₀ es r) (reached : r₀.steps es = some r)
    (moves : r.Moves e r') : Course r₀ (es ++ [e]) r' := by
  obtain ⟨id, config, deadline⟩ := moves.settings_kept
  exact
    { id := id.trans course.id
      config := config.trans course.config
      deadline := deadline.trans course.deadline
      prepared := fun stage => by
        rw [preparations_concat, List.length_append, moves.length_members stage,
          course.prepared (moves.searching_before stage)]
      slots := course.slot_move reached moves }

/-- **What is known of a run at its start is known of it after any events.** -/
theorem course_of_steps (unmanned : r₀.crew.members = []) (reached : r₀.steps es = some r) :
    Course r₀ es r :=
  steps_induction (course_nil unmanned) (fun before course moves => course.move before moves)
    reached

end Run
end RankedSearch
