import RankedSearch.Proofs.Worker.Course

/-!
# Winding down

A worker that is asked to stop heeds this at the head of its loop only. If it is past
the head, it still looks at the clock, and it may complete the call of its source; if
it has an outcome, it still adds it. `Phase.WindsDown` lists all that a worker does
between the request and its end, by the phase in which the request finds it. A turn
of a worker that is asked to stop goes on with this (`WindsDown.turn`), so at most
one call is completed and at most one outcome is added, and an outcome that a call
returns is held until it is added (`WindsDown.added_or_held`).
-/

set_option autoImplicit false

namespace RankedSearch
namespace Phase

variable {p q : Phase} {rs : List TrialResult} {os : List Outcome} {o : Outcome}

/-- A worker in this phase has looked at the flag and not yet got an answer. -/
def HasPassed (p : Phase) : Prop := p = .unflagged ∨ p = .calling

/-- A worker in this phase does nothing any more. -/
def IsOver : Phase → Prop
  | .stopped _ | .panicked _ => True
  | .head | .unflagged | .calling | .holding _ | .admitting _ _ => False

/-- Since a phase a worker has got an outcome: it held the outcome all along, or its
source has returned it. -/
def HandsOver (p : Phase) (rs : List TrialResult) (o : Outcome) : Prop :=
  p.held? = some o ∧ rs = [] ∨ p.HasPassed ∧ rs = [.outcome o]

theorem HandsOver.length_le_one (hands : p.HandsOver rs o) : rs.length ≤ 1 := by
  rcases hands with ⟨_, rfl⟩ | ⟨_, rfl⟩
  · exact Nat.zero_le 1
  · exact le_rfl

theorem HandsOver.hasPassed (hands : p.HandsOver rs o) (answered : rs ≠ []) : p.HasPassed := by
  rcases hands with ⟨_, nothing⟩ | ⟨passed, _⟩
  · exact absurd nothing answered
  · exact passed

theorem HandsOver.eq_of_returned {returned : Outcome}
    (hands : p.HandsOver [.outcome returned] o) : o = returned := by
  rcases hands with ⟨_, nothing⟩ | ⟨_, same⟩
  · cases nothing
  · cases same
    rfl

/-- What a worker that is asked to stop in a phase may have been answered and have
added, and where it stands then. -/
inductive WindsDown (p : Phase) : List TrialResult → List Outcome → Phase → Prop
  | stays : WindsDown p [] [] p
  | calls (passed : p = .unflagged) : WindsDown p [] [] .calling
  | timesOut (passed : p = .unflagged) : WindsDown p [] [] (.stopped .timedOut)
  | ends {result : TrialResult} {q : Phase} (passed : p.HasPassed)
      (nothing : result.outcome? = none) (ended : q.IsOver) : WindsDown p [result] [] q
  | fails (passed : p.HasPassed) (e : TrialError) : WindsDown p [.failure e] [] .head
  | holds {rs : List TrialResult} {o : Outcome} {q : Phase} (hands : p.HandsOver rs o)
      (held : q.held? = some o) : WindsDown p rs [] q
  | adds {rs : List TrialResult} {o : Outcome} (hands : p.HandsOver rs o) :
      WindsDown p rs [o] .head
  | cancelled {rs : List TrialResult} {os : List Outcome} (back : WindsDown p rs os .head) :
      WindsDown p rs os (.stopped .cancelled)

namespace WindsDown

/-! ## Where a worker stands -/

theorem of_unflagged (winds : p.WindsDown rs os .unflagged) :
    p = .unflagged ∧ rs = [] ∧ os = [] := by
  cases winds with
  | stays => exact ⟨rfl, rfl, rfl⟩
  | ends _ _ ended => cases ended
  | holds _ held => cases held

theorem of_calling (winds : p.WindsDown rs os .calling) : p.HasPassed ∧ rs = [] ∧ os = [] := by
  cases winds with
  | stays => exact ⟨.inr rfl, rfl, rfl⟩
  | calls passed => exact ⟨.inl passed, rfl, rfl⟩
  | ends _ _ ended => cases ended
  | holds _ held => cases held

theorem of_held (winds : p.WindsDown rs os q) (held : q.held? = some o) :
    p.HandsOver rs o ∧ os = [] := by
  cases winds with
  | stays => exact ⟨.inl ⟨held, rfl⟩, rfl⟩
  | ends _ _ ended =>
      cases q with
      | stopped | panicked => cases held
      | head | unflagged | calling | holding | admitting => cases ended
  | holds hands alsoHeld =>
      rw [held] at alsoHeld
      cases alsoHeld
      exact ⟨hands, rfl⟩
  | calls | timesOut | fails | adds | cancelled => cases held

/-! ## Turns -/

/-- A turn of a worker that is asked to stop, and heeds this at the head of its loop. -/
theorem turn {w w' : Worker} {received : Option TrialResult} {added : Option Outcome}
    (winds : p.WindsDown rs os w.phase) (turns : w.Turns received added w')
    (heeds : w.phase = .head → w'.phase = .stopped .cancelled) :
    p.WindsDown (rs ++ received.toList) (os ++ added.toList) w'.phase := by
  cases turns with
  | looksAtFlag phase flagged =>
      -- The only turn for which it matters that the worker is asked to stop.
      rw [Option.toList_none, Option.toList_none, List.append_nil, List.append_nil, heeds phase]
      exact .cancelled (phase ▸ winds)
  | looksAtClock phase now =>
      rw [phase] at winds
      obtain ⟨passed, rfl, rfl⟩ := winds.of_unflagged
      simp only [Worker.inPhase]
      split
      · exact .timesOut passed
      · exact .calls passed
  | receives phase o =>
      rw [phase] at winds
      obtain ⟨passed, rfl, rfl⟩ := winds.of_calling
      exact .holds (.inr ⟨passed, rfl⟩) rfl
  | runsOut phase =>
      rw [phase] at winds
      obtain ⟨passed, rfl, rfl⟩ := winds.of_calling
      exact .ends passed rfl trivial
  | panics phase cause =>
      rw [phase] at winds
      obtain ⟨passed, rfl, rfl⟩ := winds.of_calling
      exact .ends passed rfl trivial
  | fails phase e =>
      rw [phase] at winds
      obtain ⟨passed, rfl, rfl⟩ := winds.of_calling
      simp only [Worker.afterFailure]
      split
      · exact .ends passed rfl trivial
      · exact .fails passed e
  | finds phase h =>
      rw [phase] at winds
      obtain ⟨hands, rfl⟩ := winds.of_held rfl
      rw [Option.toList_none, List.append_nil]
      exact .holds hands rfl
  | adds phase _ =>
      rw [phase] at winds
      obtain ⟨hands, rfl⟩ := winds.of_held rfl
      rw [Option.toList_none, List.append_nil]
      exact .adds hands

/-! ## What is bounded and what is kept -/

/-- At most one call is completed, and at most one outcome is added. -/
theorem length_le_one (winds : p.WindsDown rs os q) : rs.length ≤ 1 ∧ os.length ≤ 1 := by
  induction winds with
  | stays | calls | timesOut => exact ⟨Nat.zero_le 1, Nat.zero_le 1⟩
  | ends | fails => exact ⟨le_rfl, Nat.zero_le 1⟩
  | holds hands => exact ⟨hands.length_le_one, Nat.zero_le 1⟩
  | adds hands => exact ⟨hands.length_le_one, le_rfl⟩
  | cancelled _ ih => exact ih

/-- Only a worker that was past the head of its loop completes a call. -/
theorem hasPassed (winds : p.WindsDown rs os q) (answered : rs ≠ []) : p.HasPassed := by
  induction winds with
  | stays | calls | timesOut => exact absurd rfl answered
  | ends passed | fails passed => exact passed
  | holds hands | adds hands => exact hands.hasPassed answered
  | cancelled _ ih => exact ih answered

/-- An outcome that a call returns is held or added, and the worker that has added it
stops as cancelled, if it has stopped. -/
theorem added_or_held (winds : p.WindsDown [.outcome o] os q) :
    q.held? = some o ∧ os = [] ∨ os = [o] ∧ (q = .head ∨ q = .stopped .cancelled) := by
  generalize answered : [TrialResult.outcome o] = rs at winds
  induction winds with
  | stays | calls | timesOut => cases answered
  | ends _ nothing =>
      cases answered
      cases nothing
  | fails => cases answered
  | holds hands held =>
      subst answered
      exact .inl ⟨hands.eq_of_returned ▸ held, rfl⟩
  | adds hands =>
      subst answered
      exact .inr ⟨congrArg (fun o => [o]) hands.eq_of_returned, .inl rfl⟩
  | cancelled _ ih =>
      rcases ih answered with ⟨held, _⟩ | ⟨added, _⟩
      · cases held
      · exact .inr ⟨added, .inr rfl⟩

end WindsDown
end Phase
end RankedSearch
