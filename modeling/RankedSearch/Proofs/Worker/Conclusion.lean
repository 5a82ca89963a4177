import RankedSearch.Proofs.Worker.Course

/-!
# How a worker ends of its own

A worker that neither the flag nor the clock has stopped ends with the first of
its results that concludes (`Concluded`). Two workers with the same limit whose
sources answer alike therefore end with the same results
(`Concluded.eq_of_stream`), and what a worker reports then depends on its place,
its seed and these results only (`HasSeen.report?_eq`). So workers that begin alike
end alike, whatever happens around them (`Worker.Alike.ends`).
-/

set_option autoImplicit false

namespace RankedSearch

/-! ## The first conclusion -/

/-- Results that end a worker with a failure limit, the last of them being the
first that does. -/
structure Concluded (limit : Nat) (rs : List TrialResult) : Prop where
  ends : concludes limit rs = true
  first : ∀ front, front <+: rs → front ≠ rs → concludes limit front = false

section Concluded

variable {limit : Nat} {rs ss : List TrialResult} {r : TrialResult}

theorem Unconcluded.concluded (before : Unconcluded limit rs)
    (ends : concludes limit (rs ++ [r]) = true) : Concluded limit (rs ++ [r]) where
  ends := ends
  first := by
    intro front inside shorter
    rcases List.prefix_concat_iff.mp inside with same | earlier
    · exact absurd same shorter
    · exact before front earlier

theorem Concluded.eq_of_prefix (short : Concluded limit rs) (long : Concluded limit ss)
    (front : rs <+: ss) : rs = ss := by
  by_contra different
  have goesOn := long.first rs front different
  rw [short.ends] at goesOn
  cases goesOn

/-- Answers from one stream have only one first conclusion. -/
theorem Concluded.eq_of_stream (first : Concluded limit rs) (second : Concluded limit ss)
    {stream : Nat → TrialResult} (fromStream : ∀ k r, rs[k]? = some r → r = stream k)
    (alsoFromStream : ∀ k r, ss[k]? = some r → r = stream k) : rs = ss := by
  have front {xs ys : List TrialResult} (xsFrom : ∀ k r, xs[k]? = some r → r = stream k)
      (ysFrom : ∀ k r, ys[k]? = some r → r = stream k) (shorter : xs.length ≤ ys.length) :
      xs <+: ys := by
    refine List.prefix_iff_getElem?.mpr fun k inside => ?_
    have alsoInside : k < ys.length := inside.trans_le shorter
    rw [List.getElem?_eq_getElem alsoInside]
    exact congrArg some ((ysFrom k _ (List.getElem?_eq_getElem alsoInside)).trans
      (xsFrom k _ (List.getElem?_eq_getElem inside)).symm)
  rcases Nat.le_total rs.length ss.length with shorter | longer
  · exact first.eq_of_prefix second (front fromStream alsoFromStream shorter)
  · exact (second.eq_of_prefix first (front alsoFromStream fromStream longer)).symm

end Concluded

/-! ## The report -/

/-- A report with the counts that results amount to. -/
def Tally.report (t : Tally) (index : Nat) (seed : UInt64) (exit : WorkerExit) : WorkerReport :=
  ⟨index, seed, exit, t.recorded, t.ignored, t.failures, t.best.map Score.word⟩

/-- The report of a worker that ended of its own after given results. -/
def WorkerReport.ofResults (index : Nat) (seed : UInt64) (rs : List TrialResult) : WorkerReport :=
  match rs.getLast? with
  | some (.panic p) => blank index seed (.panicked p.message)
  | some (.failure e) => (Tally.ofResults rs).report index seed (.failed e.message)
  | some .exhausted | some (.outcome _) | none =>
    (Tally.ofResults rs).report index seed .exhausted

/-- Neither the flag nor the clock has stopped a worker in this phase. -/
def Phase.Undisturbed (phase : Phase) : Prop :=
  phase ≠ .stopped .cancelled ∧ phase ≠ .stopped .timedOut

namespace Worker.HasSeen

variable {w : Worker} {rs : List TrialResult}

/-- **What a worker reports depends on its place, its seed and its results.** -/
theorem report?_eq (seen : w.HasSeen rs) (ended : w.hasEnded = true)
    (launched : w.wasLaunched = true) (undisturbed : w.phase.Undisturbed) :
    Concluded w.limit rs ∧
      w.report? = some (WorkerReport.ofResults w.slot.index w.slot.seed rs) := by
  cases phase : w.phase with
  | head | unflagged | calling | holding o | admitting h o =>
      simp only [hasEnded, phase] at ended
      cases ended
  | panicked p =>
      obtain ⟨front, rfl, unconcluded⟩ := seen.fits_of phase
      refine ⟨unconcluded.concluded concludes_panic, ?_⟩
      simp only [report?, phase, WorkerReport.ofResults, List.getLast?_concat]
  | stopped exit =>
      have counted : w.tally = Tally.ofResults rs := seen.all_counted (by rw [phase]; rfl)
      cases exit with
      | exhausted =>
          obtain ⟨front, rfl, unconcluded⟩ := seen.fits_of phase
          refine ⟨unconcluded.concluded concludes_exhausted, ?_⟩
          simp only [report?, phase, counted, WorkerReport.ofResults, List.getLast?_concat,
            Tally.report]
      | failed reason =>
          obtain ⟨front, e, rfl, rfl, atLimit, unconcluded⟩ := seen.fits_of phase
          have ends : concludes w.limit (front ++ [.failure e]) = true := by
            rw [concludes_failure_iff, ← failureRow_concat_failure, atLimit]
          refine ⟨unconcluded.concluded ends, ?_⟩
          simp only [report?, phase, counted, WorkerReport.ofResults, List.getLast?_concat,
            Tally.report]
      | cancelled => exact absurd phase undisturbed.1
      | timedOut => exact absurd phase undisturbed.2
      | panicked reason => exact (seen.fits_of phase).elim
      | prepareFailed reason =>
          simp only [wasLaunched, phase] at launched
          cases launched

/-- Unless it panicked, an ended worker reports what its results amount to. -/
theorem report_eq_of_calm (seen : w.HasSeen rs) {report : WorkerReport}
    (reported : w.report? = some report) (calm : ∀ p, .panic p ∉ rs) :
    report = (Tally.ofResults rs).report w.slot.index w.slot.seed report.exit := by
  cases phase : w.phase with
  | head | unflagged | calling | holding o | admitting h o =>
      simp only [report?, phase] at reported
      cases reported
  | panicked p =>
      obtain ⟨front, rfl, _⟩ := seen.fits_of phase
      exact absurd (List.mem_append_right front (List.mem_singleton.mpr rfl)) (calm p)
  | stopped exit =>
      have counted : w.tally = Tally.ofResults rs := seen.all_counted (by rw [phase]; rfl)
      simp only [report?, phase, counted, Option.some.injEq] at reported
      subst reported
      rfl

/-- A panic is the last thing that a worker sees. -/
theorem phase_of_panic {front : List TrialResult} {p : Panic}
    (seen : w.HasSeen (front ++ [.panic p])) :
    w.phase = .panicked p ∧ Unconcluded w.limit front := by
  have goesOn : ¬ Unconcluded w.limit (front ++ [.panic p]) := fun unconcluded => by
    have last := unconcluded _ (List.prefix_refl _)
    rw [concludes_panic] at last
    cases last
  cases phase : w.phase with
  | head | unflagged | calling | holding o | admitting h o =>
      exact absurd (seen.fits_of phase).1 goesOn
  | panicked q =>
      obtain ⟨before, whole, unconcluded⟩ := seen.fits_of phase
      obtain ⟨rfl, last⟩ := List.append_inj' whole rfl
      cases last
      exact ⟨rfl, unconcluded⟩
  | stopped exit =>
      cases exit with
      | cancelled | timedOut => exact absurd (seen.fits_of phase).1 goesOn
      | exhausted =>
          obtain ⟨before, whole, _⟩ := seen.fits_of phase
          cases (List.append_inj' whole rfl).2
      | failed reason =>
          obtain ⟨before, e, whole, _⟩ := seen.fits_of phase
          cases (List.append_inj' whole rfl).2
      | panicked reason => exact (seen.fits_of phase).elim
      | prepareFailed reason =>
          exact absurd (seen.fits_of phase) (List.append_ne_nil_of_right_ne_nil front (by simp))

/-- A worker that was never launched has seen nothing. -/
theorem eq_nil_of_not_launched (seen : w.HasSeen rs) (idle : w.wasLaunched = false) : rs = [] := by
  cases phase : w.phase with
  | stopped exit =>
      cases exit with
      | prepareFailed reason => exact seen.fits_of phase
      | exhausted | cancelled | timedOut | failed | panicked =>
          simp only [wasLaunched, phase] at idle
          cases idle
  | head | unflagged | calling | holding | admitting | panicked =>
      simp only [wasLaunched, phase] at idle
      cases idle

end Worker.HasSeen

/-! ## Two workers -/

/-- Workers that stand in one slot of two searches with the same settings, both
launched or both not. -/
structure Worker.Alike (w v : Worker) : Prop where
  index : w.slot.index = v.slot.index
  seed : w.slot.seed = v.slot.seed
  limit : w.limit = v.limit
  launched : w.wasLaunched = v.wasLaunched
  unlaunched : w.wasLaunched = false →
    w.hasEnded = true ∧ v.hasEnded = true ∧ w.report? = v.report?

/-- Workers that begin alike and whose sources answer alike end alike. -/
theorem Worker.Alike.ends {w v first second : Worker} {rs ss : List TrialResult}
    {os ps : List Outcome} (alike : first.Alike second) (serves : w.Serves first rs os)
    (servesToo : v.Serves second ss ps) (ended : w.hasEnded = true) (endedToo : v.hasEnded = true)
    (undisturbed : w.phase.Undisturbed) (undisturbedToo : v.phase.Undisturbed)
    {stream : Nat → TrialResult} (fromStream : ∀ k r, rs[k]? = some r → r = stream k)
    (alsoFromStream : ∀ k r, ss[k]? = some r → r = stream k) :
    rs = ss ∧ w.report? = v.report? := by
  cases launched : first.wasLaunched with
  | true =>
      obtain ⟨concluded, report⟩ := serves.seen.report?_eq ended
        (serves.began.launched launched) undisturbed
      obtain ⟨concludedToo, reportToo⟩ := servesToo.seen.report?_eq endedToo
        (servesToo.began.launched (alike.launched ▸ launched)) undisturbedToo
      rw [serves.began.limit_eq, alike.limit, ← servesToo.began.limit_eq] at concluded
      have results := concluded.eq_of_stream concludedToo fromStream alsoFromStream
      refine ⟨results, ?_⟩
      rw [report, reportToo, results, serves.began.slot, servesToo.began.slot, alike.index,
        alike.seed]
  | false =>
      obtain ⟨atOnce, atOnceToo, reports⟩ := alike.unlaunched launched
      have unmoved := serves.began.ended atOnce
      have unmovedToo := servesToo.began.ended atOnceToo
      subst unmoved
      subst unmovedToo
      refine ⟨?_, reports⟩
      rw [serves.seen.eq_nil_of_not_launched launched,
        servesToo.seen.eq_nil_of_not_launched (alike.launched ▸ launched)]

end RankedSearch
