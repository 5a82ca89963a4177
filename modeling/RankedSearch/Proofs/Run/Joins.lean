import Mathlib.Data.List.Sort
import RankedSearch.Proofs.Run.Course

/-!
# Joining

Workers are joined in the order in which they happen to end. A joined worker has
ended, so it stays as it was, and its report is on record (`Run.Joined`). Once
all are joined no worker can move any more, and sorting the reports by index
gives the reports of the crew in the order of the slots, whatever the order of
joining was (`Course.sortByIndex_reports`).
-/

set_option autoImplicit false

namespace RankedSearch

/-! ## Sorting by index -/

namespace WorkerReport

theorem sortByIndex_eq_insertionSort (reports : List WorkerReport) :
    sortByIndex reports = reports.insertionSort fun a b => a.workerIndex ≤ b.workerIndex := by
  have insert (report : WorkerReport) (rest : List WorkerReport) :
      insertByIndex report rest =
        rest.orderedInsert (fun a b => a.workerIndex ≤ b.workerIndex) report := by
    induction rest with
    | nil => rfl
    | cons next rest ih =>
        rw [insertByIndex, List.orderedInsert_cons, ih]
  induction reports with
  | nil => rfl
  | cons report reports ih =>
      rw [List.insertionSort_cons, ← ih, ← insert]
      rfl

theorem sortByIndex_perm (reports : List WorkerReport) : (sortByIndex reports).Perm reports := by
  rw [sortByIndex_eq_insertionSort]
  exact List.perm_insertionSort _ _

theorem sortByIndex_sorted (reports : List WorkerReport) :
    (sortByIndex reports).Pairwise fun a b => a.workerIndex ≤ b.workerIndex := by
  have total : Std.Total fun a b : WorkerReport => a.workerIndex ≤ b.workerIndex :=
    ⟨fun a b => Nat.le_total a.workerIndex b.workerIndex⟩
  have transitive : IsTrans WorkerReport fun a b => a.workerIndex ≤ b.workerIndex :=
    ⟨fun _ _ _ => Nat.le_trans⟩
  rw [sortByIndex_eq_insertionSort]
  exact List.pairwise_insertionSort _ reports

/-- Reports of different workers have only one order by index. -/
theorem sortByIndex_eq_of_perm {reports sorted : List WorkerReport} (same : reports.Perm sorted)
    (ascending : sorted.Pairwise fun a b => a.workerIndex < b.workerIndex) :
    sortByIndex reports = sorted := by
  have perm : (sortByIndex reports).Perm sorted := (sortByIndex_perm reports).trans same
  have different : (sortByIndex reports).Pairwise fun a b => a.workerIndex ≠ b.workerIndex :=
    (perm.pairwise_iff fun ne => ne.symm).mpr (ascending.imp fun lt => lt.ne)
  have strict : (sortByIndex reports).Pairwise fun a b => a.workerIndex < b.workerIndex :=
    (sortByIndex_sorted reports).imp₂ (fun _ _ le ne => lt_of_le_of_ne le ne) different
  exact perm.eq_of_pairwise (fun _ _ _ _ lt gt => absurd gt (lt_asymm lt)) strict ascending

end WorkerReport

/-- The workers that have a report are those that have ended. -/
theorem Worker.hasEnded_eq_isSome_report? (w : Worker) : w.hasEnded = w.report?.isSome := by
  obtain ⟨slot, historyCapacity, failureLimit, tally, row, phase⟩ := w
  cases phase <;> rfl

theorem Worker.workerIndex_of_report? {w : Worker} {report : WorkerReport}
    (ended : w.report? = some report) : report.workerIndex = w.slot.index := by
  simp only [report?] at ended
  split at ended <;> cases ended <;> rfl

namespace Run

variable {r₀ r r' : Run} {e : RunEvent} {es : List RunEvent} {i j : Nat} {w : Worker}
  {report : WorkerReport}

/-- The report of the worker in a slot, if there is one and it has ended. -/
def slotReport? (r : Run) (i : Nat) : Option WorkerReport :=
  r.crew.members[i]?.bind Worker.report?

/-- The reports on record are those of the joined workers, and no worker is joined twice. -/
structure Joined (r : Run) : Prop where
  nodup : r.joined.Nodup
  reports : r.reports.map some = r.joined.map r.slotReport?

/-! ## Keeping the record -/

/-- A worker that has ended stays as it is. -/
theorem Moves.ended_kept (moves : r.Moves e r') (here : r.crew.members[i]? = some w)
    (ended : w.hasEnded = true) : r'.crew.members[i]? = some w := by
  rcases moves.slot i with ⟨same, _, _⟩ | ⟨v, _, _, there, _, turns, _⟩ | ⟨_, _, _, rfl, _, _⟩
  · rw [same, here]
  · rw [there] at here
    cases here
    rw [turns.not_ended] at ended
    cases ended
  · rw [List.getElem?_eq_none le_rfl] at here
    cases here

theorem ended_kept_of_steps (here : r.crew.members[i]? = some w) (ended : w.hasEnded = true)
    (later : r.steps es = some r') : r'.crew.members[i]? = some w :=
  steps_induction (motive := fun _ q => q.crew.members[i]? = some w) here
    (fun _ still moves => moves.ended_kept still ended) later

/-- A report is final. -/
theorem Moves.slotReport?_kept (moves : r.Moves e r') (reported : r.slotReport? i = some report) :
    r'.slotReport? i = some report := by
  obtain ⟨w, here, stated⟩ := Option.bind_eq_some_iff.mp reported
  have ended : w.hasEnded = true := by
    rw [Worker.hasEnded_eq_isSome_report?, stated]
    rfl
  rw [slotReport?, moves.ended_kept here ended, Option.bind_some, stated]

theorem Joined.exists_report (joined : r.Joined) (member : i ∈ r.joined) :
    ∃ report, r.slotReport? i = some report := by
  have image : r.slotReport? i ∈ r.joined.map r.slotReport? := List.mem_map_of_mem member
  rw [← joined.reports] at image
  obtain ⟨report, _, same⟩ := List.mem_map.mp image
  exact ⟨report, same.symm⟩

theorem Joined.reports_kept (joined : r.Joined) (moves : r.Moves e r') :
    r.reports.map some = r.joined.map r'.slotReport? := by
  rw [joined.reports]
  refine List.map_congr_left fun i member => ?_
  obtain ⟨report, reported⟩ := joined.exists_report member
  rw [reported, moves.slotReport?_kept reported]

theorem Joined.lt_of_mem (joined : r.Joined) (member : i ∈ r.joined) :
    i < r.crew.members.length := by
  obtain ⟨report, reported⟩ := joined.exists_report member
  obtain ⟨w, here, _⟩ := Option.bind_eq_some_iff.mp reported
  exact (List.getElem?_eq_some_iff.mp here).1

theorem Joined.of_same (joined : r.Joined) (moves : r.Moves e r') (slots : r'.joined = r.joined)
    (reports : r'.reports = r.reports) : r'.Joined where
  nodup := slots ▸ joined.nodup
  reports := by
    rw [slots, reports]
    exact joined.reports_kept moves

theorem Joined.of_one_more (joined : r.Joined) (moves : r.Moves e r') (new : i ∉ r.joined)
    (slots : r'.joined = r.joined ++ [i]) (reported : r'.slotReport? i = some report)
    (reports : r'.reports = r.reports ++ [report]) : r'.Joined where
  nodup := by
    rw [slots]
    exact List.nodup_append.mpr ⟨joined.nodup, List.nodup_singleton i,
      fun k member l single => by
        rw [List.mem_singleton.mp single]
        rintro rfl
        exact new member⟩
  reports := by
    rw [slots, reports, List.map_append, List.map_append, joined.reports_kept moves,
      List.map_singleton, List.map_singleton, reported]

theorem Joined.move (joined : r.Joined) (moves : r.Moves e r') : r'.Joined := by
  have moved := moves
  cases moves with
  | unplaced | refused =>
      refine joined.of_one_more moved (fun member => (joined.lt_of_mem member).false) rfl ?_ rfl
      simp [slotReport?, giveUpSlot, enlist, Worker.report?, Worker.unprepared]
  | joined _ unjoined here ended =>
      refine joined.of_one_more moved unjoined rfl ?_ rfl
      exact Option.bind_eq_some_iff.mpr ⟨_, here, ended⟩
  | launched | unwound | crew | interrupted | raised | finished | dropped | abandoned | drained
  | elsewhere => exact joined.of_same moved rfl rfl

theorem joined_of_steps (first : r₀.Joined) (reached : r₀.steps es = some r) : r.Joined :=
  steps_induction (motive := fun _ r => r.Joined) first (fun _ joined moves => joined.move moves)
    reached

/-! ## All workers joined -/

theorem Joined.mem_iff_of_allJoined (joined : r.Joined) (all : r.allJoined = true) :
    i ∈ r.joined ↔ i ∈ List.range r.crew.members.length := by
  constructor
  · intro member
    exact List.mem_range.mpr (joined.lt_of_mem member)
  · intro inside
    simpa using List.all_eq_true.mp all i inside

/-- When all workers are joined, they have all ended. -/
theorem Joined.all_ended (joined : r.Joined) (all : r.allJoined = true) :
    ∀ w ∈ r.crew.members, w.hasEnded = true := by
  intro w member
  obtain ⟨i, inside, here⟩ := List.mem_iff_getElem.mp member
  obtain ⟨report, reported⟩ := joined.exists_report
    ((joined.mem_iff_of_allJoined all).mpr (List.mem_range.mpr inside))
  rw [slotReport?, List.getElem?_eq_getElem inside, here, Option.bind_some] at reported
  rw [Worker.hasEnded_eq_isSome_report?, reported]
  rfl

theorem map_slotReport? (r : Run) :
    (List.range r.crew.members.length).map r.slotReport? =
      r.crew.members.map Worker.report? := by
  refine List.ext_getElem (by simp) fun i inside _ => ?_
  simp only [List.length_map, List.length_range] at inside
  simp [slotReport?, inside]

/-- When all workers are joined, the reports on record are those of the crew. -/
theorem Joined.reports_perm (joined : r.Joined) (all : r.allJoined = true) :
    r.reports.Perm r.crew.reports := by
  have slots : r.joined.Perm (List.range r.crew.members.length) :=
    (List.perm_ext_iff_of_nodup joined.nodup List.nodup_range).mpr fun _ =>
      joined.mem_iff_of_allJoined all
  have perm : (r.reports.map some).Perm (r.crew.members.map Worker.report?) := by
    rw [joined.reports, ← r.map_slotReport?]
    exact slots.map _
  have filtered := perm.filterMap fun report => report
  rw [List.filterMap_map, List.filterMap_map] at filtered
  have whole : r.reports.filterMap ((fun report => report) ∘ some) = r.reports :=
    List.filterMap_some
  rwa [whole] at filtered

theorem slotAt_of_firstWorker? {p : Preparation} (first : r.firstWorker? j p = some w) :
    ∃ workDir, w.slot = r.slotAt j workDir := by
  cases p with
  | ready workDir | noDirectory e | refused workDir e =>
      cases first
      exact ⟨_, rfl⟩
  | panicked workDir p => cases first

/-- Every worker knows its slot. -/
theorem Course.slot_eq (course : Course r₀ es r) (here : r.crew.members[j]? = some w) :
    ∃ workDir, w.slot = r₀.slotAt j workDir := by
  have known := course.slots j
  rw [here] at known
  cases known with
  | manned prepared began serves =>
      obtain ⟨workDir, slot⟩ := slotAt_of_firstWorker? began
      exact ⟨workDir, serves.began.slot.trans slot⟩

/-- A report bears the number of its slot. -/
theorem Course.workerIndex_eq (course : Course r₀ es r)
    (reported : r.slotReport? i = some report) : report.workerIndex = i := by
  obtain ⟨w, here, ended⟩ := Option.bind_eq_some_iff.mp reported
  obtain ⟨workDir, slot⟩ := course.slot_eq here
  rw [Worker.workerIndex_of_report? ended, slot]
  rfl

theorem Course.reports_ascending (course : Course r₀ es r) :
    r.crew.reports.Pairwise fun a b => a.workerIndex < b.workerIndex := by
  have index {i : Nat} (inside : i < r.crew.members.length) :
      r.crew.members[i].slot.index = i := by
    obtain ⟨workDir, slot⟩ := course.slot_eq (List.getElem?_eq_getElem inside)
    rw [slot]
    rfl
  refine List.pairwise_filterMap.mpr (List.pairwise_iff_getElem.mpr ?_)
  intro i j insideI insideJ before a reportA b reportB
  rw [Worker.workerIndex_of_report? reportA, Worker.workerIndex_of_report? reportB,
    index insideI, index insideJ]
  exact before

/-- **The order of joining leaves no trace.** The sorted reports are those of the
workers in the order of their slots. -/
theorem Course.sortByIndex_reports (course : Course r₀ es r) (joined : r.Joined)
    (all : r.allJoined = true) : WorkerReport.sortByIndex r.reports = r.crew.reports :=
  WorkerReport.sortByIndex_eq_of_perm (joined.reports_perm all) course.reports_ascending

/-! ## An ended crew -/

theorem exists_slotReport (ended : ∀ w ∈ r.crew.members, w.hasEnded = true)
    (inside : i < r.crew.members.length) : ∃ report, r.slotReport? i = some report := by
  have here := List.getElem?_eq_getElem inside
  have reported := ended _ (List.mem_of_getElem? here)
  rw [Worker.hasEnded_eq_isSome_report?] at reported
  obtain ⟨report, stated⟩ := Option.isSome_iff_exists.mp reported
  exact ⟨report, by rw [slotReport?, here, Option.bind_some, stated]⟩

/-- An ended crew has a report for every slot. -/
theorem reports_eq_slotReports (ended : ∀ w ∈ r.crew.members, w.hasEnded = true) :
    r.crew.reports.map some = (List.range r.crew.members.length).map r.slotReport? := by
  rw [map_slotReport?, Crew.reports]
  generalize r.crew.members = ws at ended
  induction ws with
  | nil => rfl
  | cons w ws ih =>
      have reported := ended w List.mem_cons_self
      rw [Worker.hasEnded_eq_isSome_report?] at reported
      obtain ⟨report, here⟩ := Option.isSome_iff_exists.mp reported
      rw [List.filterMap_cons_some here, List.map_cons, List.map_cons, here,
        ih fun v member => ended v (List.mem_cons_of_mem w member)]

theorem getElem?_reports (ended : ∀ w ∈ r.crew.members, w.hasEnded = true) (i : Nat) :
    r.crew.reports[i]? = r.slotReport? i := by
  have reports := congrArg (fun slots => slots[i]?) (reports_eq_slotReports ended)
  simp only [List.getElem?_map] at reports
  rcases Nat.lt_or_ge i r.crew.members.length with inside | outside
  · rw [List.getElem?_range inside, Option.map_some] at reports
    obtain ⟨report, here, stated⟩ := Option.map_eq_some_iff.mp reports
    rw [here, stated]
  · have none : (List.range r.crew.members.length)[i]? = none :=
      List.getElem?_eq_none (by rwa [List.length_range])
    rw [none, Option.map_none, Option.map_eq_none_iff] at reports
    rw [reports, slotReport?, List.getElem?_eq_none outside, Option.bind_none]

end Run
end RankedSearch
