import RankedSearch.Proofs.Admission

/-!
# What every history keeps

The bookkeeping of a history hangs together. Bisection finds a place only if the entries
are sorted. The entry that is dropped is told from the new one by its number only if no
earlier entry has that number. And one entry is all there is to drop only if there was never
more than one too many. `History.Sound` says what all this needs of a history; the empty
history is sound, one addition keeps a history sound (`Sound.add`), and so every history
is (`sound_addAll`).

In a sound history a score has one place, behind the entries that score no worse and in
front of those that score worse (`Sound.le_iff_lt_place`). So bisection finds what a linear
scan finds (`Sound.place_eq_findIdx`), and the last entry is the new one exactly if the new
one was put behind all others (`Sound.last_entered`).
-/

set_option autoImplicit false

namespace RankedSearch

/-- Numbering an entry higher than all others keeps the numbers different. -/
theorem nodup_arrivals_insertBehind {e : Entry} {es : List Entry}
    (distinct : (es.map Entry.arrival).Nodup) (newest : ∀ f ∈ es, f.arrival < e.arrival) :
    ((insertBehind e es).map Entry.arrival).Nodup := by
  rw [((insertBehind_perm e es).map Entry.arrival).nodup_iff, List.map_cons, List.nodup_cons]
  refine ⟨fun member => ?_, distinct⟩
  obtain ⟨f, inside, same⟩ := List.mem_map.mp member
  exact (newest f inside).ne same

namespace History

variable {h : History} {o : Outcome} {s : Score}

/-- What the operations of a history rely on. -/
structure Sound (h : History) : Prop where
  /-- The entries ascend strictly by score and, where scores tie, by arrival. -/
  ranked : Ranked h.entries
  distinct : (h.entries.map Entry.arrival).Nodup
  earlier : ∀ e ∈ h.entries, e.arrival < h.arrivals
  /-- What has arrived is still there or was dropped. -/
  counted : h.arrivals = h.entries.length + h.evicted
  positive : 1 ≤ h.capacity
  bounded : h.entries.length ≤ h.capacity
  /-- Only a full history drops entries. -/
  full : 0 < h.evicted → h.entries.length = h.capacity

/-! ## Additions -/

theorem sound_empty (owner : Option ExperimentId) (capacity : Nat) :
    Sound (empty owner capacity) where
  ranked := List.Pairwise.nil
  distinct := List.nodup_nil
  earlier := fun _ member => absurd member List.not_mem_nil
  counted := rfl
  positive := Nat.le_max_right capacity 1
  bounded := Nat.zero_le _
  full := fun evicted => absurd evicted (Nat.lt_irrefl 0)

/-- A complete outcome keeps a history sound, wherever it is entered and whatever is dropped. -/
theorem Sound.enter (sound : h.Sound) (s : Score) (o : Outcome) : (h.enter s o).2.Sound := by
  let e : Entry := ⟨s, h.arrivals, o⟩
  have front := List.take_sublist h.capacity (insertBehind e h.entries)
  have length : ((insertBehind e h.entries).take h.capacity).length =
      min h.capacity (h.entries.length + 1) := by
    rw [List.length_take, length_insertBehind]
  have counted := sound.counted
  have bounded := sound.bounded
  have full := sound.full
  rw [enter_eq sound.ranked.sorted bounded]
  refine
    { ranked := (ranked_insertBehind sound.ranked sound.earlier).sublist front
      distinct := (nodup_arrivals_insertBehind sound.distinct sound.earlier).sublist
        (front.map Entry.arrival)
      earlier := ?earlier
      counted := ?counted
      positive := sound.positive
      bounded := List.length_take_le _ _
      full := ?full }
  case earlier =>
    intro f member
    rcases List.mem_cons.mp ((insertBehind_perm e h.entries).mem_iff.mp (front.mem member)) with
      rfl | before
    · exact Nat.lt_succ_self _
    · exact Nat.lt_succ_of_lt (sound.earlier f before)
  case counted =>
    dsimp only
    rw [length]
    omega
  case full =>
    dsimp only
    rw [length]
    omega

theorem Sound.add (sound : h.Sound) (o : Outcome) : (h.add o).2.Sound := by
  cases complete : o.score with
  | none =>
      rw [add_incomplete h complete]
      exact { sound with }
  | some s =>
      rw [add_complete h complete]
      exact sound.enter s o

theorem sound_addAll (owner : Option ExperimentId) (capacity : Nat) (os : List Outcome) :
    Sound ((empty owner capacity).addAll os) := by
  induction os using List.reverseRecOn with
  | nil => exact sound_empty owner capacity
  | append_singleton os o ih => exact addAll_concat _ os o ▸ ih.add o

/-! ## The place of a score -/

theorem Sound.partitioned (sound : h.Sound) (s : Score) :
    Partitioned (fun e => e.score.le s) h.entries :=
  partitioned_of_sorted sound.ranked.sorted s

/-- An entry scores no worse than a score exactly if it stands in front of its place. -/
theorem Sound.le_iff_lt_place (sound : h.Sound) {i : Nat} {e : Entry}
    (here : h.entries[i]? = some e) : e.score ≤ s ↔ i < h.place s := by
  rw [← Score.le_eq_true]
  exact (sound.partitioned s).holds_iff_lt here

/-- The place is where a scan from the left finds the first entry that scores worse. -/
theorem Sound.place_eq_findIdx (sound : h.Sound) (s : Score) :
    h.place s = h.entries.findIdx fun e => decide (s < e.score) := by
  have worse : (fun e : Entry => decide (s < e.score)) = fun e => !e.score.le s := by
    funext e
    rw [Bool.eq_iff_iff, decide_eq_true_iff, Bool.not_eq_true', Score.le_eq_false]
  rw [worse]
  exact partitionPoint_eq_findIdx (sound.partitioned s)

/-- When a score is entered, the entry behind all others is the new one exactly if its place
was there. -/
theorem Sound.last_entered (sound : h.Sound) (s : Score) (o : Outcome) :
    ∃ last, (h.entries.insertIdx (h.place s) ⟨s, h.arrivals, o⟩).getLast? = some last ∧
      (last.arrival = h.arrivals ↔ h.place s = h.entries.length) := by
  have inside : h.place s ≤ h.entries.length := partitionPoint_le_length (sound.partitioned s)
  rw [List.getLast?_eq_getElem?, List.length_insertIdx_of_le_length inside, Nat.add_sub_cancel]
  rcases inside.lt_or_eq with before | behind
  · -- An entry that was there is last, and all of those have lower numbers.
    have nonempty : h.entries.length - 1 < h.entries.length := by omega
    rw [List.getElem?_insertIdx_of_gt before, List.getElem?_eq_getElem nonempty]
    have old := sound.earlier _ (List.getElem_mem nonempty)
    exact ⟨_, rfl, iff_of_false old.ne before.ne⟩
  · rw [behind, List.getElem?_insertIdx_self, if_pos (Nat.le_refl _)]
    exact ⟨_, rfl, iff_of_true rfl rfl⟩

/-- A full history drops the entry that is then behind all others, and rejects an outcome
exactly if this is its own. -/
theorem Sound.add_of_full (sound : h.Sound) (full : h.entries.length = h.capacity)
    (complete : o.score = some s) {last : Entry}
    (behind : (h.entries.insertIdx (h.place s) ⟨s, h.arrivals, o⟩).getLast? = some last) :
    h.entries.insertIdx (h.place s) ⟨s, h.arrivals, o⟩ = (h.add o).2.entries ++ [last] ∧
      ((h.add o).1 = .rejected ↔ last.arrival = h.arrivals) := by
  have inside : h.place s ≤ h.entries.length := partitionPoint_le_length (sound.partitioned s)
  have exceeds : ¬ (h.entries.insertIdx (h.place s) ⟨s, h.arrivals, o⟩).length ≤ h.capacity := by
    rw [List.length_insertIdx_of_le_length inside]
    omega
  rw [add_complete h complete]
  simp only [History.enter, if_neg exceeds, behind]
  refine ⟨(List.dropLast_append_getLast? last behind).symm, ?_⟩
  split <;> simp [*]

/-! ## Every history -/

/-- **Every history is sound.** Whatever outcomes are handed to a fresh history, its
entries ascend strictly by score and arrival, their numbers are different and lower than
the next one, and with the dropped ones they are as many as have arrived; there are never
more of them than the capacity, and fewer only if none was dropped. So the entries that
score no worse than any given score stand in front of the others, bisection finds the
place that a linear scan finds, and the entry that a full history drops has the number of
the new outcome exactly if that was put behind all others. -/
theorem addAll_stays_sound (owner : Option ExperimentId) (capacity : Nat) (os : List Outcome) :
    let h := (empty owner capacity).addAll os
    h.Sound ∧ h.capacity = max capacity 1 ∧
    ∀ s,
      (∀ i e, h.entries[i]? = some e → (e.score ≤ s ↔ i < h.place s)) ∧
      (h.place s = h.entries.findIdx fun e => decide (s < e.score)) ∧
      ∀ o,
        let entered := h.entries.insertIdx (h.place s) ⟨s, h.arrivals, o⟩
        ∃ last, entered.getLast? = some last ∧
          (last.arrival = h.arrivals ↔ h.place s = h.entries.length) ∧
          (h.entries.length = h.capacity → o.score = some s →
            entered = (h.add o).2.entries ++ [last] ∧
              ((h.add o).1 = .rejected ↔ last.arrival = h.arrivals)) := by
  intro h
  have sound : h.Sound := sound_addAll owner capacity os
  refine ⟨sound, capacity_addAll _ os, fun s => ⟨?_, sound.place_eq_findIdx s, fun o => ?_⟩⟩
  · intro i e here
    exact sound.le_iff_lt_place here
  · obtain ⟨last, behind, newest⟩ := sound.last_entered s o
    exact ⟨last, behind, newest, fun full complete => sound.add_of_full full complete behind⟩

theorem newcomer_is_dropped_behind_ties :
    let h := (empty none 2).addAll Sample.past
    h.entries.length = h.capacity ∧ 0 < h.evicted ∧
      h.place Sample.three = h.entries.length ∧
      (h.add (Sample.trial Sample.three "again")).1 = .rejected := by
  intro h
  have full : h.entries.length = h.capacity := by decide +kernel
  have place : h.place Sample.three = h.entries.length := by decide +kernel
  obtain ⟨_, _, places⟩ := addAll_stays_sound none 2 Sample.past
  obtain ⟨_, _, enters⟩ := places Sample.three
  obtain ⟨last, _, newest, drops⟩ := enters (Sample.trial Sample.three "again")
  obtain ⟨_, rejected⟩ := drops full rfl
  exact ⟨full, by decide +kernel, place, rejected.mpr (newest.mpr place)⟩

end History
end RankedSearch
