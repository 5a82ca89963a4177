import RankedSearch.Proofs.Registry.Entries

/-!
# Recording outcomes

A worker records an outcome by asking for the history of its experiment, which is
made if there is none, and adding the outcome to it (`Registry.record`). Unless
someone takes the history out in between, the outcomes that are recorded one after
the other all go to one object (`entryOf?_recordAll`): the entry that was there, or
else the one that the first of them makes. The entries of other experiments stay as
they are (`entryOf?_recordAll_of_ne`), and so does every other history that anyone
holds (`history_recordAll_of_held`).
-/

set_option autoImplicit false

namespace RankedSearch
namespace Registry

variable {r : Registry} {id x : ExperimentId} {capacity : Nat} {o : Outcome} {os : List Outcome}
  {h : Handle}

/-- Adds an outcome to the history of an experiment; if there is none, to a new one
of the given capacity. -/
def record (id : ExperimentId) (capacity : Nat) (r : Registry) (o : Outcome) : Registry :=
  ((r.obtainWith id capacity).2.add (r.obtainWith id capacity).1 o).2

/-- Records several outcomes, one after the other. -/
def recordAll (id : ExperimentId) (capacity : Nat) (r : Registry) (os : List Outcome) : Registry :=
  os.foldl (record id capacity) r

/-- The entry of an experiment, or the one that would be made. -/
def entryOrNew (r : Registry) (id : ExperimentId) (capacity : Nat) : Handle × History :=
  (r.entryOf? id).getD (⟨r.histories.length⟩, History.new id capacity)

theorem recordAll_concat (r : Registry) (os : List Outcome) (o : Outcome) :
    recordAll id capacity r (os ++ [o]) = record id capacity (recordAll id capacity r os) o := by
  rw [recordAll, List.foldl_append]
  rfl

theorem WellFormed.record (wellFormed : r.WellFormed) (id : ExperimentId) (capacity : Nat)
    (o : Outcome) : (r.record id capacity o).WellFormed :=
  (wellFormed.obtainWith id capacity).add _ o

theorem WellFormed.recordAll (wellFormed : r.WellFormed) (id : ExperimentId) (capacity : Nat)
    (os : List Outcome) : (r.recordAll id capacity os).WellFormed := by
  induction os using List.reverseRecOn with
  | nil => exact wellFormed
  | append_singleton os o ih =>
      rw [recordAll_concat]
      exact ih.record id capacity o

/-- An outcome goes to the entry that is there, or makes one. -/
theorem entryOf?_record (wellFormed : r.WellFormed) (id : ExperimentId) (capacity : Nat)
    (o : Outcome) :
    (r.record id capacity o).entryOf? id =
      some ((r.entryOrNew id capacity).1, ((r.entryOrNew id capacity).2.add o).2) := by
  rw [record, entryOf?_add_self (wellFormed.obtainWith id capacity)
    (get?_obtainWith_self r id capacity), entryOf?_obtainWith_self, entryOrNew]
  cases r.entryOf? id with
  | none => rfl
  | some entry => rfl

theorem entryOf?_record_of_ne (wellFormed : r.WellFormed) (different : x ≠ id) (capacity : Nat)
    (o : Outcome) : (r.record id capacity o).entryOf? x = r.entryOf? x := by
  have elsewhere : (r.obtainWith id capacity).2.get? x ≠ some (r.obtainWith id capacity).1 :=
    fun same => (wellFormed.obtainWith id capacity).handle_ne same
      (get?_obtainWith_self r id capacity) different rfl
  rw [record, entryOf?_add_of_ne elsewhere, entryOf?_obtainWith_of_ne wellFormed different]

/-- All recorded outcomes go to one entry. -/
theorem entryOf?_recordAll (wellFormed : r.WellFormed) (id : ExperimentId) (capacity : Nat)
    (os : List Outcome) :
    (r.recordAll id capacity os).entryOf? id =
      if os = [] then r.entryOf? id
      else some ((r.entryOrNew id capacity).1, (r.entryOrNew id capacity).2.addAll os) := by
  induction os using List.reverseRecOn with
  | nil => rfl
  | append_singleton os o ih =>
      rw [recordAll_concat, entryOf?_record (wellFormed.recordAll id capacity os), entryOrNew, ih,
        if_neg (List.append_ne_nil_of_right_ne_nil os (List.cons_ne_nil o [])),
        History.addAll_concat]
      by_cases first : os = []
      · subst first
        rfl
      · rw [if_neg first]
        rfl

theorem entryOf?_recordAll_of_ne (wellFormed : r.WellFormed) (different : x ≠ id) (capacity : Nat)
    (os : List Outcome) : (r.recordAll id capacity os).entryOf? x = r.entryOf? x := by
  induction os using List.reverseRecOn with
  | nil => rfl
  | append_singleton os o ih =>
      rw [recordAll_concat, entryOf?_record_of_ne (wellFormed.recordAll id capacity os) different,
        ih]

/-- A history that is held and is not the entry of the experiment. -/
structure HeldApart (r : Registry) (id : ExperimentId) (h : Handle) : Prop where
  held : r.Holds h
  apart : r.get? id ≠ some h

theorem HeldApart.ne_obtained (other : r.HeldApart id h) (capacity : Nat) :
    h ≠ (r.obtainWith id capacity).1 := by
  cases live : r.get? id with
  | some k =>
      rw [obtainWith_of_live live]
      rintro rfl
      exact other.apart live
  | none =>
      rw [obtainWith_of_absent live]
      rintro rfl
      exact other.held.ne rfl

theorem HeldApart.record (other : r.HeldApart id h) (capacity : Nat) (o : Outcome) :
    (r.record id capacity o).HeldApart id h where
  held := holds_add.mpr other.held.obtainWith
  apart := by
    rw [Registry.record, get?_add, get?_obtainWith_self]
    intro same
    exact other.ne_obtained capacity (Option.some.inj same).symm

theorem HeldApart.history_record (other : r.HeldApart id h) (capacity : Nat) (o : Outcome) :
    (r.record id capacity o).history h = r.history h := by
  rw [Registry.record, history_add_of_ne (other.ne_obtained capacity),
    history_obtainWith_of_holds other.held]

/-- Recording changes no other history. -/
theorem history_recordAll_of_held (other : r.HeldApart id h) (capacity : Nat)
    (os : List Outcome) :
    (r.recordAll id capacity os).HeldApart id h ∧
      (r.recordAll id capacity os).history h = r.history h := by
  induction os using List.reverseRecOn with
  | nil => exact ⟨other, rfl⟩
  | append_singleton os o ih =>
      obtain ⟨still, same⟩ := ih
      rw [recordAll_concat]
      exact ⟨still.record capacity o, (still.history_record capacity o).trans same⟩

end Registry
end RankedSearch
