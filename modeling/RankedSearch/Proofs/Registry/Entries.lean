import Mathlib.Data.List.Nodup
import RankedSearch.Proofs.Retention
import RankedSearch.Registry.Command

/-!
# Entries of a registry

The entry of an experiment is its live history, as an object and with its
contents (`Registry.entryOf?`). In a well-formed registry every entry leads to a
history of its own experiment, so no operation on one experiment can touch the
entry of another: a command changes an entry exactly by the operation that it
means for it (`entryOf?_execute`), and commands that mean none leave it alone.
-/

set_option autoImplicit false

namespace RankedSearch
namespace Registry

variable {r : Registry} {id x : ExperimentId} {h k : Handle} {o : Outcome} {capacity : Nat}

/-! ## Histories behind handles -/

/-- A handle that the registry has given out. -/
def Holds (r : Registry) (h : Handle) : Prop := h.place < r.histories.length

theorem history_eq_getElem (held : r.Holds h) : r.history h = r.histories[h.place] := by
  simp [history, List.getElem?_eq_getElem held]

theorem Holds.allocate (held : r.Holds h) (new : History) : (r.allocate new).2.Holds h := by
  simp only [Holds, Registry.allocate, List.length_append, List.length_singleton] at held ⊢
  omega

theorem holds_allocate (r : Registry) (new : History) :
    (r.allocate new).2.Holds (r.allocate new).1 := by
  simp [Holds, allocate]

@[simp] theorem history_allocate_self (r : Registry) (new : History) :
    (r.allocate new).2.history (r.allocate new).1 = new := by
  simp [history, allocate]

theorem history_allocate_of_holds (held : r.Holds h) (new : History) :
    (r.allocate new).2.history h = r.history h := by
  rw [history_eq_getElem (held.allocate new), history_eq_getElem held]
  exact List.getElem_append_left held

@[simp] theorem get?_add (r : Registry) (h : Handle) (o : Outcome) :
    (r.add h o).2.get? x = r.get? x := rfl

@[simp] theorem holds_add : (r.add h o).2.Holds k ↔ r.Holds k := by
  simp [Holds, add]

theorem history_add_self (held : r.Holds h) :
    (r.add h o).2.history h = ((r.history h).add o).2 := by
  rw [history_eq_getElem (holds_add.mpr held)]
  exact List.getElem_set_self _

theorem history_add_of_ne (different : k ≠ h) : (r.add h o).2.history k = r.history k := by
  have places : h.place ≠ k.place := fun same => different (by
    cases h
    cases k
    exact congrArg Handle.mk same.symm)
  simp [history, add, List.getElem?_set_ne places]

theorem owner_add (r : Registry) (h k : Handle) (o : Outcome) (held : r.Holds k) :
    ((r.add h o).2.history k).owner = (r.history k).owner := by
  by_cases same : k = h
  · subst same
    rw [history_add_self held, History.owner_add]
  · rw [history_add_of_ne same]

/-! ## Finding, making and removing entries -/

theorem get?_eq_none_iff : r.get? x = none ↔ x ∉ r.live.map Prod.fst := by
  simp only [get?, Option.map_eq_none_iff, List.find?_eq_none, List.mem_map, not_exists, not_and,
    beq_iff_eq]

theorem obtainWith_of_live (live : r.get? id = some h) (capacity : Nat) :
    r.obtainWith id capacity = (h, r) := by
  simp only [obtainWith, live]

theorem obtainWith_of_absent (absent : r.get? id = none) (capacity : Nat) :
    r.obtainWith id capacity =
      ((r.allocate (History.new id capacity)).1,
        { (r.allocate (History.new id capacity)).2 with
          live := r.live ++ [(id, (r.allocate (History.new id capacity)).1)] }) := by
  simp only [obtainWith, absent]
  rfl

theorem get?_obtainWith_self (r : Registry) (id : ExperimentId) (capacity : Nat) :
    (r.obtainWith id capacity).2.get? id = some (r.obtainWith id capacity).1 := by
  cases found : r.get? id with
  | some h => rw [obtainWith_of_live found, found]
  | none =>
      rw [obtainWith_of_absent found]
      have missing : r.live.find? (fun entry => entry.1 == id) = none := by
        simpa [get?] using found
      simp [get?, List.find?_append, missing]

theorem get?_obtainWith_of_ne (different : x ≠ id) :
    (r.obtainWith id capacity).2.get? x = r.get? x := by
  cases found : r.get? id with
  | some h => rw [obtainWith_of_live found]
  | none =>
      rw [obtainWith_of_absent found]
      have skipped : (id == x) = false := by simpa using different.symm
      simp [get?, List.find?_append, skipped]

theorem Holds.obtainWith (held : r.Holds h) : (r.obtainWith id capacity).2.Holds h := by
  cases found : r.get? id with
  | some k => rwa [obtainWith_of_live found]
  | none =>
      rw [obtainWith_of_absent found]
      exact held.allocate _

theorem history_obtainWith_of_holds (held : r.Holds h) :
    (r.obtainWith id capacity).2.history h = r.history h := by
  cases found : r.get? id with
  | some k => rw [obtainWith_of_live found]
  | none =>
      rw [obtainWith_of_absent found]
      exact history_allocate_of_holds held _

@[simp] theorem get?_poll_self (r : Registry) (id : ExperimentId) :
    (r.poll id).2.get? id = none := by
  simp [get?_eq_none_iff, poll]

theorem get?_poll_of_ne (different : x ≠ id) : (r.poll id).2.get? x = r.get? x := by
  have passed : (fun entry : ExperimentId × Handle =>
      decide ((!(entry.1 == id)) = true ∧ (entry.1 == x) = true)) = fun entry => entry.1 == x := by
    funext entry
    by_cases named : entry.1 = x <;> simp [named, different]
  simp only [get?, poll, List.find?_filter, passed]

@[simp] theorem history_poll (r : Registry) (id : ExperimentId) (h : Handle) :
    (r.poll id).2.history h = r.history h := rfl

/-! ## Well-formed registries -/

/-- No experiment has two entries, and every entry leads to a history of its
experiment. -/
structure WellFormed (r : Registry) : Prop where
  keys : (r.live.map Prod.fst).Nodup
  holds : ∀ {x : ExperimentId} {h : Handle}, r.get? x = some h → r.Holds h
  owner : ∀ {x : ExperimentId} {h : Handle}, r.get? x = some h → (r.history h).owner = some x

theorem wellFormed_withCapacity (capacity : Nat) : (withCapacity capacity).WellFormed where
  keys := List.nodup_nil
  holds := by
    intro x h found
    cases found
  owner := by
    intro x h found
    cases found

/-- Different experiments have different histories. -/
theorem WellFormed.handle_ne (wellFormed : r.WellFormed) (first : r.get? x = some h)
    (second : r.get? id = some k) (different : x ≠ id) : h ≠ k := by
  rintro rfl
  have owners := (wellFormed.owner first).symm.trans (wellFormed.owner second)
  exact different (Option.some.inj owners)

theorem WellFormed.obtainWith (wellFormed : r.WellFormed) (id : ExperimentId) (capacity : Nat) :
    (r.obtainWith id capacity).2.WellFormed := by
  cases found : r.get? id with
  | some h => rwa [obtainWith_of_live found]
  | none =>
      have self := get?_obtainWith_self r id capacity
      have handle : (r.obtainWith id capacity).1 = (r.allocate (History.new id capacity)).1 := by
        rw [obtainWith_of_absent found]
      have made : (r.obtainWith id capacity).2.history (r.obtainWith id capacity).1 =
          History.new id capacity := by
        rw [obtainWith_of_absent found]
        exact history_allocate_self r _
      refine ⟨?_, ?_, ?_⟩
      · rw [obtainWith_of_absent found]
        have fresh := get?_eq_none_iff.mp found
        rw [List.map_append]
        refine List.nodup_append.mpr ⟨wellFormed.keys, List.nodup_singleton _, ?_⟩
        intro y member z last
        rw [List.mem_singleton.mp last]
        rintro rfl
        exact fresh member
      · intro y k located
        by_cases same : y = id
        · subst same
          rw [self] at located
          cases located
          rw [handle, obtainWith_of_absent found]
          exact holds_allocate r _
        · rw [get?_obtainWith_of_ne same] at located
          exact (wellFormed.holds located).obtainWith
      · intro y k located
        by_cases same : y = id
        · subst same
          rw [self] at located
          cases located
          rw [made]
          rfl
        · rw [get?_obtainWith_of_ne same] at located
          rw [history_obtainWith_of_holds (wellFormed.holds located)]
          exact wellFormed.owner located

theorem WellFormed.allocate (wellFormed : r.WellFormed) (new : History) :
    (r.allocate new).2.WellFormed where
  keys := wellFormed.keys
  holds := fun found => (wellFormed.holds found).allocate new
  owner := fun found => by
    rw [history_allocate_of_holds (wellFormed.holds found)]
    exact wellFormed.owner found

theorem WellFormed.add (wellFormed : r.WellFormed) (h : Handle) (o : Outcome) :
    (r.add h o).2.WellFormed where
  keys := wellFormed.keys
  holds := fun found => holds_add.mpr (wellFormed.holds found)
  owner := fun found => by
    rw [owner_add r h _ o (wellFormed.holds found)]
    exact wellFormed.owner found

theorem WellFormed.poll (wellFormed : r.WellFormed) (id : ExperimentId) :
    (r.poll id).2.WellFormed := by
  have earlier : ∀ {x : ExperimentId} {h : Handle},
      (r.poll id).2.get? x = some h → r.get? x = some h := by
    intro x h found
    by_cases same : x = id
    · subst same
      rw [get?_poll_self] at found
      cases found
    · rwa [get?_poll_of_ne same] at found
  exact
    { keys := wellFormed.keys.sublist (List.filter_sublist.map Prod.fst)
      holds := fun found => wellFormed.holds (earlier found)
      owner := fun found => wellFormed.owner (earlier found) }

theorem WellFormed.execute (wellFormed : r.WellFormed) (command : Command) :
    (r.execute command).2.WellFormed := by
  cases command with
  | obtain id => exact wellFormed.obtainWith id r.historyCapacity
  | obtainWith id capacity => exact wellFormed.obtainWith id capacity
  | get id => exact wellFormed
  | poll id => exact wellFormed.poll id
  | sentinel => exact wellFormed.allocate History.sentinel
  | contains id => exact wellFormed
  | add h o => exact wellFormed.add h o
  | view h => exact wellFormed

/-- Every registry that clients can bring about is well-formed. -/
theorem wellFormed_executeAll (wellFormed : r.WellFormed) (commands : List Command) :
    (r.executeAll commands).2.WellFormed := by
  induction commands generalizing r with
  | nil => exact wellFormed
  | cons command commands ih => exact ih (wellFormed.execute command)

/-! ## The operations of one entry -/

/-- The entry of an experiment: its live history, as an object and with its contents. -/
def entryOf? (r : Registry) (x : ExperimentId) : Option (Handle × History) :=
  (r.get? x).map fun h => (h, r.history h)

/-- An operation on the entry of one experiment. -/
inductive EntryOp where
  /-- Makes an entry of a capacity, if there is none, as a given object. -/
  | make (fresh : Handle) (capacity : Nat)
  | remove
  | add (o : Outcome)

/-- The entry of an experiment after an operation. -/
def EntryOp.apply (x : ExperimentId) : EntryOp → Option (Handle × History) →
    Option (Handle × History)
  | .make fresh capacity, none => some (fresh, History.new x capacity)
  | .make _ _, some entry => some entry
  | .remove, _ => none
  | .add o, entry => entry.map fun (h, contents) => (h, (contents.add o).2)

/-- The entry of an experiment after several operations, one after the other. -/
def EntryOp.applyAll (x : ExperimentId) (ops : List EntryOp) (entry : Option (Handle × History)) :
    Option (Handle × History) :=
  ops.foldl (fun entry op => op.apply x entry) entry

/-- The operation that a command is for the entry of an experiment, if it is one. -/
def operation? (r : Registry) (x : ExperimentId) : Command → Option EntryOp
  | .obtain id => if id = x then some (.make ⟨r.histories.length⟩ r.historyCapacity) else none
  | .obtainWith id capacity =>
    if id = x then some (.make ⟨r.histories.length⟩ capacity) else none
  | .poll id => if id = x then some .remove else none
  | .add h o => if r.get? x = some h then some (.add o) else none
  | .get _ | .sentinel | .contains _ | .view _ => none

theorem entryOf?_of_live (live : r.get? x = some h) : r.entryOf? x = some (h, r.history h) := by
  simp [entryOf?, live]

theorem entryOf?_eq_none_iff : r.entryOf? x = none ↔ r.get? x = none := by
  simp [entryOf?]

/-- An entry stays as it is when it is found as before, with the same contents. -/
theorem entryOf?_congr {q : Registry} (found : q.get? x = r.get? x)
    (contents : ∀ h, r.get? x = some h → q.history h = r.history h) :
    q.entryOf? x = r.entryOf? x := by
  cases live : r.get? x with
  | none => rw [entryOf?_eq_none_iff.mpr live, entryOf?_eq_none_iff, found, live]
  | some h => rw [entryOf?_of_live live, entryOf?_of_live (found.trans live), contents h live]

theorem entryOf?_obtainWith_self (r : Registry) (x : ExperimentId) (capacity : Nat) :
    (r.obtainWith x capacity).2.entryOf? x =
      EntryOp.apply x (.make ⟨r.histories.length⟩ capacity) (r.entryOf? x) := by
  cases live : r.get? x with
  | some h =>
      rw [obtainWith_of_live live, entryOf?_of_live live]
      rfl
  | none =>
      have made : (r.obtainWith x capacity).2.history (r.obtainWith x capacity).1 =
          History.new x capacity := by
        rw [obtainWith_of_absent live]
        exact history_allocate_self r _
      rw [entryOf?_of_live (get?_obtainWith_self r x capacity), made, entryOf?_eq_none_iff.mpr live,
        obtainWith_of_absent live]
      rfl

theorem entryOf?_obtainWith_of_ne (wellFormed : r.WellFormed) (different : x ≠ id)
    (capacity : Nat) : (r.obtainWith id capacity).2.entryOf? x = r.entryOf? x :=
  entryOf?_congr (get?_obtainWith_of_ne different) fun _ live =>
    history_obtainWith_of_holds (wellFormed.holds live)

theorem entryOf?_allocate (wellFormed : r.WellFormed) (new : History) :
    (r.allocate new).2.entryOf? x = r.entryOf? x :=
  entryOf?_congr rfl fun _ live => history_allocate_of_holds (wellFormed.holds live) new

theorem entryOf?_poll_self (r : Registry) (x : ExperimentId) : (r.poll x).2.entryOf? x = none :=
  entryOf?_eq_none_iff.mpr (get?_poll_self r x)

theorem entryOf?_poll_of_ne (different : x ≠ id) : (r.poll id).2.entryOf? x = r.entryOf? x :=
  entryOf?_congr (get?_poll_of_ne different) fun _ _ => rfl

theorem entryOf?_add_self (wellFormed : r.WellFormed) (live : r.get? x = some h) (o : Outcome) :
    (r.add h o).2.entryOf? x = EntryOp.apply x (.add o) (r.entryOf? x) := by
  rw [entryOf?_of_live live, entryOf?_of_live ((get?_add r h o).trans live),
    history_add_self (wellFormed.holds live)]
  rfl

theorem entryOf?_add_of_ne (elsewhere : r.get? x ≠ some h) (o : Outcome) :
    (r.add h o).2.entryOf? x = r.entryOf? x :=
  entryOf?_congr rfl fun _ live => history_add_of_ne fun same => elsewhere (same ▸ live)

/-- **A command touches the entries of its own experiment only**, and those by
its own operation. -/
theorem entryOf?_execute (wellFormed : r.WellFormed) (x : ExperimentId) (command : Command) :
    (r.execute command).2.entryOf? x =
      EntryOp.applyAll x (r.operation? x command).toList (r.entryOf? x) := by
  cases command with
  | obtain id | obtainWith id capacity =>
      by_cases same : id = x
      · subst same
        simp only [operation?, if_true, Option.toList_some]
        exact entryOf?_obtainWith_self r id _
      · simp only [operation?, if_neg same, Option.toList_none]
        exact entryOf?_obtainWith_of_ne wellFormed (Ne.symm same) _
  | poll id =>
      by_cases same : id = x
      · subst same
        simp only [operation?, if_true, Option.toList_some]
        exact entryOf?_poll_self r id
      · simp only [operation?, if_neg same, Option.toList_none]
        exact entryOf?_poll_of_ne (Ne.symm same)
  | add h o =>
      by_cases live : r.get? x = some h
      · simp only [operation?, if_pos live, Option.toList_some]
        exact entryOf?_add_self wellFormed live o
      · simp only [operation?, if_neg live, Option.toList_none]
        exact entryOf?_add_of_ne live o
  | sentinel => exact entryOf?_allocate wellFormed History.sentinel
  | get id | contains id | view h => rfl

end Registry
end RankedSearch
