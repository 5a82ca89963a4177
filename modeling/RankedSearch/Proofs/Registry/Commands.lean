import Mathlib.Data.List.Induction
import RankedSearch.Proofs.Registry.Entries

/-!
# Commands and the handles that they give out

A command gives out a handle in one of two ways: it finds the live history of the
experiment that it names, or it makes a history that nobody has held before
(`Registry.HandsOut`). Of the histories that were already held it changes at most
the one through which it adds, and that by its outcome alone
(`Registry.history_execute`).

A sequence of commands is followed from one of them to the next: `Registry.after`
is the registry after the first commands, and what a command answers is what it
answers there (`getElem?_replies`).
-/

set_option autoImplicit false

namespace RankedSearch
namespace Registry

variable {r : Registry} {c : Command} {cs : List Command} {h k : Handle} {x : ExperimentId}

/-! ## What commands name, make and add -/

namespace Command

/-- The experiment that a command names. -/
def names? : Command → Option ExperimentId
  | .obtain id | .obtainWith id _ | .get id | .poll id | .contains id => some id
  | .sentinel | .add _ _ | .view _ => none

/-- The owner and the capacity of the history that a command makes if it finds
none, in a registry of a default capacity. -/
def makes? (default : Nat) : Command → Option (Option ExperimentId × Nat)
  | .obtain id => some (some id, default)
  | .obtainWith id capacity => some (some id, capacity)
  | .sentinel => some (none, History.defaultCapacity)
  | .get _ | .poll _ | .contains _ | .add _ _ | .view _ => none

/-- The outcome that a command adds through a handle. -/
def adds? (h : Handle) : Command → Option Outcome
  | .add k o => if k = h then some o else none
  | .obtain _ | .obtainWith _ _ | .get _ | .poll _ | .sentinel | .contains _ | .view _ => none

end Command

/-- The outcomes that several commands add through a handle. -/
def addedThrough (h : Handle) (cs : List Command) : List Outcome :=
  cs.filterMap (Command.adds? h)

@[simp] theorem addedThrough_concat (h : Handle) (cs : List Command) (c : Command) :
    addedThrough h (cs ++ [c]) = addedThrough h cs ++ (c.adds? h).toList := by
  cases added : c.adds? h <;> simp [addedThrough, added]

/-! ## Single commands -/

/-- The handle that an answer gives out. -/
def Reply.handed? : Reply → Option Handle
  | .handle h => h
  | .admission _ | .contents _ | .truth _ => none

/-- A command makes a history, in the next place and with given owner and capacity,
and gives out its handle. -/
structure Makes (r : Registry) (c : Command) (h : Handle) (owner : Option ExperimentId)
    (capacity : Nat) : Prop where
  makes : c.makes? r.historyCapacity = some (owner, capacity)
  named : c.names? = owner
  /-- It did not find a history of that owner. -/
  absent : ∀ x, owner = some x → r.get? x = none
  fresh : h.place = r.histories.length
  held : (r.execute c).2.Holds h
  contents : (r.execute c).2.history h = History.empty owner capacity
  handed : (r.execute c).1.handed? = some h

/-- The ways in which a command gives out a handle: it finds the live history of the
experiment that it names, or it makes a history. -/
inductive HandsOut (r : Registry) (c : Command) (h : Handle) : Prop
  | found {x : ExperimentId} (named : c.names? = some x) (live : r.get? x = some h)
  | made {owner : Option ExperimentId} {capacity : Nat} (makes : Makes r c h owner capacity)

/-- A command that makes sure of an entry, as `obtainWith` does, makes the history that is
missing. -/
theorem makes_of_absent {capacity : Nat} (named : c.names? = some x)
    (makes : c.makes? r.historyCapacity = some (some x, capacity))
    (executed : r.execute c =
      (.handle (some (r.obtainWith x capacity).1), (r.obtainWith x capacity).2))
    (absent : r.get? x = none) : Makes r c (r.obtainWith x capacity).1 (some x) capacity := by
  have handed : (r.execute c).1.handed? = some (r.obtainWith x capacity).1 := by
    rw [executed]
    rfl
  rw [obtainWith_of_absent absent] at executed handed ⊢
  refine ⟨makes, named, ?_, rfl, ?_, ?_, handed⟩
  · intro y same
    cases same
    exact absent
  · rw [executed]
    exact holds_allocate r _
  · rw [executed]
    exact history_allocate_self r _

theorem makes_sentinel (r : Registry) :
    Makes r .sentinel (r.sentinel).1 none History.defaultCapacity where
  makes := rfl
  named := rfl
  absent := by
    intro x same
    cases same
  fresh := rfl
  held := holds_allocate r _
  contents := history_allocate_self r _
  handed := rfl

/-- Every answer with a handle gives it out in one of the two ways. -/
theorem handsOut_of_reply (handed : (r.execute c).1.handed? = some h) : HandsOut r c h := by
  have obtained {id : ExperimentId} {capacity : Nat} (named : c.names? = some id)
      (makes : c.makes? r.historyCapacity = some (some id, capacity))
      (executed : r.execute c =
        (.handle (some (r.obtainWith id capacity).1), (r.obtainWith id capacity).2)) :
      HandsOut r c h := by
    have same : (r.obtainWith id capacity).1 = h := by
      rw [executed] at handed
      exact Option.some.inj handed
    cases live : r.get? id with
    | some k =>
        rw [obtainWith_of_live live] at same
        exact .found named (same ▸ live)
    | none => exact .made (same ▸ makes_of_absent named makes executed live)
  cases c with
  | obtain id | obtainWith id capacity => exact obtained rfl rfl rfl
  | get id | poll id => exact .found rfl handed
  | sentinel =>
      cases handed
      exact .made (makes_sentinel r)
  | contains id | add k o | view k => cases handed

/-! ## What a command leaves alone -/

theorem Holds.execute (held : r.Holds h) (c : Command) : (r.execute c).2.Holds h := by
  cases c with
  | obtain id => exact Holds.obtainWith held
  | obtainWith id capacity => exact Holds.obtainWith held
  | sentinel => exact held.allocate _
  | add k o => exact holds_add.mpr held
  | get id | poll id | contains id | view k => exact held

/-- A history that is held changes only by what is added through its handle. -/
theorem history_execute (held : r.Holds h) (c : Command) :
    (r.execute c).2.history h = (r.history h).addAll (c.adds? h).toList := by
  cases c with
  | obtain id | obtainWith id capacity => exact history_obtainWith_of_holds held
  | sentinel => exact history_allocate_of_holds held _
  | add k o =>
      by_cases same : k = h
      · subst same
        simp only [Command.adds?, if_true, Option.toList_some]
        exact history_add_self held
      · simp only [Command.adds?, if_neg same, Option.toList_none]
        exact history_add_of_ne (Ne.symm same)
  | get id | poll id | contains id | view k => rfl

theorem owner_execute (held : r.Holds h) (c : Command) :
    ((r.execute c).2.history h).owner = (r.history h).owner := by
  rw [history_execute held, History.owner_addAll]

@[simp] theorem historyCapacity_execute (r : Registry) (c : Command) :
    (r.execute c).2.historyCapacity = r.historyCapacity := by
  have obtained (id : ExperimentId) (capacity : Nat) :
      (r.obtainWith id capacity).2.historyCapacity = r.historyCapacity := by
    cases live : r.get? id with
    | some h => rw [obtainWith_of_live live]
    | none =>
        rw [obtainWith_of_absent live]
        rfl
  cases c with
  | obtain id | obtainWith id capacity => exact obtained id _
  | get id | poll id | sentinel | contains id | add k o | view k => rfl

/-- An entry is found as before, unless the command polls it. -/
theorem get?_execute_of_live (live : r.get? x = some h) (keeps : c ≠ .poll x) :
    (r.execute c).2.get? x = some h := by
  have obtained (id : ExperimentId) (capacity : Nat) :
      (r.obtainWith id capacity).2.get? x = some h := by
    by_cases same : x = id
    · subst same
      rw [obtainWith_of_live live, live]
    · rw [get?_obtainWith_of_ne same, live]
  cases c with
  | obtain id | obtainWith id capacity => exact obtained id _
  | poll id =>
      have other : x ≠ id := by
        rintro rfl
        exact keeps rfl
      exact (get?_poll_of_ne other).trans live
  | get id | sentinel | contains id | add k o | view k => exact live

/-- An entry that is found after a command was found before it, or the command has
made its history. -/
theorem get?_before_execute (found : (r.execute c).2.get? x = some h) :
    r.get? x = some h ∨ ∃ capacity, Makes r c h (some x) capacity := by
  have obtained {id : ExperimentId} {capacity : Nat} (named : c.names? = some id)
      (makes : c.makes? r.historyCapacity = some (some id, capacity))
      (executed : r.execute c =
        (.handle (some (r.obtainWith id capacity).1), (r.obtainWith id capacity).2)) :
      r.get? x = some h ∨ ∃ capacity, Makes r c h (some x) capacity := by
    rw [executed] at found
    by_cases same : x = id
    · subst same
      cases live : r.get? x with
      | some k =>
          rw [obtainWith_of_live live, live] at found
          exact .inl found
      | none =>
          rw [get?_obtainWith_self] at found
          cases found
          exact .inr ⟨capacity, makes_of_absent named makes executed live⟩
    · rw [get?_obtainWith_of_ne same] at found
      exact .inl found
  cases c with
  | obtain id | obtainWith id capacity => exact obtained rfl rfl rfl
  | poll id =>
      by_cases same : x = id
      · subst same
        rw [show (r.execute (.poll x)).2.get? x = none from get?_poll_self r x] at found
        cases found
      · exact .inl ((get?_poll_of_ne same).symm.trans found)
  | get id | sentinel | contains id | add k o | view k => exact .inl found

/-- A handle that was given out is held from then on, and its history belongs to the
experiment that the command named, or to none. -/
theorem HandsOut.holds_owner (out : HandsOut r c h) (wellFormed : r.WellFormed) :
    (r.execute c).2.Holds h ∧ ((r.execute c).2.history h).owner = c.names? := by
  cases out with
  | found named live =>
      have held := wellFormed.holds live
      refine ⟨held.execute c, ?_⟩
      rw [owner_execute held, wellFormed.owner live, named]
  | made makes =>
      refine ⟨makes.held, ?_⟩
      rw [makes.contents, makes.named]
      rfl

/-! ## Sequences of commands -/

/-- The registry after several commands. -/
def after (r : Registry) (cs : List Command) : Registry := (r.executeAll cs).2

/-- The handle that a command among several gives out. -/
def handed? (r : Registry) (cs : List Command) (i : Nat) : Option Handle :=
  (r.executeAll cs).1[i]?.bind Reply.handed?

theorem after_append (r : Registry) (cs ds : List Command) :
    r.after (cs ++ ds) = (r.after cs).after ds := by
  induction cs generalizing r with
  | nil => rfl
  | cons c cs ih => exact ih (r.execute c).2

theorem after_concat (r : Registry) (cs : List Command) (c : Command) :
    r.after (cs ++ [c]) = ((r.after cs).execute c).2 := after_append r cs [c]

theorem after_take_succ {i : Nat} (there : cs[i]? = some c) :
    r.after (cs.take (i + 1)) = ((r.after (cs.take i)).execute c).2 := by
  rw [List.take_add_one, there, Option.toList_some, after_concat]

/-- What a command answers is what it answers after those before it. -/
theorem getElem?_replies (r : Registry) (cs : List Command) (i : Nat) :
    (r.executeAll cs).1[i]? =
      cs[i]?.map fun c => ((r.after (cs.take i)).execute c).1 := by
  induction cs generalizing r i with
  | nil => rfl
  | cons c cs ih =>
      cases i with
      | zero => rfl
      | succ i => exact ih (r.execute c).2 i

theorem handed?_eq {i : Nat} (there : cs[i]? = some c) :
    r.handed? cs i = ((r.after (cs.take i)).execute c).1.handed? := by
  rw [handed?, getElem?_replies, there]
  rfl

theorem wellFormed_after (wellFormed : r.WellFormed) (cs : List Command) :
    (r.after cs).WellFormed := wellFormed_executeAll wellFormed cs

/-- What holds after the first commands and is kept by each of the following ones holds
after these. -/
theorem after_induction {motive : Nat → Registry → Prop} {m n : Nat} (le : m ≤ n)
    (first : motive m (r.after (cs.take m)))
    (next : ∀ i c, m ≤ i → i < n → cs[i]? = some c → motive i (r.after (cs.take i)) →
      motive (i + 1) ((r.after (cs.take i)).execute c).2)
    (inside : n ≤ cs.length) : motive n (r.after (cs.take n)) := by
  induction n, le using Nat.le_induction with
  | base => exact first
  | succ n le ih =>
      have there : cs[n]? = some cs[n] := List.getElem?_eq_getElem inside
      have before := ih (fun i c low high => next i c low (high.trans n.lt_succ_self))
        (Nat.le_of_lt inside)
      rw [after_take_succ there]
      exact next n _ le n.lt_succ_self there before

/-! ### An outcome to add -/

/-- Nothing came of a trial. -/
def Sample.idle : Outcome := Outcome.incomplete ⟨0, 0⟩ "idle"

end Registry
end RankedSearch
