import Mathlib.Data.Set.Card
import RankedSearch.Proofs.Registry.Commands

/-!
# Generations of histories

Whoever asks for the history of an experiment gets the live one, until it is polled;
the next one to ask gets a history of the next generation, and the handles to the
earlier one stay what they were. So two handles that commands on one experiment give
out are to one history exactly when no poll of the experiment lies between them, and
handles of different experiments never are (`handles_tell_generations`).

The argument follows a handle from the command that gives it out. Up to the next
poll its history is the live one of its experiment (`get?_after_of_unpolled`).
From then on it is retired: it is still held, but no experiment finds it, and no
command brings it back, because what a command makes is new (`Retired.execute`).
-/

set_option autoImplicit false

namespace RankedSearch
namespace Registry

variable {r : Registry} {c d : Command} {cs : List Command} {h k : Handle} {x : ExperimentId}
  {i j m n : Nat}

/-! ## Retired histories -/

/-- A history that is held, but that no experiment finds. -/
structure Retired (r : Registry) (h : Handle) : Prop where
  held : r.Holds h
  unfound : ∀ x, r.get? x ≠ some h

/-- A retired history is never found again. -/
theorem Retired.execute (retired : r.Retired h) (c : Command) : (r.execute c).2.Retired h where
  held := retired.held.execute c
  unfound := by
    intro x found
    rcases get?_before_execute found with live | ⟨capacity, makes⟩
    · exact retired.unfound x live
    · exact retired.held.ne makes.fresh

/-- A poll retires the histories of its experiment. -/
theorem retired_of_poll (wellFormed : r.WellFormed) (held : r.Holds h)
    (owner : (r.history h).owner = some x) : (r.execute (.poll x)).2.Retired h where
  held := held.execute _
  unfound := by
    intro y found
    by_cases same : y = x
    · subst same
      rw [show (r.execute (.poll y)).2.get? y = none from get?_poll_self r y] at found
      cases found
    · have live : r.get? y = some h := (get?_poll_of_ne same).symm.trans found
      have owners := (wellFormed.owner live).symm.trans owner
      exact same (Option.some.inj owners)

/-- The handle that a command gives out for an experiment is that of the live history, unless
the command polls it. -/
theorem get?_execute_of_handed (handed : (r.execute c).1.handed? = some h)
    (named : c.names? = some x) (keeps : c ≠ .poll x) : (r.execute c).2.get? x = some h := by
  cases c with
  | obtain id | obtainWith id capacity =>
      cases named
      cases handed
      exact get?_obtainWith_self r x _
  | get id =>
      cases named
      exact handed
  | poll id =>
      cases named
      exact absurd rfl keeps
  | sentinel => cases named
  | contains id | add k o | view k => cases handed

/-- A command that names an experiment with a live history gives out no other one. -/
theorem eq_of_handed_of_live (out : HandsOut r c k) (named : c.names? = some x)
    (live : r.get? x = some h) : h = k := by
  cases out with
  | found alsoNamed found =>
      rw [named] at alsoNamed
      cases alsoNamed
      exact Option.some.inj (live.symm.trans found)
  | made makes =>
      have absent := makes.absent x (makes.named.symm.trans named)
      rw [live] at absent
      cases absent

/-! ## Following a handle -/

section Following

variable (there : cs[i]? = some c) (handed : r.handed? cs i = some h)
include there handed

theorem handsOut_after : HandsOut (r.after (cs.take i)) c h := by
  rw [handed?_eq there] at handed
  exact handsOut_of_reply handed

/-- Up to the next poll, the history that was given out is the live one. -/
theorem get?_after_of_unpolled (named : c.names? = some x) (before : i < n)
    (inside : n ≤ cs.length) (unpolled : ∀ l, i ≤ l → l < n → cs[l]? ≠ some (.poll x)) :
    (r.after (cs.take n)).get? x = some h := by
  apply after_induction (motive := fun _ q => q.get? x = some h) before
  · rw [handed?_eq there] at handed
    rw [after_take_succ there]
    apply get?_execute_of_handed handed named
    rintro rfl
    exact unpolled i le_rfl before there
  · intro l e low high next live
    apply get?_execute_of_live live
    rintro rfl
    exact unpolled l (Nat.le_of_succ_le low) high next
  · exact inside

variable (wellFormed : r.WellFormed)
include wellFormed

/-- A handle is held from the command on that gives it out, and its history stays with
the experiment that the command named, or with none. -/
theorem holds_owner_after (before : i < n) (inside : n ≤ cs.length) :
    (r.after (cs.take n)).Holds h ∧ ((r.after (cs.take n)).history h).owner = c.names? := by
  apply after_induction (motive := fun _ q => q.Holds h ∧ (q.history h).owner = c.names?) before
  · rw [after_take_succ there]
    exact (handsOut_after there handed).holds_owner (wellFormed_after wellFormed _)
  · rintro l e _ _ _ ⟨held, owner⟩
    exact ⟨held.execute e, (owner_execute held e).trans owner⟩
  · exact inside

/-- A poll of the experiment retires the history that was given out, for good. -/
theorem retired_after_poll (named : c.names? = some x) (notBefore : i ≤ n)
    (polled : cs[n]? = some (.poll x)) (later : n < j) (inside : j ≤ cs.length) :
    (r.after (cs.take j)).Retired h := by
  apply after_induction (motive := fun _ q => q.Retired h) later
  · rw [after_take_succ polled]
    rcases Nat.eq_or_lt_of_le notBefore with rfl | before
    · rw [there] at polled
      cases polled
      have sound := wellFormed_after wellFormed (cs.take i)
      cases handsOut_after there handed with
      | found alsoNamed live =>
          cases alsoNamed
          exact retired_of_poll sound (sound.holds live) (sound.owner live)
      | made makes => cases makes.makes
    · have inside : n ≤ cs.length := (List.getElem?_eq_some_iff.mp polled).1.le
      obtain ⟨held, owner⟩ := holds_owner_after there handed wellFormed before inside
      exact retired_of_poll (wellFormed_after wellFormed _) held (owner.trans named)
  · intro l e _ _ _ retired
    exact retired.execute e
  · exact inside

/-- Generations are told apart by the polls between them. -/
theorem handed_eq_iff (before : i < j) (next : cs[j]? = some d)
    (alsoHanded : r.handed? cs j = some k) :
    h = k ↔ ∃ x, c.names? = some x ∧ d.names? = some x ∧
      ∀ n, i ≤ n → n < j → cs[n]? ≠ some (.poll x) := by
  have inside : j ≤ cs.length := (List.getElem?_eq_some_iff.mp next).1.le
  have sound := wellFormed_after wellFormed (cs.take j)
  obtain ⟨held, owner⟩ := holds_owner_after there handed wellFormed before inside
  have out := handsOut_after next alsoHanded
  constructor
  · rintro rfl
    cases out with
    | @found y named live =>
        have same : c.names? = some y := owner.symm.trans (sound.owner live)
        refine ⟨y, same, named, ?_⟩
        intro n notBefore later polled
        have retired :=
          retired_after_poll there handed wellFormed same notBefore polled later inside
        exact retired.unfound y live
    | made makes => exact absurd makes.fresh held.ne
  · rintro ⟨x, named, alsoNamed, unpolled⟩
    exact eq_of_handed_of_live out alsoNamed
      (get?_after_of_unpolled there handed named before inside unpolled)

end Following

/-! ## Where a history comes from -/

/-- In a registry that began without entries, every entry was made by a command. -/
theorem made_of_live (empty : r.live = []) (inside : n ≤ cs.length)
    (live : (r.after (cs.take n)).get? x = some h) :
    ∃ i c capacity, i < n ∧ cs[i]? = some c ∧
      Makes (r.after (cs.take i)) c h (some x) capacity := by
  induction n with
  | zero =>
      have absent : r.get? x = none := by simp [get?, empty]
      cases live.symm.trans absent
  | succ n ih =>
      have there : cs[n]? = some cs[n] := List.getElem?_eq_getElem inside
      rw [after_take_succ there] at live
      rcases get?_before_execute live with before | ⟨capacity, makes⟩
      · obtain ⟨i, c, capacity, earlier, made⟩ := ih (Nat.le_of_lt inside) before
        exact ⟨i, c, capacity, earlier.trans n.lt_succ_self, made⟩
      · exact ⟨n, _, capacity, n.lt_succ_self, there, makes⟩

/-- What is given out was made by a command, that one or an earlier one. -/
theorem made_of_handed (empty : r.live = []) (handed : r.handed? cs j = some h) :
    ∃ i c owner capacity, i ≤ j ∧ cs[i]? = some c ∧
      Makes (r.after (cs.take i)) c h owner capacity := by
  have inside : j < cs.length := by
    by_contra outside
    rw [handed?, getElem?_replies, List.getElem?_eq_none (not_lt.mp outside)] at handed
    cases handed
  have there : cs[j]? = some cs[j] := List.getElem?_eq_getElem inside
  cases handsOut_after there handed with
  | found named live =>
      obtain ⟨i, c, capacity, earlier, made⟩ := made_of_live empty inside.le live
      exact ⟨i, c, _, capacity, earlier.le, made⟩
  | made makes => exact ⟨j, _, _, _, le_rfl, there, makes⟩

section Made

variable {owner : Option ExperimentId} {capacity : Nat} (there : cs[i]? = some c)
  (makes : Makes (r.after (cs.take i)) c h owner capacity)
include there makes

/-- A history is what was added through its handle since it was made. -/
theorem history_after_made (before : i < n) (inside : n ≤ cs.length) :
    (r.after (cs.take n)).history h =
      (History.empty owner capacity).addAll (addedThrough h ((cs.take n).drop (i + 1))) := by
  have followed : (r.after (cs.take n)).Holds h ∧ (r.after (cs.take n)).history h =
      (History.empty owner capacity).addAll (addedThrough h ((cs.take n).drop (i + 1))) := by
    apply after_induction (motive := fun n q => q.Holds h ∧ q.history h =
      (History.empty owner capacity).addAll (addedThrough h ((cs.take n).drop (i + 1)))) before
    · rw [after_take_succ there, List.drop_take_self]
      exact ⟨makes.held, makes.contents⟩
    · rintro l e low high next ⟨held, contents⟩
      refine ⟨held.execute e, ?_⟩
      have room : i + 1 ≤ (cs.take l).length := by
        rw [List.length_take]
        exact le_min low (low.trans (high.le.trans inside))
      rw [history_execute held, contents, List.take_add_one, next, Option.toList_some,
        List.drop_append_of_le_length room, addedThrough_concat, History.addAll_append]
    · exact inside
  exact followed.2

/-- What a command makes was never given out before. -/
theorem not_handed_before_made (wellFormed : r.WellFormed) (earlier : m < i) :
    r.handed? cs m ≠ some h := by
  intro handed
  have inside : i < cs.length := (List.getElem?_eq_some_iff.mp there).1
  have next : cs[m]? = some cs[m] := List.getElem?_eq_getElem (earlier.trans inside)
  obtain ⟨held, _⟩ := holds_owner_after next handed wellFormed earlier inside.le
  exact held.ne makes.fresh

end Made

/-! ## Live histories -/

/-- A command makes sure that an experiment has a history. -/
def Command.Obtains (x : ExperimentId) : Command → Prop
  | .obtain id | .obtainWith id _ => id = x
  | .get _ | .poll _ | .sentinel | .contains _ | .add _ _ | .view _ => False

/-- A command makes sure that an experiment has a history, and no later one polls it. -/
def Persists (cs : List Command) (x : ExperimentId) : Prop :=
  ∃ front c back, cs = front ++ c :: back ∧ c.Obtains x ∧ Command.poll x ∉ back

theorem not_persists_nil (x : ExperimentId) : ¬ Persists [] x := by
  rintro ⟨front, c, back, whole, _⟩
  cases front <;> cases whole

theorem persists_concat_iff (cs : List Command) (c : Command) (x : ExperimentId) :
    Persists (cs ++ [c]) x ↔ c.Obtains x ∨ Persists cs x ∧ c ≠ .poll x := by
  constructor
  · rintro ⟨front, d, back, whole, obtains, unpolled⟩
    induction back using List.reverseRecOn with
    | nil =>
        obtain ⟨rfl, same⟩ := List.append_inj' whole rfl
        cases same
        exact .inl obtains
    | append_singleton back e _ =>
        rw [← List.cons_append, ← List.append_assoc] at whole
        obtain ⟨rfl, same⟩ := List.append_inj' whole rfl
        cases same
        refine .inr ⟨⟨front, d, back, rfl, obtains, ?_⟩, ?_⟩
        · intro member
          exact unpolled (List.mem_append_left _ member)
        · rintro rfl
          exact unpolled (List.mem_append_right _ List.mem_cons_self)
  · rintro (obtains | ⟨⟨front, d, back, rfl, obtains, unpolled⟩, keeps⟩)
    · exact ⟨cs, c, [], rfl, obtains, List.not_mem_nil⟩
    · refine ⟨front, d, back ++ [c], by simp, obtains, ?_⟩
      intro member
      rcases List.mem_append.mp member with before | last
      · exact unpolled before
      · exact keeps (List.mem_singleton.mp last).symm

theorem isSome_get?_execute_iff :
    ((r.execute c).2.get? x).isSome ↔ c.Obtains x ∨ (r.get? x).isSome ∧ c ≠ .poll x := by
  have obtained (id : ExperimentId) (capacity : Nat) :
      ((r.obtainWith id capacity).2.get? x).isSome ↔ id = x ∨ (r.get? x).isSome := by
    by_cases same : x = id
    · subst same
      simp [get?_obtainWith_self]
    · simp [get?_obtainWith_of_ne same, Ne.symm same]
  cases c with
  | obtain id | obtainWith id capacity =>
      show ((r.obtainWith id _).2.get? x).isSome ↔ _
      simp [Command.Obtains, obtained]
  | poll id =>
      show ((r.poll id).2.get? x).isSome ↔ _
      by_cases same : x = id
      · subst same
        simp [Command.Obtains]
      · simp [Command.Obtains, get?_poll_of_ne same, Ne.symm same]
  | get id | sentinel | contains id | add k o | view k =>
      show (r.get? x).isSome ↔ _
      simp [Command.Obtains]

/-- An experiment has a history if it was asked for one since the last poll. -/
theorem isSome_get?_after_iff (empty : r.live = []) (cs : List Command) :
    ((r.after cs).get? x).isSome ↔ Persists cs x := by
  induction cs using List.reverseRecOn with
  | nil => simp [after, executeAll, get?, empty, not_persists_nil]
  | append_singleton cs c ih =>
      rw [after_concat, isSome_get?_execute_iff, persists_concat_iff, ih]

/-- The size of a registry is the number of experiments that have a history. -/
theorem WellFormed.encard_live (wellFormed : r.WellFormed) :
    Set.encard {x | (r.get? x).isSome} = r.size := by
  have members : {x | (r.get? x).isSome} = ((r.live.map Prod.fst).toFinset : Set ExperimentId) := by
    ext x
    have found := not_congr (get?_eq_none_iff (r := r) (x := x))
    simpa [Option.isSome_iff_ne_none] using found
  rw [members, Set.encard_coe_eq_coe_finsetCard, List.toFinset_card_of_nodup wellFormed.keys,
    List.length_map]
  rfl

/-! ## Generations -/

theorem wellFormed_of_live_eq_nil (empty : r.live = []) : r.WellFormed where
  keys := by
    rw [empty]
    exact List.nodup_nil
  holds := by
    intro x h found
    simp [get?, empty] at found
  owner := by
    intro x h found
    simp [get?, empty] at found

theorem historyCapacity_after (r : Registry) (cs : List Command) :
    (r.after cs).historyCapacity = r.historyCapacity := by
  induction cs using List.reverseRecOn with
  | nil => rfl
  | append_singleton cs c ih => rw [after_concat, historyCapacity_execute, ih]

/-- **Handles tell the generations of histories apart.** In a registry that begins
without entries, whatever the commands: two handles are equal exactly when the
commands that gave them out name one experiment and no poll of it lies between them,
so no two polls give out one history. No experiment has two entries. Every history
was given out first by a command that made it, and for ever after it has the capacity
of that command, at least one, and shows what was added through its own handle since.
The size of the registry is the number of experiments of which a history was obtained
since their last poll. -/
theorem handles_tell_generations (empty : r.isEmpty = true) (cs : List Command) :
    (∀ i j c d h k, i < j → cs[i]? = some c → cs[j]? = some d → r.handed? cs i = some h →
      r.handed? cs j = some k →
      (h = k ↔ ∃ x, c.names? = some x ∧ d.names? = some x ∧
        ∀ n, i ≤ n → n < j → cs[n]? ≠ some (.poll x))) ∧
    (∀ i j x y h, i < j → cs[i]? = some (.poll x) → cs[j]? = some (.poll y) →
      r.handed? cs i = some h → r.handed? cs j ≠ some h) ∧
    ((r.after cs).live.map Prod.fst).Nodup ∧
    (∀ j h, r.handed? cs j = some h → ∃ i c owner capacity, i ≤ j ∧ cs[i]? = some c ∧
      c.makes? r.historyCapacity = some (owner, capacity) ∧ r.handed? cs i = some h ∧
      (∀ m, m < i → r.handed? cs m ≠ some h) ∧
      ∀ n, i < n → n ≤ cs.length →
        ((r.after (cs.take n)).history h).capacity = max capacity 1 ∧
        ((r.after (cs.take n)).execute (.view h)).1 = .contents
          ((History.empty owner capacity).addAll (addedThrough h ((cs.take n).drop (i + 1))))) ∧
    ((r.after cs).size : ℕ∞) = Set.encard {x | Persists cs x} := by
  have vacant : r.live = [] := List.isEmpty_iff.mp empty
  have wellFormed := wellFormed_of_live_eq_nil vacant
  refine ⟨?_, ?_, (wellFormed_after wellFormed cs).keys, ?_, ?_⟩
  · intro i j c d h k before there next handed alsoHanded
    exact handed_eq_iff there handed wellFormed before next alsoHanded
  · intro i j x y h before there next handed alsoHanded
    obtain ⟨z, named, _, unpolled⟩ :=
      (handed_eq_iff there handed wellFormed before next alsoHanded).mp rfl
    cases named
    exact unpolled i le_rfl before there
  · intro j h handed
    obtain ⟨i, c, owner, capacity, notAfter, there, makes⟩ := made_of_handed vacant handed
    have settings := makes.makes
    rw [historyCapacity_after] at settings
    refine ⟨i, c, owner, capacity, notAfter, there, settings,
      (handed?_eq there).trans makes.handed, ?_, ?_⟩
    · intro m earlier
      exact not_handed_before_made there makes wellFormed earlier
    · intro n before inside
      have contents := history_after_made there makes before inside
      refine ⟨?_, congrArg Reply.contents contents⟩
      rw [contents, History.capacity_addAll]
      rfl
  · rw [← (wellFormed_after wellFormed cs).encard_live]
    congr 1
    ext x
    exact isSome_get?_after_iff vacant cs

/-! ### A history that is polled and made again -/

namespace Sample

/-- A history is polled and then written to through the handle that is left, while the
experiment gets a history again, of another capacity. -/
def renewing (x : ExperimentId) : List Command :=
  [.obtainWith x 0, .poll x, .obtainWith x 4, .add ⟨0⟩ idle, .obtain x, .sentinel]

end Sample

theorem renewed_history_is_another :
    ∃ h k, Registry.new.handed? (Sample.renewing .nil) 1 = some h ∧
      Registry.new.handed? (Sample.renewing .nil) 2 = some k ∧ h ≠ k ∧
      Registry.new.handed? (Sample.renewing .nil) 4 = some k ∧
      ((Registry.new.after (Sample.renewing .nil)).execute (.view h)).1 =
        .contents ((History.empty (some .nil) 0).addAll [Sample.idle]) := by
  obtain ⟨generations, _, _, made, _⟩ :=
    handles_tell_generations (r := Registry.new) rfl (Sample.renewing .nil)
  have polled : Registry.new.handed? (Sample.renewing .nil) 1 = some ⟨0⟩ := rfl
  have renewed : Registry.new.handed? (Sample.renewing .nil) 2 = some ⟨1⟩ := rfl
  obtain ⟨k, again⟩ : ∃ k, Registry.new.handed? (Sample.renewing .nil) 4 = some k := ⟨⟨1⟩, rfl⟩
  have different : (⟨0⟩ : Handle) ≠ ⟨1⟩ := by
    intro same
    obtain ⟨x, named, _, unpolled⟩ :=
      (generations 1 2 _ _ _ _ (by decide) rfl rfl polled renewed).mp same
    cases named
    exact unpolled 1 le_rfl (by decide) rfl
  have still : (⟨1⟩ : Handle) = k := by
    apply (generations 2 4 _ _ _ _ (by decide) rfl rfl renewed again).mpr
    refine ⟨.nil, rfl, rfl, ?_⟩
    intro n notBefore earlier
    obtain rfl | rfl : n = 2 ∨ n = 3 := by omega
    · decide
    · decide
  obtain ⟨i, c, owner, capacity, notAfter, there, settings, _, _, kept⟩ := made 1 _ polled
  obtain rfl | rfl : i = 0 ∨ i = 1 := by omega
  · cases there
    cases settings
    exact ⟨_, _, polled, renewed, different, again.trans (congrArg some still.symm),
      (kept 6 (by decide) (by decide)).2⟩
  · cases there
    cases settings

end Registry
end RankedSearch
