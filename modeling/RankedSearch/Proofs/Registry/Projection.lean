import RankedSearch.Proofs.Registry.Commands
import RankedSearch.Run

/-!
# The registry as one experiment sees it

Experiments that share a registry have nothing to do with each other. The projection
`Registry.only` keeps the histories and the entry of one experiment, and a handle
becomes the number of its history among those that are kept. Projecting commutes with
every command that concerns the experiment (`execute_only_of_concerns`), and the other
commands leave the projection as it is (`only_execute_of_apart`). So an experiment gets
the answers that it would get if it were alone (`experiments_do_not_interfere`).
-/

set_option autoImplicit false

namespace RankedSearch

/-! ## Keeping some elements of a list -/

section Kept

variable {α : Type} {p : α → Bool} {xs : List α} {n : Nat} {a : α}

theorem exists_split_of_getElem? (there : xs[n]? = some a) :
    ∃ front back, xs = front ++ a :: back ∧ front.length = n := by
  obtain ⟨inside, rfl⟩ := List.getElem?_eq_some_iff.mp there
  refine ⟨xs.take n, xs.drop (n + 1), ?_, List.length_take_of_le inside.le⟩
  rw [List.getElem_cons_drop, List.take_append_drop]

/-- An element that is kept stands behind those before it that are kept. -/
theorem getElem?_filter_countP (there : xs[n]? = some a) (kept : p a = true) :
    (xs.filter p)[(xs.take n).countP p]? = some a := by
  obtain ⟨front, back, rfl, rfl⟩ := exists_split_of_getElem? there
  simp [kept, List.countP_eq_length_filter]

theorem filter_set_of_kept (there : xs[n]? = some a) (kept : p a = true) {b : α}
    (alsoKept : p b = true) :
    (xs.set n b).filter p = (xs.filter p).set ((xs.take n).countP p) b := by
  obtain ⟨front, back, rfl, rfl⟩ := exists_split_of_getElem? there
  simp [kept, alsoKept, List.countP_eq_length_filter]

theorem filter_set_of_dropped (there : xs[n]? = some a) (dropped : p a = false) {b : α}
    (alsoDropped : p b = false) : (xs.set n b).filter p = xs.filter p := by
  obtain ⟨front, back, rfl, rfl⟩ := exists_split_of_getElem? there
  simp [dropped, alsoDropped]

/-- An element gives way to one that is kept as well or dropped as well. -/
theorem countP_take_set (there : xs[n]? = some a) {b : α} (same : p b = p a) (m : Nat) :
    ((xs.set n b).take m).countP p = (xs.take m).countP p := by
  rw [List.take_set]
  rcases Nat.lt_or_ge n m with inside | outside
  · have stays : (xs.take m)[n]? = some a := by rw [List.getElem?_take_of_lt inside, there]
    obtain ⟨front, back, whole, rfl⟩ := exists_split_of_getElem? stays
    rw [whole]
    simp [List.countP_cons, same]
  · rw [List.set_eq_of_length_le]
    exact (List.length_take_le m xs).trans outside

end Kept

namespace Registry

variable {r q : Registry} {c : Command} {cs ds : List Command} {h k : Handle} {x id : ExperimentId}
  {o : Outcome}

/-! ## The projection -/

/-- Whether a history is one of an experiment. -/
def isOf (x : ExperimentId) (history : History) : Bool := decide (history.owner = some x)

/-- The number of a history among those of an experiment. -/
def numberIn (r : Registry) (x : ExperimentId) (h : Handle) : Handle :=
  ⟨(r.histories.take h.place).countP (isOf x)⟩

/-- The registry as it would be if one experiment alone had used it. -/
def only (r : Registry) (x : ExperimentId) : Registry :=
  { r with
    histories := r.histories.filter (isOf x)
    live := ((r.get? x).map fun h => (x, r.numberIn x h)).toList }

/-- The history behind a handle is one of an experiment. -/
def Owns (r : Registry) (x : ExperimentId) (h : Handle) : Prop := (r.history h).owner = some x

theorem Owns.holds (owns : r.Owns x h) : r.Holds h := by
  by_contra outside
  have none : r.histories[h.place]? = none := List.getElem?_eq_none (not_lt.mp outside)
  rw [Owns, history, none] at owns
  cases owns

theorem getElem?_histories (held : r.Holds h) : r.histories[h.place]? = some (r.history h) := by
  rw [history_eq_getElem held]
  exact List.getElem?_eq_getElem held

theorem Owns.isOf (owns : r.Owns x h) : Registry.isOf x (r.history h) = true :=
  decide_eq_true owns

theorem live_only_of_live (live : r.get? x = some h) :
    (r.only x).live = [(x, r.numberIn x h)] := by
  rw [only, live]
  rfl

theorem live_only_of_absent (absent : r.get? x = none) : (r.only x).live = [] := by
  rw [only, absent]
  rfl

@[simp] theorem get?_only (r : Registry) (x : ExperimentId) :
    (r.only x).get? x = (r.get? x).map (r.numberIn x) := by
  cases live : r.get? x with
  | none => rw [get?, live_only_of_absent live]; rfl
  | some h =>
      rw [get?, live_only_of_live live]
      simp

theorem getElem?_only (owns : r.Owns x h) :
    (r.only x).histories[(r.numberIn x h).place]? = some (r.history h) :=
  getElem?_filter_countP (getElem?_histories owns.holds) owns.isOf

/-- A history of the experiment is kept with its contents. -/
theorem history_only (owns : r.Owns x h) :
    (r.only x).history (r.numberIn x h) = r.history h := by
  rw [history, getElem?_only owns, Option.getD_some]

/-- Different histories of the experiment have different numbers. -/
theorem numberIn_injective (owns : r.Owns x h) (alsoOwns : r.Owns x k)
    (same : r.numberIn x h = r.numberIn x k) : h = k := by
  have strict {h k : Handle} (owns : r.Owns x h) (before : h.place < k.place) :
      (r.numberIn x h).place < (r.numberIn x k).place := by
    -- The history behind `h` is counted as soon as its own place is passed.
    have next : r.histories.take (h.place + 1) =
        r.histories.take h.place ++ [r.history h] := by
      rw [List.take_add_one, getElem?_histories owns.holds, Option.toList_some]
    have more : (r.numberIn x h).place + 1 =
        (r.histories.take (h.place + 1)).countP (Registry.isOf x) := by
      rw [next, List.countP_append, List.countP_singleton, if_pos owns.isOf]
      rfl
    have front : r.histories.take (h.place + 1) <+: r.histories.take k.place :=
      List.take_prefix_take_left before
    exact Nat.lt_of_succ_le (more.trans_le front.sublist.countP_le)
  rcases Nat.lt_trichotomy h.place k.place with before | equal | behind
  · exact absurd (congrArg Handle.place same) (strict owns before).ne
  · cases h
    cases k
    exact congrArg Handle.mk equal
  · exact absurd (congrArg Handle.place same) (strict alsoOwns behind).ne'

/-! ## Numbers do not change -/

theorem numberIn_allocate (held : r.Holds h) (new : History) :
    (r.allocate new).2.numberIn x h = r.numberIn x h := by
  rw [numberIn, numberIn, allocate, List.take_append_of_le_length held.le]

/-- A new history of the experiment gets the next number. -/
theorem numberIn_allocate_self (r : Registry) (new : History) :
    (r.allocate new).2.numberIn x (r.allocate new).1 = ⟨(r.only x).histories.length⟩ := by
  simp [numberIn, allocate, only, List.countP_eq_length_filter]

theorem isOf_add (history : History) (o : Outcome) : isOf x (history.add o).2 = isOf x history := by
  rw [isOf, isOf, History.owner_add]

theorem numberIn_add (r : Registry) (h k : Handle) (o : Outcome) :
    (r.add h o).2.numberIn x k = r.numberIn x k := by
  by_cases held : r.Holds h
  · exact congrArg Handle.mk (countP_take_set (getElem?_histories held) (isOf_add _ o) k.place)
  · have outside : r.histories.length ≤ h.place := not_lt.mp held
    simp only [numberIn, add, List.set_eq_of_length_le outside]

theorem numberIn_obtainWith (held : r.Holds h) (id : ExperimentId) (capacity : Nat) :
    (r.obtainWith id capacity).2.numberIn x h = r.numberIn x h := by
  cases live : r.get? id with
  | some k => rw [obtainWith_of_live live]
  | none =>
      rw [obtainWith_of_absent live]
      exact numberIn_allocate held _

theorem numberIn_execute (held : r.Holds h) (c : Command) :
    (r.execute c).2.numberIn x h = r.numberIn x h := by
  cases c with
  | obtain id | obtainWith id capacity => exact numberIn_obtainWith held id _
  | sentinel => exact numberIn_allocate held _
  | add k o => exact numberIn_add r k h o
  | get id | poll id | contains id | view k => rfl

theorem numberIn_after (held : r.Holds h) (cs : List Command) :
    (r.after cs).numberIn x h = r.numberIn x h := by
  induction cs generalizing r with
  | nil => rfl
  | cons c cs ih => exact (ih (held.execute c)).trans (numberIn_execute held c)

/-! ## Commands of others -/

theorem eq_of_fields (capacity : q.historyCapacity = r.historyCapacity)
    (wide : q.processWide = r.processWide) (histories : q.histories = r.histories)
    (live : q.live = r.live) : q = r := by
  cases q
  cases r
  cases capacity
  cases wide
  cases histories
  cases live
  rfl

/-- A projection is kept when the histories of the experiment, its entry and the number of this
entry are. -/
theorem only_congr (capacity : q.historyCapacity = r.historyCapacity)
    (wide : q.processWide = r.processWide)
    (histories : q.histories.filter (isOf x) = r.histories.filter (isOf x))
    (found : q.get? x = r.get? x)
    (number : ∀ h, r.get? x = some h → q.numberIn x h = r.numberIn x h) :
    q.only x = r.only x := by
  apply eq_of_fields
  · exact capacity
  · exact wide
  · exact histories
  · cases live : r.get? x with
    | none => rw [live_only_of_absent live, live_only_of_absent (found.trans live)]
    | some h =>
        rw [live_only_of_live live, live_only_of_live (found.trans live), number h live]

theorem filter_isOf_concat_of_other (r : Registry) {new : History} (other : isOf x new = false) :
    (r.histories ++ [new]).filter (isOf x) = r.histories.filter (isOf x) := by
  rw [List.filter_append, List.filter_singleton, other, cond_false, List.append_nil]

theorem only_allocate_of_other (wellFormed : r.WellFormed) {new : History}
    (other : isOf x new = false) : (r.allocate new).2.only x = r.only x := by
  apply only_congr
  · rfl
  · rfl
  · exact filter_isOf_concat_of_other r other
  · rfl
  · intro h live
    exact numberIn_allocate (wellFormed.holds live) new

theorem only_obtainWith_of_ne (wellFormed : r.WellFormed) (different : id ≠ x) (capacity : Nat) :
    (r.obtainWith id capacity).2.only x = r.only x := by
  cases live : r.get? id with
  | some h => rw [obtainWith_of_live live]
  | none =>
      have other : isOf x (History.new id capacity) = false := by
        apply decide_eq_false
        intro same
        exact different (Option.some.inj same)
      have found : (r.obtainWith id capacity).2.get? x = r.get? x :=
        get?_obtainWith_of_ne (Ne.symm different)
      rw [obtainWith_of_absent live] at found ⊢
      apply only_congr
      · rfl
      · rfl
      · exact filter_isOf_concat_of_other r other
      · exact found
      · intro h known
        exact numberIn_allocate (wellFormed.holds known) _

theorem only_add_of_other (other : ¬ r.Owns x h) (o : Outcome) :
    (r.add h o).2.only x = r.only x := by
  apply only_congr
  · rfl
  · rfl
  · have dropped : isOf x (r.history h) = false := decide_eq_false other
    by_cases held : r.Holds h
    · exact filter_set_of_dropped (getElem?_histories held) dropped ((isOf_add _ o).trans dropped)
    · show (r.histories.set h.place _).filter (isOf x) = _
      rw [List.set_eq_of_length_le (not_lt.mp held)]
  · rfl
  · intro k _
    exact numberIn_add r h k o

theorem only_poll_of_ne (different : id ≠ x) : (r.poll id).2.only x = r.only x := by
  apply only_congr
  · rfl
  · rfl
  · rfl
  · exact get?_poll_of_ne (Ne.symm different)
  · intro h _
    rfl

/-- A command that does not concern an experiment leaves its projection as it is. -/
theorem only_execute_of_apart (wellFormed : r.WellFormed)
    (apart : Run.concerns r x c = false) : (r.execute c).2.only x = r.only x := by
  cases c with
  | obtain id | obtainWith id capacity =>
      apply only_obtainWith_of_ne wellFormed
      intro same
      simp [Run.concerns, same] at apart
  | poll id =>
      apply only_poll_of_ne
      intro same
      simp [Run.concerns, same] at apart
  | sentinel => exact only_allocate_of_other wellFormed rfl
  | add h o =>
      apply only_add_of_other
      intro owns
      rw [Owns] at owns
      simp [Run.concerns, owns] at apart
  | get id | contains id | view k => rfl

/-! ## Own commands -/

/-- A command with other handles. -/
def Command.renumber (f : Handle → Handle) : Command → Command
  | .obtain id => .obtain id
  | .obtainWith id capacity => .obtainWith id capacity
  | .get id => .get id
  | .poll id => .poll id
  | .sentinel => .sentinel
  | .contains id => .contains id
  | .add h o => .add (f h) o
  | .view h => .view (f h)

/-- An answer with other handles. -/
def Reply.renumber (f : Handle → Handle) : Reply → Reply
  | .handle h => .handle (h.map f)
  | .admission a => .admission a
  | .contents h => .contents h
  | .truth b => .truth b

theorem obtainWith_only (r : Registry) (x : ExperimentId) (capacity : Nat) :
    (r.only x).obtainWith x capacity =
      ((r.obtainWith x capacity).2.numberIn x (r.obtainWith x capacity).1,
        (r.obtainWith x capacity).2.only x) := by
  cases live : r.get? x with
  | some h =>
      have known : (r.only x).get? x = some (r.numberIn x h) := by rw [get?_only, live]; rfl
      rw [obtainWith_of_live live, obtainWith_of_live known]
  | none =>
      have unknown : (r.only x).get? x = none := by rw [get?_only, live]; rfl
      have own : isOf x (History.new x capacity) = true := decide_eq_true rfl
      have number := numberIn_allocate_self (x := x) r (History.new x capacity)
      have found := get?_obtainWith_self r x capacity
      rw [obtainWith_of_absent unknown]
      rw [obtainWith_of_absent live] at found ⊢
      apply Prod.ext number.symm
      apply eq_of_fields
      · rfl
      · rfl
      · show r.histories.filter (isOf x) ++ [_] = (r.histories ++ [_]).filter (isOf x)
        rw [List.filter_append, List.filter_singleton, own, cond_true]
      · show (r.only x).live ++ [_] = _
        rw [live_only_of_absent live, List.nil_append]
        refine Eq.trans ?_ (live_only_of_live found).symm
        exact congrArg (fun h => [(x, h)]) number.symm

theorem poll_only (r : Registry) (x : ExperimentId) :
    (r.only x).poll x = ((r.get? x).map (r.numberIn x), (r.poll x).2.only x) := by
  apply Prod.ext (get?_only r x)
  apply eq_of_fields
  · rfl
  · rfl
  · rfl
  · rw [live_only_of_absent (get?_poll_self r x)]
    show (r.only x).live.filter _ = []
    cases live : r.get? x with
    | none => rw [live_only_of_absent live, List.filter_nil]
    | some h =>
        rw [live_only_of_live live]
        simp

theorem add_only (owns : r.Owns x h) (o : Outcome) :
    (r.only x).add (r.numberIn x h) o = ((r.add h o).1, (r.add h o).2.only x) := by
  have same := history_only owns
  apply Prod.ext
  · show (((r.only x).history _).add o).1 = _
    rw [same]
    rfl
  apply eq_of_fields
  · rfl
  · rfl
  · have alsoOwn := (isOf_add (x := x) _ o).trans owns.isOf
    show (r.histories.filter (isOf x)).set _ (((r.only x).history _).add o).2 =
      (r.histories.set h.place ((r.history h).add o).2).filter (isOf x)
    rw [same, filter_set_of_kept (getElem?_histories owns.holds) owns.isOf alsoOwn]
    rfl
  · show (r.only x).live = _
    cases live : r.get? x with
    | none => rw [live_only_of_absent live, live_only_of_absent ((get?_add r h o).trans live)]
    | some k =>
        rw [live_only_of_live live, live_only_of_live ((get?_add r h o).trans live), numberIn_add]

/-- A command that concerns an experiment is answered by the projection, and changes it, as it is
answered by the registry and changes that. -/
theorem execute_only_of_concerns (own : Run.concerns r x c = true) :
    (r.only x).execute (c.renumber (r.numberIn x)) =
      ((r.execute c).1.renumber ((r.execute c).2.numberIn x), (r.execute c).2.only x) := by
  have obtained (capacity : Nat) :
      (Reply.handle (some ((r.only x).obtainWith x capacity).1),
        ((r.only x).obtainWith x capacity).2) =
      ((Reply.handle (some (r.obtainWith x capacity).1)).renumber
        ((r.obtainWith x capacity).2.numberIn x), (r.obtainWith x capacity).2.only x) := by
    rw [obtainWith_only]
    rfl
  cases c with
  | obtain id | obtainWith id capacity =>
      obtain rfl : id = x := by simpa [Run.concerns] using own
      exact obtained _
  | get id =>
      obtain rfl : id = x := by simpa [Run.concerns] using own
      exact congrArg (fun found => (Reply.handle found, r.only id)) (get?_only r id)
  | poll id =>
      obtain rfl : id = x := by simpa [Run.concerns] using own
      show (Reply.handle ((r.only id).poll id).1, ((r.only id).poll id).2) = _
      rw [poll_only]
      rfl
  | contains id =>
      obtain rfl : id = x := by simpa [Run.concerns] using own
      show (Reply.truth ((r.only id).get? id).isSome, r.only id) = _
      rw [get?_only, Option.isSome_map]
      rfl
  | add h o =>
      have owns : r.Owns x h := by simpa [Run.concerns, Owns] using own
      show (Reply.admission ((r.only x).add _ o).1, ((r.only x).add _ o).2) = _
      rw [add_only owns]
      rfl
  | view h =>
      have owns : r.Owns x h := by simpa [Run.concerns, Owns] using own
      exact congrArg (fun seen => (Reply.contents seen, r.only x)) (history_only owns)
  | sentinel => cases own

/-! ## Sequences of commands -/

/-- What concerns an experiment among several commands, with the answers. A handle
stands there as the number of its history among those of the experiment. -/
def exchanges (r : Registry) (x : ExperimentId) : List Command → List (Command × Reply)
  | [] => []
  | c :: cs =>
    let (reply, q) := r.execute c
    if Run.concerns r x c then
      (c.renumber (r.numberIn x), reply.renumber (q.numberIn x)) :: exchanges q x cs
    else exchanges q x cs

theorem exchanges_cons_of_concerns (own : Run.concerns r x c = true) (cs : List Command) :
    r.exchanges x (c :: cs) =
      (c.renumber (r.numberIn x), (r.execute c).1.renumber ((r.execute c).2.numberIn x)) ::
        (r.execute c).2.exchanges x cs :=
  if_pos own

theorem exchanges_cons_of_apart (apart : Run.concerns r x c = false) (cs : List Command) :
    r.exchanges x (c :: cs) = (r.execute c).2.exchanges x cs :=
  if_neg (Bool.eq_false_iff.mp apart)

/-- What concerns an experiment is answered, command after command, as if it were alone. -/
theorem executeAll_only (wellFormed : r.WellFormed) (x : ExperimentId) (cs : List Command) :
    (r.only x).executeAll ((r.exchanges x cs).map Prod.fst) =
      ((r.exchanges x cs).map Prod.snd, (r.after cs).only x) := by
  induction cs generalizing r with
  | nil => rfl
  | cons c cs ih =>
      have next := ih (wellFormed.execute c)
      cases own : Run.concerns r x c with
      | false =>
          rw [only_execute_of_apart wellFormed own] at next
          rw [exchanges_cons_of_apart own, next]
          rfl
      | true =>
          rw [exchanges_cons_of_concerns own, List.map_cons, List.map_cons, executeAll,
            execute_only_of_concerns own]
          simp only [next]
          rfl

/-- A registry that has made no history is its own projection. -/
theorem only_of_unused (wellFormed : r.WellFormed) (unused : r.histories = []) (x : ExperimentId) :
    r.only x = r := by
  have absent (y : ExperimentId) : r.get? y = none := by
    cases live : r.get? y with
    | none => rfl
    | some h =>
        have held : h.place < r.histories.length := wellFormed.holds live
        rw [unused] at held
        cases held
  have noEntry : r.live = [] := by
    apply List.eq_nil_iff_forall_not_mem.mpr
    intro entry member
    exact get?_eq_none_iff.mp (absent entry.1) (List.mem_map_of_mem member)
  apply eq_of_fields
  · rfl
  · rfl
  · show r.histories.filter _ = r.histories
    rw [unused, List.filter_nil]
  · rw [live_only_of_absent (absent x), noEntry]

theorem historyOf?_only (wellFormed : r.WellFormed) (x : ExperimentId) :
    (r.only x).historyOf? x = r.historyOf? x := by
  rw [historyOf?, get?_only, historyOf?]
  cases live : r.get? x with
  | none => rfl
  | some h => exact congrArg some (history_only (wellFormed.owner live))

/-! ## Clients -/

/-- A client that chooses what to ask by the answers so far has asked for certain things. -/
def Follows (client : List Reply → Option Command) (asked : List (Command × Reply)) : Prop :=
  ∀ i c reply, asked[i]? = some (c, reply) → client ((asked.take i).map Prod.snd) = some c

/-- The answer in an exchange is that of the projection after the exchanges before. -/
theorem reply_of_exchange {i : Nat} {reply : Reply} (wellFormed : r.WellFormed)
    (there : (r.exchanges x cs)[i]? = some (c, reply)) :
    reply = (((r.only x).after (((r.exchanges x cs).take i).map Prod.fst)).execute c).1 := by
  have answers := getElem?_replies (r.only x) ((r.exchanges x cs).map Prod.fst) i
  rw [executeAll_only wellFormed, List.getElem?_map, List.getElem?_map, there,
    ← List.map_take] at answers
  exact Option.some.inj answers

section Clients

variable {client : List Reply → Option Command} (wellFormed : r.WellFormed)
  (first : Follows client (r.exchanges x cs)) (second : Follows client (r.exchanges x ds))
include wellFormed first second

theorem take_exchanges_eq {n : Nat} (inside : n ≤ (r.exchanges x cs).length)
    (insideToo : n ≤ (r.exchanges x ds).length) :
    (r.exchanges x cs).take n = (r.exchanges x ds).take n := by
  induction n with
  | zero => rfl
  | succ n ih =>
      have before := ih (Nat.le_of_lt inside) (Nat.le_of_lt insideToo)
      obtain ⟨⟨c, reply⟩, there⟩ : ∃ e, (r.exchanges x cs)[n]? = some e :=
        ⟨_, List.getElem?_eq_getElem inside⟩
      obtain ⟨⟨d, answer⟩, thereToo⟩ : ∃ e, (r.exchanges x ds)[n]? = some e :=
        ⟨_, List.getElem?_eq_getElem insideToo⟩
      -- By the same answers the client asks the same, and the projection answers the same.
      have asked := first n c reply there
      rw [before, second n d answer thereToo] at asked
      cases asked
      have same : reply = answer := by
        rw [reply_of_exchange wellFormed there, reply_of_exchange wellFormed thereToo, before]
      rw [List.take_add_one, List.take_add_one, there, thereToo, before, same]

/-- A client is answered the same in every company, as far as it goes. -/
theorem exchange_eq_of_follows {i : Nat} {e f : Command × Reply}
    (there : (r.exchanges x cs)[i]? = some e) (thereToo : (r.exchanges x ds)[i]? = some f) :
    e = f := by
  have same := take_exchanges_eq wellFormed first second (List.getElem?_eq_some_iff.mp there).1
    (List.getElem?_eq_some_iff.mp thereToo).1
  have taken := congrArg (fun exchanges => exchanges[i]?) same
  rw [List.getElem?_take_of_lt i.lt_succ_self, List.getElem?_take_of_lt i.lt_succ_self, there,
    thereToo] at taken
  exact Option.some.inj taken

/-- A client that went equally far in two companies leaves the same behind. -/
theorem exchanges_eq_of_follows
    (length : (r.exchanges x cs).length = (r.exchanges x ds).length) :
    r.exchanges x cs = r.exchanges x ds ∧ (r.after cs).only x = (r.after ds).only x := by
  have same := take_exchanges_eq wellFormed first second le_rfl length.le
  rw [List.take_length, length, List.take_length] at same
  have alone := executeAll_only wellFormed x cs
  rw [same, executeAll_only wellFormed x ds] at alone
  exact ⟨same, (congrArg Prod.snd alone).symm⟩

end Clients

/-! ## Experiments on their own -/

theorem Owns.execute (owns : r.Owns x h) (c : Command) : (r.execute c).2.Owns x h :=
  (owner_execute owns.holds c).trans owns

theorem Owns.after (owns : r.Owns x h) (cs : List Command) : (r.after cs).Owns x h := by
  induction cs generalizing r with
  | nil => exact owns
  | cons c cs ih => exact ih (owns.execute c)

/-- **Experiments that share a registry do not interfere.** Whatever the commands, those
that concern an experiment are answered as they are when they are executed alone, and
the entry and the histories of the experiment end the same; a registry that has made
no history yet is, for this, the registry itself. The handles of the experiment
correspond one to one, once and for all. So a client gets the same answers in every
company, also when it chooses its commands by the answers. -/
theorem experiments_do_not_interfere (wellFormed : r.WellFormed) (cs : List Command)
    (x : ExperimentId) :
    (r.only x).executeAll ((r.exchanges x cs).map Prod.fst) =
        ((r.exchanges x cs).map Prod.snd, (r.after cs).only x) ∧
      (r.histories = [] → r.only x = r) ∧
      ((r.after cs).only x).contains x = (r.after cs).contains x ∧
      ((r.after cs).only x).historyOf? x = (r.after cs).historyOf? x ∧
      (∀ i h, (r.after (cs.take i)).Owns x h →
        (r.after cs).numberIn x h = (r.after (cs.take i)).numberIn x h ∧
        ((r.after cs).only x).history ((r.after cs).numberIn x h) = (r.after cs).history h) ∧
      (∀ h k, (r.after cs).Owns x h → (r.after cs).Owns x k →
        (r.after cs).numberIn x h = (r.after cs).numberIn x k → h = k) ∧
      ∀ (ds : List Command) (client : List Reply → Option Command),
        Follows client (r.exchanges x cs) → Follows client (r.exchanges x ds) →
        (∀ (i : Nat) e f, (r.exchanges x cs)[i]? = some e →
          (r.exchanges x ds)[i]? = some f → e = f) ∧
        ((r.exchanges x cs).length = (r.exchanges x ds).length →
          r.exchanges x cs = r.exchanges x ds ∧ (r.after cs).only x = (r.after ds).only x) := by
  have alone := executeAll_only wellFormed x cs
  have sound := wellFormed_after wellFormed cs
  refine ⟨alone, fun unused => only_of_unused wellFormed unused x, ?_, historyOf?_only sound x,
    ?_, fun h k owns alsoOwns => numberIn_injective owns alsoOwns, ?_⟩
  · rw [contains, get?_only, Option.isSome_map]
    rfl
  · intro i h owns
    have whole : r.after cs = (r.after (cs.take i)).after (cs.drop i) := by
      rw [← after_append, List.take_append_drop]
    refine ⟨?_, ?_⟩
    · rw [whole]
      exact numberIn_after owns.holds _
    · apply history_only
      rw [whole]
      exact owns.after _
  · intro ds client first second
    refine ⟨?_, exchanges_eq_of_follows wellFormed first second⟩
    intro i e f there thereToo
    exact exchange_eq_of_follows wellFormed first second there thereToo

/-! ### A client in two companies -/

/-- A client that asks for given commands, whatever the answers. -/
def scripted (script : List Command) (answers : List Reply) : Option Command :=
  script[answers.length]?

theorem follows_scripted (asked : List (Command × Reply)) :
    Follows (scripted (asked.map Prod.fst)) asked := by
  intro i c reply there
  have before : ((asked.take i).map Prod.snd).length = i := by
    rw [List.length_map, List.length_take_of_le (List.getElem?_eq_some_iff.mp there).1.le]
  rw [scripted, before, List.getElem?_map, there]
  rfl

namespace Sample

/-- A history is polled, made again and written to through both handles, alone. -/
def quiet : List Command :=
  [.obtain .nil, .add ⟨0⟩ idle, .poll .nil, .obtain .nil, .add ⟨0⟩ idle, .view ⟨1⟩]

/-- The same, while another experiment does likewise. -/
def busy : List Command :=
  [.obtainWith (.ofNat 1) 1, .obtain .nil, .add ⟨0⟩ idle, .add ⟨1⟩ idle, .poll (.ofNat 1),
    .poll .nil, .obtain (.ofNat 1), .obtain .nil, .add ⟨1⟩ idle, .add ⟨2⟩ idle, .view ⟨3⟩]

end Sample

theorem busy_registry_answers_as_quiet_one :
    new.exchanges .nil Sample.busy = new.exchanges .nil Sample.quiet ∧
      (new.after Sample.busy).historyOf? .nil = (new.after Sample.quiet).historyOf? .nil := by
  obtain ⟨_, _, _, seen, _, _, together⟩ := experiments_do_not_interfere
    (wellFormed_withCapacity History.defaultCapacity) Sample.busy .nil
  obtain ⟨_, _, _, seenAlone, _⟩ := experiments_do_not_interfere
    (wellFormed_withCapacity History.defaultCapacity) Sample.quiet .nil
  have script : (new.exchanges .nil Sample.busy).map Prod.fst =
      (new.exchanges .nil Sample.quiet).map Prod.fst := by decide +kernel
  have follows := follows_scripted (new.exchanges .nil Sample.quiet)
  rw [← script] at follows
  have lengths := congrArg List.length script
  rw [List.length_map, List.length_map] at lengths
  obtain ⟨same, projections⟩ :=
    (together Sample.quiet _ (follows_scripted _) follows).2 lengths
  exact ⟨same, seen.symm.trans ((congrArg (historyOf? · .nil) projections).trans seenAlone)⟩

end Registry
end RankedSearch
