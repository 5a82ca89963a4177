import Mathlib.Data.List.Sort
import Mathlib.Data.Prod.Lex
import RankedSearch.History
import RankedSearch.Proofs.ScoreOrder

/-!
# Rankings

Outcomes that arrive one after the other make entries, numbered by arrival
(`arrived`). Their ranking is the stable sort of the entries by score
(`ranking`), so it ascends strictly by score and then by arrival (`Ranked`), and
there is only one such arrangement of given entries (`Ranked.eq_of_perm`).

A new arrival goes behind every entry that scores no worse (`insertBehind`).
That keeps a ranking up to date (`ranking_concat`), and the front of a ranking
is all that has to be known of it (`take_insertBehind_take`).
-/

set_option autoImplicit false

namespace RankedSearch

/-! ## Rank -/

/-- Entries rank by score, and by arrival where scores tie. -/
def Entry.rank (e : Entry) : Score ×ₗ Nat := toLex (e.score, e.arrival)

theorem Entry.rank_lt {a b : Entry} :
    a.rank < b.rank ↔ a.score < b.score ∨ a.score = b.score ∧ a.arrival < b.arrival :=
  Prod.Lex.toLex_lt_toLex

theorem Entry.rank_le {a b : Entry} :
    a.rank ≤ b.rank ↔
      a.score.le b.score = true ∧ (b.score = a.score → a.arrival ≤ b.arrival) := by
  rw [Score.le_eq_true]
  constructor
  · intro le
    rcases Prod.Lex.toLex_le_toLex.mp le with lower | ⟨tie, earlier⟩
    · exact ⟨lower.le, fun tie => absurd tie lower.ne'⟩
    · exact ⟨tie.le, fun _ => earlier⟩
  · rintro ⟨le, earlier⟩
    rcases le.lt_or_eq with lower | tie
    · exact Prod.Lex.toLex_le_toLex.mpr (.inl lower)
    · exact Prod.Lex.toLex_le_toLex.mpr (.inr ⟨tie, earlier tie.symm⟩)

/-- Entries in strictly ascending rank. -/
def Ranked (es : List Entry) : Prop := es.Pairwise fun a b => a.rank < b.rank

theorem Ranked.eq_of_perm {es fs : List Entry} (first : Ranked es) (second : Ranked fs)
    (same : es.Perm fs) : es = fs :=
  same.eq_of_pairwise (fun _ _ _ _ lt gt => absurd gt (lt_asymm lt)) first second

theorem Ranked.sorted {es : List Entry} (ranked : Ranked es) :
    es.Pairwise fun a b => a.score ≤ b.score := by
  refine ranked.imp ?_
  intro a b before
  rcases Entry.rank_lt.mp before with lower | ⟨tie, _⟩
  · exact lower.le
  · exact tie.le

/-- The first of ranked entries has the least rank. -/
theorem Ranked.head?_eq_some_iff {es : List Entry} (ranked : Ranked es) {e : Entry} :
    es.head? = some e ↔ e ∈ es ∧ ∀ f ∈ es, e.rank ≤ f.rank := by
  cases es with
  | nil => simp
  | cons x es =>
      obtain ⟨least, _⟩ := List.pairwise_cons.mp ranked
      simp only [List.head?_cons, Option.some.injEq]
      constructor
      · rintro rfl
        refine ⟨List.mem_cons_self, fun f member => ?_⟩
        rcases List.mem_cons.mp member with rfl | inTail
        · exact le_refl _
        · exact (least f inTail).le
      · rintro ⟨member, minimal⟩
        rcases List.mem_cons.mp member with rfl | inTail
        · rfl
        · exact absurd (minimal x List.mem_cons_self) (least e inTail).not_ge

/-- Of ranked entries, one that ranks before a member of some front stands before
it in that front. -/
theorem Ranked.pair_sublist_take {es : List Entry} (ranked : Ranked es) {n : Nat} {a b : Entry}
    (member : a ∈ es) (inFront : b ∈ es.take n) (before : a.rank < b.rank) :
    [a, b].Sublist (es.take n) := by
  have split : Ranked (es.take n ++ es.drop n) := (List.take_append_drop n es).symm ▸ ranked
  obtain ⟨frontRanked, _, across⟩ := List.pairwise_append.mp split
  have alsoInFront : a ∈ es.take n := by
    rw [← List.take_append_drop n es] at member
    rcases List.mem_append.mp member with first | last
    · exact first
    · exact absurd (across b inFront a last) before.not_gt
  have pair : Ranked [a, b] := List.pairwise_pair.mpr before
  have distinct : [a, b].Nodup := pair.imp fun lt same => (same ▸ lt).false
  have inside : [a, b] ⊆ es.take n := by
    intro x member
    rcases List.mem_pair.mp member with rfl | rfl
    · exact alsoInFront
    · exact inFront
  have antisymmetric : Std.Antisymm fun a b : Entry => a.rank < b.rank :=
    ⟨fun _ _ lt gt => absurd gt lt.not_gt⟩
  exact List.sublist_of_subperm_of_pairwise (List.subperm_of_subset distinct inside) pair
    frontRanked

/-! ## The stable sort -/

/-- The stable sort by ascending score. -/
def ranking (es : List Entry) : List Entry := es.mergeSort fun a b => a.score.le b.score

/-- Entries in the order of their arrival. -/
def InArrivalOrder (es : List Entry) : Prop := es.Pairwise fun a b => a.arrival < b.arrival

/-- Entries that are in the order of their arrival wherever scores tie. -/
def TiesInOrder (es : List Entry) : Prop :=
  es.Pairwise fun a b => a.score = b.score → a.arrival < b.arrival

theorem InArrivalOrder.ties {es : List Entry} (ordered : InArrivalOrder es) : TiesInOrder es := by
  refine ordered.imp ?_
  intro a b earlier _
  exact earlier

theorem ranking_perm (es : List Entry) : (ranking es).Perm es := List.mergeSort_perm es _

theorem score_le_trans (a b c : Entry) (first : a.score.le b.score = true)
    (second : b.score.le c.score = true) : a.score.le c.score = true := by
  rw [Score.le_eq_true] at first second ⊢
  exact first.trans second

theorem score_le_total (a b : Entry) : (a.score.le b.score || b.score.le a.score) = true := by
  simpa using le_total a.score b.score

theorem ranking_sorted (es : List Entry) :
    (ranking es).Pairwise fun a b => a.score ≤ b.score :=
  (List.pairwise_mergeSort score_le_trans score_le_total es).imp Score.le_eq_true.mp

/-- Stability: entries of which tied ones are in order come out in strictly ascending rank. -/
theorem TiesInOrder.ranked_ranking {es : List Entry} (ties : TiesInOrder es) :
    Ranked (ranking es) := by
  induction es with
  | nil => simp [Ranked, ranking]
  | cons e es ih =>
      obtain ⟨first, later⟩ := List.pairwise_cons.mp ties
      obtain ⟨front, back, whole, rest, better⟩ :=
        List.mergeSort_cons score_le_trans score_le_total e es
      have tailRanked : Ranked (front ++ back) := rest ▸ ih later
      have members : ∀ f ∈ front ++ back, f ∈ es := fun f member =>
        List.mem_mergeSort.mp (rest ▸ member)
      have sorted : (front ++ e :: back).Pairwise fun a b => a.score ≤ b.score :=
        whole ▸ ranking_sorted (e :: es)
      obtain ⟨frontRanked, backRanked, across⟩ := List.pairwise_append.mp tailRanked
      obtain ⟨_, fromHead, _⟩ := List.pairwise_append.mp sorted
      rw [ranking, whole]
      refine List.pairwise_append.mpr ⟨frontRanked, List.pairwise_cons.mpr ⟨?_, backRanked⟩, ?_⟩
      · intro f inBack
        have inTail := members f (List.mem_append_right _ inBack)
        rcases ((List.pairwise_cons.mp fromHead).1 f inBack).lt_or_eq with lower | tie
        · exact Entry.rank_lt.mpr (.inl lower)
        · exact Entry.rank_lt.mpr (.inr ⟨tie, first f inTail tie⟩)
      · intro f inFront g member
        rcases List.mem_cons.mp member with rfl | inBack
        · have strictly : f.score < g.score := by simpa using better f inFront
          exact Entry.rank_lt.mpr (.inl strictly)
        · exact across f inFront g inBack

theorem Ranked.ties {es : List Entry} (ranked : Ranked es) : TiesInOrder es := by
  refine ranked.imp ?_
  intro a b before tie
  exact (Entry.rank_lt.mp before).elim (fun lower => absurd tie lower.ne) And.right

theorem ranked_ranking {es : List Entry} (ordered : InArrivalOrder es) : Ranked (ranking es) :=
  ordered.ties.ranked_ranking

/-- What is sorted already stays as it is. -/
theorem ranking_eq_self {es : List Entry} (sorted : es.Pairwise fun a b => a.score ≤ b.score) :
    ranking es = es :=
  List.mergeSort_of_pairwise (sorted.imp Score.le_eq_true.mpr)

/-! ## A new arrival -/

/-- Puts an entry in front of the first one of a higher score. -/
def insertBehind (e : Entry) (es : List Entry) : List Entry :=
  es.orderedInsert (fun a b => a.score < b.score) e

theorem insertBehind_perm (e : Entry) (es : List Entry) : (insertBehind e es).Perm (e :: es) :=
  List.perm_orderedInsert _ e es

theorem length_insertBehind (e : Entry) (es : List Entry) :
    (insertBehind e es).length = es.length + 1 := List.orderedInsert_length _ es e

theorem insertBehind_cons_of_lt {e x : Entry} (es : List Entry) (lower : e.score < x.score) :
    insertBehind e (x :: es) = e :: x :: es := if_pos lower

theorem insertBehind_cons_of_le {e x : Entry} (es : List Entry) (higher : x.score ≤ e.score) :
    insertBehind e (x :: es) = x :: insertBehind e es := if_neg higher.not_gt

theorem ranked_insertBehind {e : Entry} {es : List Entry} (ranked : Ranked es)
    (newest : ∀ f ∈ es, f.arrival < e.arrival) : Ranked (insertBehind e es) := by
  induction es with
  | nil => exact List.pairwise_singleton _ e
  | cons x es ih =>
      obtain ⟨least, tailRanked⟩ := List.pairwise_cons.mp ranked
      rcases lt_or_ge e.score x.score with lower | higher
      · rw [insertBehind_cons_of_lt es lower]
        refine List.pairwise_cons.mpr ⟨fun f member => ?_, ranked⟩
        have ahead : e.rank < x.rank := Entry.rank_lt.mpr (.inl lower)
        rcases List.mem_cons.mp member with rfl | inTail
        · exact ahead
        · exact ahead.trans (least f inTail)
      · rw [insertBehind_cons_of_le es higher]
        refine List.pairwise_cons.mpr ⟨fun f member => ?_,
          ih tailRanked fun f inTail => newest f (List.mem_cons_of_mem x inTail)⟩
        rcases List.mem_cons.mp ((insertBehind_perm e es).mem_iff.mp member) with rfl | inTail
        · rcases higher.lt_or_eq with strictly | tie
          · exact Entry.rank_lt.mpr (.inl strictly)
          · exact Entry.rank_lt.mpr (.inr ⟨tie, newest x List.mem_cons_self⟩)
        · exact least f inTail

/-- The ranking with one more arrival. -/
theorem TiesInOrder.ranking_concat {e : Entry} {es : List Entry} (ties : TiesInOrder es)
    (newest : ∀ f ∈ es, f.arrival < e.arrival) :
    ranking (es ++ [e]) = insertBehind e (ranking es) := by
  have together : TiesInOrder (es ++ [e]) := by
    refine List.pairwise_append.mpr ⟨ties, List.pairwise_singleton _ e, ?_⟩
    intro f member g last _
    rw [List.mem_singleton.mp last]
    exact newest f member
  refine together.ranked_ranking.eq_of_perm
    (ranked_insertBehind ties.ranked_ranking fun f member =>
      newest f ((ranking_perm es).mem_iff.mp member)) ?_
  calc
    (ranking (es ++ [e])).Perm (es ++ [e]) := ranking_perm _
    _ |>.Perm (e :: es) := List.perm_append_singleton e es
    _ |>.Perm (e :: ranking es) := (ranking_perm es).symm.cons e
    _ |>.Perm (insertBehind e (ranking es)) := (insertBehind_perm e _).symm

theorem ranking_concat {e : Entry} {es : List Entry} (ordered : InArrivalOrder (es ++ [e])) :
    ranking (es ++ [e]) = insertBehind e (ranking es) := by
  obtain ⟨earlier, _, newest⟩ := List.pairwise_append.mp ordered
  exact (InArrivalOrder.ties earlier).ranking_concat fun f member => newest f member e (List.mem_singleton_self e)

/-- What is cut off behind the first `n` entries never comes back. -/
theorem take_insertBehind_take (e : Entry) (es : List Entry) (n : Nat) :
    (insertBehind e (es.take n)).take n = (insertBehind e es).take n := by
  induction es generalizing n with
  | nil => simp
  | cons x es ih =>
      cases n with
      | zero => simp
      | succ n =>
          rw [List.take_succ_cons]
          rcases lt_or_ge e.score x.score with lower | higher
          · rw [insertBehind_cons_of_lt _ lower, insertBehind_cons_of_lt _ lower]
            cases n with
            | zero => rfl
            | succ n => simp [List.take_take]
          · rw [insertBehind_cons_of_le _ higher, insertBehind_cons_of_le _ higher,
              List.take_succ_cons, List.take_succ_cons, ih n]

/-! ## Arrivals -/

/-- The entries that outcomes make when they arrive in the order of a list:
those of the complete ones, numbered from zero. -/
def arrived (os : List Outcome) : List Entry :=
  (os.filterMap fun o => o.score.map fun s => (s, o)).zipIdx.map fun ((s, o), i) => ⟨s, i, o⟩

@[simp] theorem length_arrived (os : List Outcome) :
    (arrived os).length = os.countP Outcome.isComplete := by
  simp only [arrived, List.length_map, List.length_zipIdx, List.length_filterMap_eq_countP,
    Option.isSome_map]
  rfl

theorem arrived_concat_incomplete {os : List Outcome} {o : Outcome} (incomplete : o.score = none) :
    arrived (os ++ [o]) = arrived os := by
  simp [arrived, incomplete]

theorem arrived_concat_complete {os : List Outcome} {o : Outcome} {s : Score}
    (complete : o.score = some s) :
    arrived (os ++ [o]) = arrived os ++ [⟨s, (arrived os).length, o⟩] := by
  simp [arrived, complete, List.zipIdx_append]

/-- Arrivals are numbered without a gap. -/
theorem map_arrival_arrived (os : List Outcome) :
    (arrived os).map Entry.arrival = List.range (arrived os).length := by
  rw [arrived, List.map_map, List.length_map, List.length_zipIdx, List.range_eq_range']
  exact List.zipIdx_map_snd 0 _

theorem arrived_inArrivalOrder (os : List Outcome) : InArrivalOrder (arrived os) := by
  have numbers := List.pairwise_lt_range (n := (arrived os).length)
  rw [← map_arrival_arrived] at numbers
  exact List.pairwise_map.mp numbers

/-- The entries that outcomes make when they arrive after `n` complete ones. -/
def arrivedFrom (n : Nat) (os : List Outcome) : List Entry :=
  ((os.filterMap fun o => o.score.map fun s => (s, o)).zipIdx n).map fun ((s, o), i) => ⟨s, i, o⟩

theorem arrived_append (os ps : List Outcome) :
    arrived (os ++ ps) = arrived os ++ arrivedFrom (arrived os).length ps := by
  simp [arrived, arrivedFrom, List.zipIdx_append]

theorem arrived_cons_complete {os : List Outcome} {o : Outcome} {s : Score}
    (complete : o.score = some s) : ∃ later, arrived (o :: os) = ⟨s, 0, o⟩ :: later := by
  simp [arrived, complete, List.zipIdx_cons]

/-- The first outcome to arrive, if it is complete, ranks before every other one
that has its score. -/
theorem first_arrival_wins_ties {os : List Outcome} {o : Outcome} {s : Score}
    (complete : o.score = some s) {n : Nat} {e : Entry}
    (member : e ∈ (ranking (arrived (o :: os))).take n) (tie : e.score = s) :
    e = ⟨s, 0, o⟩ ∨ [⟨s, 0, o⟩, e].Sublist ((ranking (arrived (o :: os))).take n) := by
  have perm := ranking_perm (arrived (o :: os))
  have ordered := arrived_inArrivalOrder (o :: os)
  have ranked := ranked_ranking ordered
  obtain ⟨later, whole⟩ : ∃ later, arrived (o :: os) = ⟨s, 0, o⟩ :: later :=
    arrived_cons_complete complete
  have firstIn : ⟨s, 0, o⟩ ∈ arrived (o :: os) := whole ▸ List.mem_cons_self
  have arrivedToo : e ∈ arrived (o :: os) := perm.mem_iff.mp (List.mem_of_mem_take member)
  rw [whole] at ordered arrivedToo
  rcases List.mem_cons.mp arrivedToo with same | inLater
  · exact .inl same
  · have arrivesLater : 0 < e.arrival := (List.pairwise_cons.mp ordered).1 e inLater
    exact .inr (ranked.pair_sublist_take (perm.mem_iff.mpr firstIn) member
      (Entry.rank_lt.mpr (.inr ⟨tie.symm, arrivesLater⟩)))

end RankedSearch
