import Mathlib.Data.List.Nodup
import RankedSearch.Json.Decode

/-!
# Reading values and records back

A decoder reads a written value back if the value is not null and decodes to what was
written (`Decoder.Reads`). What is read of a record depends on its fields only: they may
come in any order, fields that are null may be left out, and fields of other names are
ignored (`Json.Rewrites`). So the fields of a record that was written in one way and is
read in another (`Decoder.Reread`) are those that were written.
-/

set_option autoImplicit false

namespace RankedSearch

/-! ## Other ways to write an object -/

/-- An entry is found by its name if no other entry has it. -/
theorem find?_named {α : Type} {entries : List (String × α)} {name : String} {a : α}
    (member : (name, a) ∈ entries) (only : ∀ entry ∈ entries, entry.1 = name → entry = (name, a)) :
    entries.find? (fun entry => entry.1 == name) = some (name, a) := by
  cases found : entries.find? fun entry => entry.1 == name with
  | none =>
      have other := List.find?_eq_none.mp found _ member
      exact absurd (beq_self_eq_true name) other
  | some entry =>
      have named : entry.1 = name := by simpa using List.find?_some found
      rw [only entry (List.mem_of_find?_eq_some found) named]

namespace Json

/-- Fields that say the same: every written field is among them, unless it is null, and
all others have names that are not written. -/
structure Rewrites (written entries : List (String × Json)) : Prop where
  distinct : (entries.map Prod.fst).Nodup
  kept : ∀ field ∈ written, field ∈ entries ∨ field.2 = .null
  known : ∀ field ∈ entries, field ∈ written ∨ field.1 ∉ written.map Prod.fst

/-- An object in another way of writing it. -/
inductive AlsoWritten : Json → Json → Prop where
  | object {written entries : List (String × Json)} (rewrites : Rewrites written entries) :
      AlsoWritten (.object written) (.object entries)

/-- The fields of an object. -/
def members : Json → List (String × Json)
  | .object fields => fields
  | _ => []

theorem AlsoWritten.members {j k : Json} (also : j.AlsoWritten k) :
    ∃ entries, k = .object entries ∧ Rewrites j.members entries := by
  cases also with
  | object rewrites => exact ⟨_, rfl, rewrites⟩

/-- An object is a way of writing itself. -/
theorem AlsoWritten.refl {fields : List (String × Json)}
    (distinct : (fields.map Prod.fst).Nodup) : AlsoWritten (.object fields) (.object fields) :=
  .object ⟨distinct, fun _ member => .inl member, fun _ member => .inl member⟩

section Rewrites

variable {written entries : List (String × Json)}

/-- Only a written field has its name. -/
theorem Rewrites.eq_of_name_eq (rewrites : Rewrites written entries)
    (distinct : (written.map Prod.fst).Nodup) {field entry : String × Json}
    (member : field ∈ written) (here : entry ∈ entries) (same : entry.1 = field.1) :
    entry = field := by
  rcases rewrites.known entry here with alsoWritten | unknown
  · exact List.inj_on_of_nodup_map distinct alsoWritten member same
  · rw [same] at unknown
    exact absurd (List.mem_map_of_mem member) unknown

/-- A field is found with its value, or it is null and not found. -/
theorem Rewrites.lookup? (rewrites : Rewrites written entries)
    (distinct : (written.map Prod.fst).Nodup) {name : String} {j : Json}
    (member : (name, j) ∈ written) :
    lookup? entries name = some j ∨ lookup? entries name = none ∧ j = .null := by
  rcases rewrites.kept _ member with here | null
  · refine .inl ?_
    rw [Json.lookup?, find?_named here fun entry => rewrites.eq_of_name_eq distinct member]
    rfl
  · rw [Json.lookup?]
    cases found : entries.find? fun field => field.1 == name with
    | none => exact .inr ⟨rfl, null⟩
    | some field =>
        have named : field.1 = name := by simpa using List.find?_some found
        have same := rewrites.eq_of_name_eq distinct member (List.mem_of_find?_eq_some found) named
        rw [same]
        exact .inl rfl

end Rewrites

theorem mem_insertByName {α : Type} {entry next : String × α} {entries : List (String × α)} :
    next ∈ insertByName entry entries ↔ next = entry ∨ next ∈ entries := by
  induction entries with
  | nil => simp [insertByName]
  | cons first rest ih =>
      rw [insertByName]
      split
      · rw [List.mem_cons, ih, List.mem_cons]
        exact or_left_comm
      · exact List.mem_cons

/-- Sorting keeps the entries. -/
theorem mem_sortByName {α : Type} {entry : String × α} {entries : List (String × α)} :
    entry ∈ sortByName entries ↔ entry ∈ entries := by
  induction entries with
  | nil => rfl
  | cons first rest ih =>
      rw [sortByName, List.foldr_cons, mem_insertByName, List.mem_cons]
      exact or_congr Iff.rfl ih

end Json

namespace Decoder

/-! ## Values -/

/-- A decoder reads a value, which is not null. -/
structure Reads {α : Type} (d : Decoder α) (j : Json) (a : α) : Prop where
  present : j ≠ .null
  read : d j = .ok a

/-- A natural number below a bound is read back. -/
theorem naturalBelow_ofNat {bound n : Nat} (inRange : n < bound) :
    naturalBelow bound (Json.ofNat n) = .ok n := by
  rw [Json.ofNat, naturalBelow, if_pos ⟨Int.natCast_nonneg n, Int.ofNat_lt.mpr inRange⟩,
    Int.toNat_natCast]

theorem reads_natural {n : Nat} (inRange : n < UInt64.size) :
    Reads natural (Json.ofNat n) n :=
  ⟨Json.noConfusion, naturalBelow_ofNat inRange⟩

theorem reads_word64 (w : UInt64) : Reads word64 (Json.ofNat w.toNat) w := by
  refine ⟨Json.noConfusion, ?_⟩
  rw [word64, natural, naturalBelow_ofNat w.toNat_lt]
  exact congrArg Except.ok UInt64.ofNat_toNat

theorem reads_word32 (w : UInt32) : Reads word32 (Json.ofNat w.toNat) w := by
  refine ⟨Json.noConfusion, ?_⟩
  rw [word32, naturalBelow_ofNat w.toNat_lt]
  exact congrArg Except.ok UInt32.ofNat_toNat

theorem reads_bool (b : Bool) : Reads bool (.bool b) b :=
  ⟨Json.noConfusion, rfl⟩

theorem reads_text (s : String) : Reads text (.text s) s :=
  ⟨Json.noConfusion, rfl⟩

/-- A finite word is a number, and read back. -/
theorem reads_number {x : Binary64} (finite : x.isFinite = true) :
    Reads number (Json.ofWord x) x := by
  rw [Json.ofWord, if_pos finite]
  exact ⟨Json.noConfusion, rfl⟩

/-- A text that a partial function turns back into what it was written for is read back. -/
theorem reads_accepted {β : Type} {f : String → Option β} {s : String} {b : β}
    (accepts : f s = some b) : Reads (accepted text f) (.text s) b := by
  refine ⟨Json.noConfusion, ?_⟩
  simp only [accepted, text, accepts]

/-- If the names are different, a variant without contents is read back from its name. -/
theorem reads_choice {α : Type} {variants : List (String × α)}
    (distinct : (variants.map Prod.fst).Nodup) {name : String} {a : α}
    (member : (name, a) ∈ variants) : Reads (choice variants) (.text name) a := by
  have found := find?_named member fun v here named =>
    List.inj_on_of_nodup_map distinct here member named
  refine ⟨Json.noConfusion, ?_⟩
  simp only [choice, variant, found, bare]

/-- If the names are different, a name alone stands for the variant that has it. -/
theorem choice_text_eq_ok_iff {α : Type} {variants : List (String × α)}
    (distinct : (variants.map Prod.fst).Nodup) {name : String} {a : α} :
    choice variants (.text name) = .ok a ↔ (name, a) ∈ variants := by
  constructor
  · intro chosen
    cases found : variants.find? fun v => v.1 == name with
    | none =>
        simp only [choice, variant, found] at chosen
        cases chosen
    | some v =>
        simp only [choice, variant, found, bare, Except.ok.injEq] at chosen
        have named : v.1 = name := by simpa using List.find?_some found
        rw [← chosen, ← named]
        exact List.mem_of_find?_eq_some found
  · exact fun member => (reads_choice distinct member).read

/-- A name that no variant has is complained of with all names that there are. -/
theorem choice_text_of_unknown {α : Type} {variants : List (String × α)} {name : String}
    (unknown : name ∉ variants.map Prod.fst) :
    choice variants (.text name) = .error (.unknownVariant name (variants.map Prod.fst)) := by
  have found : variants.find? (fun v => v.1 == name) = none := by
    rw [List.find?_eq_none]
    intro v member same
    exact unknown (List.mem_map.mpr ⟨v, member, eq_of_beq same⟩)
  simp only [choice, variant, found]

/-- What may be missing is read back if it is when it is there. -/
theorem nullable_ofOption {α : Type} {d : Decoder α} {f : α → Json} {o : Option α}
    (reads : ∀ a, o = some a → Reads d (f a) a) : nullable d (Json.ofOption f o) = .ok o := by
  cases o with
  | none => rfl
  | some a =>
      obtain ⟨present, read⟩ := reads a rfl
      have decoded : nullable d (f a) = (d (f a)).map some := by
        rw [nullable]
        exact present
      rw [Json.ofOption, decoded, read]
      rfl

/-! ## Records -/

/-- A decoder goes on with what it has read. -/
theorem bind_eq_ok {α β : Type} {x : Except DecodeError α} {f : α → Except DecodeError β} {a : α}
    {b : β} (first : x = .ok a) (rest : f a = .ok b) : (x >>= f) = .ok b := by
  rw [first]
  exact rest

theorem checkEach_eq_ok {α : Type} {check : α → Except DecodeError Unit} {as : List α}
    (all : ∀ a ∈ as, check a = .ok ()) : checkEach check as = .ok () := by
  induction as with
  | nil => rfl
  | cons a rest ih =>
      rw [checkEach, all a List.mem_cons_self]
      exact ih fun b member => all b (List.mem_cons_of_mem a member)

/-- A written record is read if all that is there fits. -/
theorem fields_eq_ok {closed : Bool} {record : List Field} {entries : List (String × Json)}
    (fit : ∀ entry ∈ entries, checkNamed closed record entry = .ok ()) :
    fields closed record (.object entries) = .ok entries := by
  have checked : checkEach (checkNamed closed record) (Json.sortByName entries) = .ok () :=
    checkEach_eq_ok fun entry member => fit entry (Json.mem_sortByName.mp member)
  simp only [fields, checked]

/-- A named value is one of a field and fits it. -/
structure Fits (f : Field) (entry : String × Json) : Prop where
  name : f.name = entry.1
  check : f.check entry.2 = .ok ()

theorem fits_field {α : Type} {d : Decoder α} {j : Json} {a : α} (read : d j = .ok a)
    (name : String) : Fits (field name d) (name, j) := by
  refine ⟨rfl, ?_⟩
  show (d j).map _ = _
  rw [read]
  rfl

theorem Reads.fits {α : Type} {d : Decoder α} {j : Json} {a : α} (reads : Reads d j a)
    (name : String) : Fits (field name d) (name, j) :=
  fits_field reads.read name

/-- A record was written in one way and is read in another. -/
structure Reread (record : List Field) (written entries : List (String × Json)) : Prop where
  fits : List.Forall₂ Fits record written
  distinct : (record.map Field.name).Nodup
  rewrites : Json.Rewrites written entries

namespace Reread

variable {record : List Field} {written entries : List (String × Json)}

theorem names_eq (fits : List.Forall₂ Fits record written) :
    record.map Field.name = written.map Prod.fst := by
  induction fits with
  | nil => rfl
  | cons first _ ih => rw [List.map_cons, List.map_cons, first.name, ih]

theorem exists_fitting (fits : List.Forall₂ Fits record written) {f : Field} (member : f ∈ record) :
    ∃ entry ∈ written, Fits f entry := by
  induction fits with
  | nil => nomatch member
  | cons first _ ih =>
      rcases List.mem_cons.mp member with rfl | later
      · exact ⟨_, List.mem_cons_self, first⟩
      · obtain ⟨entry, here, fit⟩ := ih later
        exact ⟨entry, List.mem_cons_of_mem _ here, fit⟩

theorem distinct_written (reread : Reread record written entries) :
    (written.map Prod.fst).Nodup := by
  rw [← names_eq reread.fits]
  exact reread.distinct

/-- Whatever is there fits the record. -/
theorem checkNamed_eq_ok (reread : Reread record written entries) {entry : String × Json}
    (member : entry ∈ entries) : checkNamed false record entry = .ok () := by
  rw [checkNamed]
  cases found : record.find? fun f => f.name == entry.1 with
  | none => rfl
  | some f =>
      have named : f.name = entry.1 := by simpa using List.find?_some found
      obtain ⟨field, here, fit⟩ := exists_fitting reread.fits (List.mem_of_find?_eq_some found)
      have same : entry = field := reread.rewrites.eq_of_name_eq reread.distinct_written here member
        (named.symm.trans fit.name)
      rw [same]
      exact fit.check

theorem fields_eq_ok (reread : Reread record written entries) :
    fields false record (.object entries) = .ok entries :=
  Decoder.fields_eq_ok fun _ => reread.checkNamed_eq_ok

/-- A field that must be there is read back. -/
theorem required_eq_ok {α : Type} {d : Decoder α} {name : String} {j : Json} {a : α}
    (reread : Reread record written entries) (reads : Reads d j a) (i : Nat)
    (place : written[i]? = some (name, j)) : required entries name d = .ok a := by
  have member : (name, j) ∈ written := List.mem_of_getElem? place
  rcases reread.rewrites.lookup? reread.distinct_written member with found | ⟨_, null⟩
  · simp only [required, found, reads.read]
  · exact absurd null reads.present

/-- A field that may be null is read back, also from a record without it. -/
theorem optional_eq_ok {α : Type} {d : Decoder α} {name : String} {j : Json} {o : Option α}
    (reread : Reread record written entries) (read : nullable d j = .ok o) (i : Nat)
    (place : written[i]? = some (name, j)) : optional entries name d = .ok o := by
  have member : (name, j) ∈ written := List.mem_of_getElem? place
  rcases reread.rewrites.lookup? reread.distinct_written member with found | ⟨missing, null⟩
  · simp only [optional, found, read]
  · rw [null] at read
    simp only [optional, missing]
    exact read

end Reread

end Decoder
end RankedSearch
