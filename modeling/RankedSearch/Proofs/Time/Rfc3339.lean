import RankedSearch.Proofs.Time.Calendar
import RankedSearch.Proofs.Time.Numerals

/-!
# Timestamps in writing and back

A written timestamp has its numbers in fixed widths with one mark behind each, so it
is read number by number and mark by mark. The digits of a fraction of a second are
as few groups of three as are exact, and a reader fills them up again
(`Timestamp.readFraction?_fractionText`). The date and the time of day that are read
are those of the moment, which is their only moment (`Timestamp.ofParts?_parts`).
Any timestamp of a year of four digits that is not in a leap second is therefore read
back from its text (`Timestamp.ofText?_text`).
-/

set_option autoImplicit false

namespace RankedSearch

namespace Date

/-- The days and months of the calendar have two digits. -/
theorem two_digits_of_isValid {d : Date} (valid : d.isValid = true) :
    d.month < 10 ^ 2 ∧ d.day < 10 ^ 2 := by
  rw [isValid, Bool.and_eq_true, decide_eq_true_eq, decide_eq_true_eq, daysInMonth] at valid
  obtain ⟨positive, inMonth⟩ := valid
  split at inMonth
  · split at inMonth <;> omega
  · split at inMonth
    · omega
    · split at inMonth <;> omega

end Date

namespace Timestamp

variable {t : Timestamp} {rest : List Char}

/-- A timestamp of a year of four digits that is not in a leap second. -/
structure Plain (t : Timestamp) : Prop where
  year : 0 ≤ t.date.year ∧ t.date.year ≤ 9999
  nanos : t.nanos < nanosPerSecond

/-! ## The parts of a text -/

theorem readYear?_padded {n : Nat} (fits : n < 10 ^ 4) (rest : List Char) :
    readYear? ((padded 4 n).toList ++ rest) = some ((n : Int), rest) := by
  have nonempty := padded_ne_nil (by decide) fits
  have read := readDigits?_padded (by decide) fits rest
  have value := digitsValue_padded 4 n
  have skipped := dropBlanks_digits (fun _ => isDigit_of_mem_padded) nonempty rest
  have digit (c : Char) (member : c ∈ (padded 4 n).toList) : c.isDigit = true :=
    isDigit_of_mem_padded member
  generalize (padded 4 n).toList = digits at *
  cases digits with
  | nil => exact absurd rfl nonempty
  | cons d ds =>
      have first := digit d List.mem_cons_self
      rw [readYear?, skipped, List.cons_append]
      rw [List.cons_append] at read
      split
      · rename_i same
        cases same
        cases first
      · rename_i same
        cases same
        cases first
      · rw [read, Option.map_some]
        simp only [value]

/-- A year of four digits is read back. -/
theorem readYear?_yearText {year : Int} (inRange : 0 ≤ year ∧ year ≤ 9999) (rest : List Char) :
    readYear? ((yearText year).toList ++ rest) = some (year, rest) := by
  have fits : year.toNat < 10 ^ 4 := by omega
  rw [yearText, if_pos inRange, readYear?_padded fits, Int.toNat_of_nonneg inRange.1]

/-- A fraction of a second with given digits. -/
theorem readFraction?_padded {width n : Nat} (positive : 0 < width) (short : width ≤ 9)
    (fits : n < 10 ^ width) (rest : List Char) :
    readFraction? ('.' :: (padded width n).toList ++ 'Z' :: rest) =
      some (n * 10 ^ (9 - width), 'Z' :: rest) := by
  have length := length_padded positive fits
  have read : readDigits? 9 ((padded width n).toList ++ 'Z' :: rest) =
      some ((padded width n).toList, 'Z' :: rest) := by
    refine readDigits?_append (fun _ => isDigit_of_mem_padded) (padded_ne_nil positive fits)
      ((Nat.le_of_eq length).trans short) ?_
    cases remaining : 9 - (padded width n).toList.length with
    | zero => rfl
    | succ k => rfl
  have stops : ('Z' :: rest).dropWhile Char.isDigit = 'Z' :: rest := rfl
  have power : Nat.pow 10 (9 - width) = 10 ^ (9 - width) := rfl
  simp only [List.cons_append, readFraction?, read, Option.bind_eq_bind, Option.bind_some,
    digitsValue_padded, length, stops, power, Option.pure_def]

/-- A fraction of a second is read back if it is written with enough digits. -/
theorem readFraction?_exact {width nanos : Nat} (positive : 0 < width) (short : width ≤ 9)
    (fraction : nanos < nanosPerSecond) (exact : nanos % 10 ^ (9 - width) = 0)
    (rest : List Char) :
    readFraction? (("." ++ padded width (nanos / 10 ^ (9 - width))).toList ++ 'Z' :: rest) =
      some (nanos, 'Z' :: rest) := by
  have fits : nanos / 10 ^ (9 - width) < 10 ^ width := by
    rw [Nat.div_lt_iff_lt_mul (Nat.pow_pos (by decide)), ← Nat.pow_add, Nat.add_sub_cancel' short]
    exact fraction
  rw [String.toList_append]
  refine (readFraction?_padded positive short fits rest).trans ?_
  rw [Nat.div_mul_cancel (Nat.dvd_of_mod_eq_zero exact)]

/-- As few groups of three digits as are exact are enough for a fraction. -/
theorem readFraction?_fractionText {nanos : Nat} (fraction : nanos < nanosPerSecond)
    (rest : List Char) :
    readFraction? ((fractionText nanos).toList ++ 'Z' :: rest) = some (nanos, 'Z' :: rest) := by
  rw [fractionText]
  split
  · rename_i zero
    rw [zero]
    rfl
  · split
    · rename_i groups
      exact readFraction?_exact (by decide : 0 < 3) (by decide) fraction groups rest
    · split
      · rename_i groups
        exact readFraction?_exact (by decide : 0 < 6) (by decide) fraction groups rest
      · have whole := readFraction?_exact (by decide : 0 < 9) (by decide) fraction
          (Nat.mod_one nanos) rest
        rwa [Nat.sub_self, Nat.pow_zero, Nat.div_one] at whole

/-! ## The moment of a date and a time of day -/

theorem secondOfDay_bounds (t : Timestamp) : 0 ≤ t.secondOfDay ∧ t.secondOfDay < 86400 := by
  rw [secondOfDay, secondsPerDay]
  omega

/-- A moment is that of its date and its time of day. -/
theorem ofParts?_parts (plain : t.Plain) :
    ofParts? t.date (t.secondOfDay.toNat / 3600) (t.secondOfDay.toNat / 60 % 60)
      (t.secondOfDay.toNat % 60) t.nanos 0 = some t := by
  obtain ⟨positive, short⟩ := t.secondOfDay_bounds
  have number : t.date.toDayNumber = t.seconds / secondsPerDay := Date.toDayNumber_ofDayNumber _
  have valid : t.date.isValid = true := Date.isValid_ofDayNumber _
  obtain ⟨first, last⟩ := plain.year
  have noLeap : ¬ t.secondOfDay.toNat % 60 = 60 := by omega
  have timeOfDay : t.secondOfDay.toNat / 3600 * 3600 + t.secondOfDay.toNat / 60 % 60 * 60 +
      t.secondOfDay.toNat % 60 = t.secondOfDay.toNat := by
    omega
  have seconds : t.seconds / secondsPerDay * secondsPerDay + t.secondOfDay = t.seconds :=
    Int.ediv_mul_add_emod t.seconds secondsPerDay
  have moment : (⟨t.date.toDayNumber * secondsPerDay + t.secondOfDay.toNat - 0, t.nanos⟩ :
      Timestamp) = t := by
    rw [number, Int.toNat_of_nonneg positive, Int.sub_zero, seconds]
  have representable : yearIsRepresentable t.date.year = true := by
    rw [yearIsRepresentable, Bool.and_eq_true, decide_eq_true_eq, decide_eq_true_eq]
    omega
  have hours : t.secondOfDay.toNat / 3600 ≤ 23 := by omega
  have minutes : t.secondOfDay.toNat / 60 % 60 ≤ 59 := by omega
  have wholeSeconds : t.secondOfDay.toNat % 60 ≤ 60 := by omega
  simp only [ofParts?, if_neg noLeap, Nat.sub_zero, timeOfDay, Nat.zero_mul, Nat.add_zero, moment,
    valid, representable, hours, minutes, wholeSeconds]
  rfl

/-! ## The whole text -/

theorem toList_text (plain : t.Plain) :
    t.text.toList =
      (yearText t.date.year).toList ++ '-' :: ((padded 2 t.date.month).toList ++
        '-' :: ((padded 2 t.date.day).toList ++
          'T' :: ((padded 2 (t.secondOfDay.toNat / 3600)).toList ++
            ':' :: ((padded 2 (t.secondOfDay.toNat / 60 % 60)).toList ++
              ':' :: ((padded 2 (t.secondOfDay.toNat % 60)).toList ++
                ((fractionText t.nanos).toList ++ ['Z'])))))) := by
  have noLeap : t.isLeapSecond = false :=
    decide_eq_false (Nat.not_le_of_lt plain.nanos)
  have hyphen : "-".toList = ['-'] := rfl
  have separator : "T".toList = ['T'] := rfl
  have colon : ":".toList = [':'] := rfl
  have zone : "Z".toList = ['Z'] := rfl
  simp only [text, noLeap, Bool.false_eq_true, if_false, Nat.zero_mul, Nat.sub_zero,
    Nat.add_zero, String.toList_append, List.append_assoc, hyphen, separator, colon, zone,
    List.cons_append, List.nil_append]

/-- **A plain timestamp is read back from its text.** -/
theorem ofText?_text (plain : t.Plain) : ofText? t.text = some t := by
  obtain ⟨positive, short⟩ := t.secondOfDay_bounds
  have valid : t.date.isValid = true := Date.isValid_ofDayNumber _
  obtain ⟨month, day⟩ := Date.two_digits_of_isValid valid
  have hyphen : isBlank '-' = false := rfl
  have colon : isBlank ':' = false := rfl
  have zone : readZone? ['Z'] = some (0, []) := rfl
  have finished : (dropBlanks []).isEmpty = true := rfl
  have hours : t.secondOfDay.toNat / 3600 < 10 ^ 2 := by omega
  have minutes : t.secondOfDay.toNat / 60 % 60 < 10 ^ 2 := by omega
  have seconds : t.secondOfDay.toNat % 60 < 10 ^ 2 := by omega
  have two : 0 < 2 := Nat.two_pos
  rw [ofText?, toList_text plain]
  -- Each reader stops where the next one starts.
  refine Option.bind_eq_some_iff.mpr ⟨_, readYear?_yearText plain.year _, ?_⟩
  refine Option.bind_eq_some_iff.mpr ⟨_, readMark?_cons hyphen _, ?_⟩
  refine Option.bind_eq_some_iff.mpr ⟨_, readNumber?_padded two month _, ?_⟩
  refine Option.bind_eq_some_iff.mpr ⟨_, readMark?_cons hyphen _, ?_⟩
  refine Option.bind_eq_some_iff.mpr ⟨_, readNumber?_padded two day _, ?_⟩
  refine Option.bind_eq_some_iff.mpr ⟨_, rfl, ?_⟩
  refine Option.bind_eq_some_iff.mpr ⟨_, readNumber?_padded two hours _, ?_⟩
  refine Option.bind_eq_some_iff.mpr ⟨_, readMark?_cons colon _, ?_⟩
  refine Option.bind_eq_some_iff.mpr ⟨_, readNumber?_padded two minutes _, ?_⟩
  refine Option.bind_eq_some_iff.mpr ⟨_, readMark?_cons colon _, ?_⟩
  refine Option.bind_eq_some_iff.mpr ⟨_, readNumber?_padded two seconds _, ?_⟩
  refine Option.bind_eq_some_iff.mpr ⟨_, readFraction?_fractionText plain.nanos _, ?_⟩
  refine Option.bind_eq_some_iff.mpr ⟨_, zone, ?_⟩
  exact (if_pos finished).trans (ofParts?_parts plain)

end Timestamp
end RankedSearch
