import RankedSearch.Experiment.Id

/-!
# Identifiers in writing and back

An identifier is written with hyphens at fixed places. Leaving out the characters in
these places gives its digits again (`ExperimentId.ofHyphenated?_hyphenated`), so it is
read back from its text (`ExperimentId.ofText?_text`).
-/

set_option autoImplicit false

namespace RankedSearch
namespace ExperimentId

/-! ## Digits -/

theorem ofDigitChar?_digitChar (d : Fin 16) : ofDigitChar? (digitChar d) = some d := by
  revert d
  decide

/-- No digit opens a pair of braces. -/
theorem digitChar_ne_brace (d : Fin 16) : digitChar d ≠ '\x7b' := by
  revert d
  decide

theorem mapM_digitChar (ds : List (Fin 16)) : (ds.map digitChar).mapM ofDigitChar? = some ds := by
  induction ds with
  | nil => rfl
  | cons d ds ih =>
      rw [List.map_cons, List.mapM_cons, ofDigitChar?_digitChar, ih]
      rfl

theorem ofSimple?_digits (id : ExperimentId) : ofSimple? (id.digits.map digitChar) = some id := by
  rw [ofSimple?, mapM_digitChar]
  exact dif_pos id.length_digits

/-! ## Hyphens -/

variable {cs : List Char}

theorem length_hyphenated (length : cs.length = 32) : (hyphenated cs).length = 36 := by
  simp only [hyphenated, List.length_append, List.length_cons, List.length_take, List.length_drop,
    length]
  rfl

theorem take_append_drop_add (cs : List Char) (start count : Nat) :
    (cs.drop start).take count ++ cs.drop (start + count) = cs.drop start := by
  rw [← List.drop_drop, List.take_append_drop]

/-- The groups between the hyphens make up the characters. -/
theorem groups_append (cs : List Char) :
    cs.take 8 ++ ((cs.drop 8).take 4 ++ ((cs.drop 12).take 4 ++ ((cs.drop 16).take 4 ++
      cs.drop 20))) = cs := by
  have last : (cs.drop 16).take 4 ++ cs.drop 20 = cs.drop 16 :=
    take_append_drop_add cs 16 4
  have third : (cs.drop 12).take 4 ++ cs.drop 16 = cs.drop 12 :=
    take_append_drop_add cs 12 4
  have second : (cs.drop 8).take 4 ++ cs.drop 12 = cs.drop 8 :=
    take_append_drop_add cs 8 4
  rw [last, third, second, List.take_append_drop]

theorem head?_hyphenated (cs : List Char) (nonempty : cs ≠ []) :
    (hyphenated cs).head? = cs.head? := by
  cases cs with
  | nil => exact absurd rfl nonempty
  | cons c rest => rfl

/-- Without its hyphens the hyphenated form is what was written. -/
theorem ofHyphenated?_hyphenated (length : cs.length = 32) :
    ofHyphenated? (hyphenated cs) = ofSimple? cs := by
  have first : (hyphenated cs)[8]? = some '-' := by simp [hyphenated, length]
  have second : (hyphenated cs)[13]? = some '-' := by simp [hyphenated, length]
  have third : (hyphenated cs)[18]? = some '-' := by simp [hyphenated, length]
  have fourth : (hyphenated cs)[23]? = some '-' := by simp [hyphenated, length]
  have groups : (hyphenated cs).take 8 ++ ((hyphenated cs).drop 9).take 4 ++
      ((hyphenated cs).drop 14).take 4 ++ ((hyphenated cs).drop 19).take 4 ++
        (hyphenated cs).drop 24 = cs := by
    have read : (hyphenated cs).take 8 ++ ((hyphenated cs).drop 9).take 4 ++
        ((hyphenated cs).drop 14).take 4 ++ ((hyphenated cs).drop 19).take 4 ++
          (hyphenated cs).drop 24 =
        cs.take 8 ++ ((cs.drop 8).take 4 ++ ((cs.drop 12).take 4 ++ ((cs.drop 16).take 4 ++
          cs.drop 20))) := by
      simp [hyphenated, List.drop_append, List.drop_take, length]
    rw [read, groups_append]
  simp only [ofHyphenated?, first, second, third, fourth, groups]

/-- **An identifier is read back from its text.** -/
theorem ofText?_text (id : ExperimentId) : ofText? id.text = some id := by
  have length : (id.digits.map digitChar).length = 32 := by
    rw [List.length_map, id.length_digits]
  have read : ofHyphenated? (hyphenated (id.digits.map digitChar)) = some id := by
    rw [ofHyphenated?_hyphenated length, ofSimple?_digits]
  have long := length_hyphenated length
  rw [ofText?, text, String.toList_ofList]
  split
  · rename_i rest braced
    -- The first character is a digit.
    have nonempty : id.digits.map digitChar ≠ [] := List.ne_nil_of_length_pos (by omega)
    have first : (id.digits.map digitChar).head? = some '\x7b' := by
      rw [← head?_hyphenated _ nonempty, braced]
      rfl
    obtain ⟨d, _, brace⟩ := List.mem_map.mp (List.mem_of_mem_head? first)
    exact absurd brace (digitChar_ne_brace d)
  · rw [if_neg (by omega), if_pos long, read]

end ExperimentId
end RankedSearch
