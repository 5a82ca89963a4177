import RankedSearch.Proofs.Interchange.ReadBack
import RankedSearch.Simulation.Options

/-!
# The spelling of a metric

A metric is looked up by its name among all metrics, and in interchange text it is chosen
among variants whose names are formed from the identifiers of the metrics. These are three
tables of their own. They agree on every metric (`Metric.variantName_eq_name`) and none
leaves a metric out or has a name twice, so both ways of reading accept a text exactly if
it is the name of a metric, which is then the one that is read.
-/

set_option autoImplicit false

namespace RankedSearch
namespace Metric

variable {m : Metric} {s : String}

/-- The name that is formed from the identifier is the name. -/
theorem variantName_eq_name (m : Metric) : m.variantName = m.name := by
  cases m <;> rfl

theorem map_variantName_all : all.map variantName = all.map name :=
  List.map_congr_left fun m _ => m.variantName_eq_name

theorem name_injective : Function.Injective name := by
  intro m n same
  have distinct : (all.map name).Nodup := map_variantName_all ▸ distinct_variantNames
  exact List.inj_on_of_nodup_map distinct m.mem_all n.mem_all same

/-! ## Reading -/

theorem ofName?_eq_some_iff : ofName? s = some m ↔ s = m.name := by
  rw [ofName?]
  constructor
  · intro found
    have named : m.name = s := by simpa using List.find?_some found
    exact named.symm
  · rintro rfl
    cases found : all.find? fun n => n.name == m.name with
    | none => exact absurd (beq_self_eq_true m.name) (List.find?_eq_none.mp found m m.mem_all)
    | some n =>
        have named : n.name = m.name := by simpa using List.find?_some found
        rw [name_injective named]

theorem ofName?_eq_none_iff : ofName? s = none ↔ ∀ m : Metric, s ≠ m.name := by
  simp only [Option.eq_none_iff_forall_ne_some, ne_eq, ofName?_eq_some_iff]

theorem readMetric_eq_ok_iff : Simulation.readMetric s = .ok m ↔ s = m.name := by
  rw [← ofName?_eq_some_iff, Simulation.readMetric]
  cases ofName? s <;> simp

theorem readMetric_eq_error_iff {cause : Simulation.OptionReason} :
    Simulation.readMetric s = .error cause ↔
      (∀ m : Metric, s ≠ m.name) ∧ cause = .metric (.unknownMetric s) := by
  rw [← ofName?_eq_none_iff, Simulation.readMetric]
  cases ofName? s <;> simp [eq_comm]

/-- The names among which a variant is chosen. -/
theorem map_fst_variants :
    (all.map fun m => (m.variantName, m)).map Prod.fst = all.map name := by
  rw [List.map_map]
  exact map_variantName_all

theorem ofJson_text_eq_ok_iff : ofJson (.text s) = .ok m ↔ s = m.name := by
  have distinct : ((all.map fun m => (m.variantName, m)).map Prod.fst).Nodup := by
    rw [map_fst_variants, ← map_variantName_all]
    exact distinct_variantNames
  rw [ofJson, Decoder.choice_text_eq_ok_iff distinct, List.mem_map]
  constructor
  · rintro ⟨n, _, same⟩
    obtain ⟨named, rfl⟩ := Prod.mk.inj same
    rw [← named, n.variantName_eq_name]
  · rintro rfl
    exact ⟨m, m.mem_all, congrArg (·, m) m.variantName_eq_name⟩

theorem ofJson_text_of_unknown (unknown : ∀ m : Metric, s ≠ m.name) :
    ofJson (.text s) = .error (.unknownVariant s (all.map name)) := by
  have foreign : s ∉ (all.map fun m => (m.variantName, m)).map Prod.fst := by
    rw [map_fst_variants]
    intro member
    obtain ⟨m, _, named⟩ := List.mem_map.mp member
    exact unknown m named.symm
  rw [ofJson, Decoder.choice_text_of_unknown foreign, map_fst_variants]

/-- **A metric has one spelling.** Looked up as a name or decoded as an interchange text,
a text gives a metric exactly if it is the name of that metric, letter for letter, and
then it is also how the metric is written. Every other text is refused both ways, with the
text itself in the complaint. -/
theorem name_is_its_only_spelling (s : String) :
    (∀ m, Simulation.readMetric s = .ok m ↔ ofJson (.text s) = .ok m) ∧
    (∀ m, Simulation.readMetric s = .ok m ↔ s = m.name) ∧
    (∀ m, Simulation.readMetric s = .ok m → m.toJson = .text s) ∧
    (∀ cause, Simulation.readMetric s = .error cause ↔
      (∀ m : Metric, s ≠ m.name) ∧ cause = .metric (.unknownMetric s)) ∧
    (∀ fault, ofJson (.text s) = .error fault ↔
      (∀ m : Metric, s ≠ m.name) ∧ fault = .unknownVariant s (all.map name)) := by
  refine ⟨?_, fun m => readMetric_eq_ok_iff, ?_, fun cause => readMetric_eq_error_iff, ?_⟩
  · intro m
    rw [readMetric_eq_ok_iff, ofJson_text_eq_ok_iff]
  · intro m accepted
    rw [toJson, m.variantName_eq_name, readMetric_eq_ok_iff.mp accepted]
  · intro fault
    constructor
    · intro refused
      have unknown : ∀ m : Metric, s ≠ m.name := by
        intro m named
        rw [ofJson_text_eq_ok_iff.mpr named] at refused
        cases refused
      rw [ofJson_text_of_unknown unknown] at refused
      exact ⟨unknown, (Except.error.inj refused).symm⟩
    · rintro ⟨unknown, rfl⟩
      exact ofJson_text_of_unknown unknown

/-- The capitals of an abbreviation belong to the name. -/
theorem abbreviation_is_spelled_in_capitals :
    toJson .areaUnderRoc = .text "areaUnderROC" ∧
      ofJson (.text "areaUnderROC") = .ok .areaUnderRoc ∧
      Simulation.readMetric "areaUnderRoc" = .error (.metric (.unknownMetric "areaUnderRoc")) := by
  obtain ⟨agree, named, written, _⟩ := name_is_its_only_spelling "areaUnderROC"
  obtain ⟨_, _, _, refused, _⟩ := name_is_its_only_spelling "areaUnderRoc"
  have accepted : Simulation.readMetric "areaUnderROC" = .ok .areaUnderRoc := (named _).mpr rfl
  refine ⟨written _ accepted, (agree _).mp accepted, (refused _).mpr ⟨?_, rfl⟩⟩
  intro m
  cases m <;> decide

end Metric
end RankedSearch
