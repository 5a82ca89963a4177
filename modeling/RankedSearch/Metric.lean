import RankedSearch.Binary64.Basic

/-!
# Evaluation metrics

A trial producer reports its quality in one of twenty-nine metrics. Ranking
always minimizes, so a metric in which larger values are better enters with its
sign flipped. A metric has a name in text (`Metric.name`), by which it is read
back exactly (`Metric.ofName?`), and a declared identifier, from which the name
in interchange text is formed (`Metric.variantName`).
-/

set_option autoImplicit false

namespace RankedSearch

/-- The metrics in which a trial's quality may be reported. -/
inductive Metric where
  | areaAboveRoc
  | areaUnderRoc
  | avgCost
  | correct
  | correlationCoefficient
  | errorRate
  | falseNegativeRate
  | falsePositiveRate
  | fMeasure
  | incorrect
  | kappa
  | kBInformation
  | kBMeanInformation
  | kBRelativeInformation
  | meanAbsoluteError
  | pctCorrect
  | pctIncorrect
  | precision
  | relativeAbsoluteError
  | rootMeanSquaredError
  | rootRelativeSquaredError
  | weightedAreaUnderRoc
  | weightedFalseNegativeRate
  | weightedFalsePositiveRate
  | weightedFMeasure
  | weightedPrecision
  | weightedRecall
  | weightedTrueNegativeRate
  | weightedTruePositiveRate
  deriving DecidableEq, Inhabited

namespace Metric

/-- Every metric once, in order. -/
def all : List Metric :=
  [.areaAboveRoc, .areaUnderRoc, .avgCost, .correct, .correlationCoefficient, .errorRate,
    .falseNegativeRate, .falsePositiveRate, .fMeasure, .incorrect, .kappa, .kBInformation,
    .kBMeanInformation, .kBRelativeInformation, .meanAbsoluteError, .pctCorrect, .pctIncorrect,
    .precision, .relativeAbsoluteError, .rootMeanSquaredError, .rootRelativeSquaredError,
    .weightedAreaUnderRoc, .weightedFalseNegativeRate, .weightedFalsePositiveRate,
    .weightedFMeasure, .weightedPrecision, .weightedRecall, .weightedTrueNegativeRate,
    .weightedTruePositiveRate]

/-- The metric used when none is chosen. -/
def default : Metric := .errorRate

/-! ## Names -/

/-- The name of a metric in text. -/
def name : Metric → String
  | .areaAboveRoc => "areaAboveROC"
  | .areaUnderRoc => "areaUnderROC"
  | .avgCost => "avgCost"
  | .correct => "correct"
  | .correlationCoefficient => "correlationCoefficient"
  | .errorRate => "errorRate"
  | .falseNegativeRate => "falseNegativeRate"
  | .falsePositiveRate => "falsePositiveRate"
  | .fMeasure => "fMeasure"
  | .incorrect => "incorrect"
  | .kappa => "kappa"
  | .kBInformation => "kBInformation"
  | .kBMeanInformation => "kBMeanInformation"
  | .kBRelativeInformation => "kBRelativeInformation"
  | .meanAbsoluteError => "meanAbsoluteError"
  | .pctCorrect => "pctCorrect"
  | .pctIncorrect => "pctIncorrect"
  | .precision => "precision"
  | .relativeAbsoluteError => "relativeAbsoluteError"
  | .rootMeanSquaredError => "rootMeanSquaredError"
  | .rootRelativeSquaredError => "rootRelativeSquaredError"
  | .weightedAreaUnderRoc => "weightedAreaUnderROC"
  | .weightedFalseNegativeRate => "weightedFalseNegativeRate"
  | .weightedFalsePositiveRate => "weightedFalsePositiveRate"
  | .weightedFMeasure => "weightedFMeasure"
  | .weightedPrecision => "weightedPrecision"
  | .weightedRecall => "weightedRecall"
  | .weightedTrueNegativeRate => "weightedTrueNegativeRate"
  | .weightedTruePositiveRate => "weightedTruePositiveRate"

/-- The metric of a name, matched exactly. -/
def ofName? (s : String) : Option Metric :=
  all.find? fun m => m.name == s

/-- The identifier under which a metric is declared in documentation. -/
def identifier : Metric → String
  | .areaAboveRoc => "AreaAboveRoc"
  | .areaUnderRoc => "AreaUnderRoc"
  | .avgCost => "AvgCost"
  | .correct => "Correct"
  | .correlationCoefficient => "CorrelationCoefficient"
  | .errorRate => "ErrorRate"
  | .falseNegativeRate => "FalseNegativeRate"
  | .falsePositiveRate => "FalsePositiveRate"
  | .fMeasure => "FMeasure"
  | .incorrect => "Incorrect"
  | .kappa => "Kappa"
  | .kBInformation => "KBInformation"
  | .kBMeanInformation => "KBMeanInformation"
  | .kBRelativeInformation => "KBRelativeInformation"
  | .meanAbsoluteError => "MeanAbsoluteError"
  | .pctCorrect => "PctCorrect"
  | .pctIncorrect => "PctIncorrect"
  | .precision => "Precision"
  | .relativeAbsoluteError => "RelativeAbsoluteError"
  | .rootMeanSquaredError => "RootMeanSquaredError"
  | .rootRelativeSquaredError => "RootRelativeSquaredError"
  | .weightedAreaUnderRoc => "WeightedAreaUnderRoc"
  | .weightedFalseNegativeRate => "WeightedFalseNegativeRate"
  | .weightedFalsePositiveRate => "WeightedFalsePositiveRate"
  | .weightedFMeasure => "WeightedFMeasure"
  | .weightedPrecision => "WeightedPrecision"
  | .weightedRecall => "WeightedRecall"
  | .weightedTrueNegativeRate => "WeightedTrueNegativeRate"
  | .weightedTruePositiveRate => "WeightedTruePositiveRate"

/-- A text with its first letter in lower case. -/
def decapitalize (s : String) : String :=
  match s.toList with
  | [] => ""
  | c :: rest => String.ofList (c.toLower :: rest)

/-- The name of a metric in interchange text: the identifier with a small first
letter, except that three names keep their abbreviation in capitals. -/
def variantName : Metric → String
  | .areaAboveRoc => "areaAboveROC"
  | .areaUnderRoc => "areaUnderROC"
  | .weightedAreaUnderRoc => "weightedAreaUnderROC"
  | m => decapitalize m.identifier

/-! ## Direction -/

/-- Whether larger values of the metric are better. -/
def isMaximized : Metric → Bool
  | .areaUnderRoc | .correct | .correlationCoefficient | .fMeasure | .kappa | .kBInformation
  | .kBMeanInformation | .kBRelativeInformation | .pctCorrect | .precision
  | .weightedAreaUnderRoc | .weightedFMeasure | .weightedPrecision | .weightedRecall
  | .weightedTrueNegativeRate | .weightedTruePositiveRate => true
  | _ => false

/-- A raw value as a ranking number: the sign is flipped where larger is better. -/
def toScore (m : Metric) (raw : Binary64) : Binary64 :=
  if m.isMaximized then raw.negate else raw

/-- A ranking number as a raw value of the metric. -/
def fromScore (m : Metric) (score : Binary64) : Binary64 :=
  m.toScore score

end Metric
end RankedSearch
