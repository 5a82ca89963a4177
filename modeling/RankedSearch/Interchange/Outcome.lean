import RankedSearch.Json.Basic
import RankedSearch.Outcome
import RankedSearch.Time.Rfc3339

/-!
# Outcomes in interchange

An outcome is written as a record without the contents of its artifact; only
whether there is one is told.
-/

set_option autoImplicit false

namespace RankedSearch

/-- A provenance as an interchange value. -/
def Provenance.toJson (p : Provenance) : Json :=
  .object
    [("search_method", Json.ofOption Json.text p.searchMethod),
      ("search_args", Json.ofTexts p.searchArgs),
      ("eval_method", Json.ofOption Json.text p.evalMethod),
      ("eval_args", Json.ofTexts p.evalArgs),
      ("classifier_args", Json.ofTexts p.classifierArgs)]

/-- An outcome as an interchange value. -/
def Outcome.toJson (o : Outcome) : Json :=
  .object
    [("score", Json.ofOption (fun s : Score => Json.ofWord s.word) o.score),
      ("summary", .text o.summary),
      ("artifact", .bool !o.artifact.isNone),
      ("provenance", o.provenance.toJson),
      ("started_at", .text o.startedAt.text),
      ("finished_at", .text o.finishedAt.text),
      ("fold", Json.ofNat o.fold.toNat),
      ("seed", Json.ofNat o.seed.toNat),
      ("result_line", Json.ofOption Json.text o.resultLine)]

end RankedSearch
