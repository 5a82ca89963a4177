import RankedSearch.Interchange.Config
import RankedSearch.Interchange.Worker
import RankedSearch.Proofs.Experiment.Id
import RankedSearch.Proofs.Json.Records
import RankedSearch.Proofs.Time.Rfc3339

/-!
# What is written is read back

Metrics, stages, identifiers and timestamps are read back from their texts, and the end
of a worker from its variant. The fields of a record are read back one by one, so a
status, a report and a configuration are read back from every way of writing them
(`ExperimentStatus.ofJson_eq_ok`, `WorkerReport.ofJson_eq_ok`, `Config.ofJson_eq_ok`).

A status and a report hold numbers of any size and scores and timestamps of any kind;
those that words, numbers and four digits of a year can hold are `Writable`.
-/

set_option autoImplicit false

namespace RankedSearch

/-! ## Names and texts -/

namespace Metric

theorem mem_all (m : Metric) : m ∈ all := by
  cases m <;> decide

theorem distinct_variantNames : (all.map variantName).Nodup := by
  decide +kernel

theorem reads_toJson (m : Metric) : Decoder.Reads ofJson m.toJson m := by
  refine Decoder.reads_choice ?_ (List.mem_map_of_mem m.mem_all)
  rw [List.map_map]
  exact distinct_variantNames

end Metric

namespace ExperimentState

theorem mem_all (s : ExperimentState) : s ∈ all := by
  cases s <;> decide

theorem reads_toJson (s : ExperimentState) : Decoder.Reads ofJson s.toJson s :=
  Decoder.reads_choice (by decide) (List.mem_map_of_mem s.mem_all)

end ExperimentState

theorem ExperimentId.reads_toJson (id : ExperimentId) : Decoder.Reads ofJson id.toJson id :=
  Decoder.reads_accepted id.ofText?_text

theorem Timestamp.reads_toJson {t : Timestamp} (plain : t.Plain) :
    Decoder.Reads ofJson t.toJson t :=
  Decoder.reads_accepted (ofText?_text plain)

/-- The end of a worker is read back, with its reason. -/
theorem WorkerExit.reads_toJson (exit : WorkerExit) : Decoder.Reads ofJson exit.toJson exit := by
  cases exit <;> exact ⟨Json.noConfusion, rfl⟩

/-! ## Durations -/

namespace Duration

/-- A duration has no second's worth of nanoseconds to be carried. -/
theorem ofParts?_parts (d : Duration) : ofParts? d.seconds d.nanos = some d := by
  obtain ⟨seconds, nanos, nanos_lt⟩ := d
  have noCarry : nanos.toNat / nanosPerSecond = 0 := Nat.div_eq_of_lt nanos_lt
  have rest : nanos.toNat % nanosPerSecond = nanos.toNat := Nat.mod_eq_of_lt nanos_lt
  have inRange : seconds.toNat < 18446744073709551616 := seconds.toNat_lt
  simp only [ofParts?, noCarry, rest, Nat.add_zero, if_pos inRange, UInt64.ofNat_toNat,
    UInt32.ofNat_toNat]

theorem reads_toJson (d : Duration) : Decoder.Reads ofJson d.toJson d := by
  have seconds := Decoder.reads_word64 d.seconds
  have nanos := Decoder.reads_word32 d.nanos
  have fields : Decoder.fields true record d.toJson =
      .ok [("secs", Json.ofNat d.seconds.toNat), ("nanos", Json.ofNat d.nanos.toNat)] := by
    refine Decoder.fields_eq_ok ?_
    rw [List.forall_mem_cons, List.forall_mem_singleton]
    exact ⟨(seconds.fits "secs").check, (nanos.fits "nanos").check⟩
  refine ⟨Json.noConfusion, ?_⟩
  refine Decoder.bind_eq_ok fields ?_
  refine Decoder.bind_eq_ok seconds.read ?_
  refine Decoder.bind_eq_ok nanos.read ?_
  simp only [d.ofParts?_parts]

end Duration

/-! ## Records -/

namespace ExperimentStatus

/-- A status whose counts are words, whose score is finite and whose timestamps are plain. -/
structure Writable (s : ExperimentStatus) : Prop where
  workersLaunched : s.workersLaunched < UInt64.size
  workersFailed : s.workersFailed < UInt64.size
  trialsRecorded : s.trialsRecorded < UInt64.size
  trialsFailed : s.trialsFailed < UInt64.size
  bestScore : ∀ x, s.bestScore = some x → x.isFinite = true
  startedAt : ∀ t, s.startedAt = some t → t.Plain
  finishedAt : ∀ t, s.finishedAt = some t → t.Plain

theorem alsoWritten_toJson (s : ExperimentStatus) : s.toJson.AlsoWritten s.toJson :=
  .refl (show (record.map Decoder.Field.name).Nodup by decide)

/-- A status is read back from every way of writing it. -/
theorem ofJson_eq_ok {s : ExperimentStatus} (writable : s.Writable) {j : Json}
    (also : s.toJson.AlsoWritten j) : ofJson j = .ok s := by
  have id := s.id.reads_toJson
  have state := s.state.reads_toJson
  have workersLaunched := Decoder.reads_natural writable.workersLaunched
  have workersFailed := Decoder.reads_natural writable.workersFailed
  have trialsRecorded := Decoder.reads_natural writable.trialsRecorded
  have trialsFailed := Decoder.reads_natural writable.trialsFailed
  have bestScore := Decoder.nullable_ofOption fun x best =>
    Decoder.reads_number (writable.bestScore x best)
  have cancelled := Decoder.reads_bool s.cancelled
  have startedAt := Decoder.nullable_ofOption fun t start =>
    Timestamp.reads_toJson (writable.startedAt t start)
  have finishedAt := Decoder.nullable_ofOption fun t finish =>
    Timestamp.reads_toJson (writable.finishedAt t finish)
  have fits : List.Forall₂ Decoder.Fits record s.toJson.members := by
    refine .cons (id.fits _) ?_
    refine .cons (state.fits _) ?_
    refine .cons (workersLaunched.fits _) ?_
    refine .cons (workersFailed.fits _) ?_
    refine .cons (trialsRecorded.fits _) ?_
    refine .cons (trialsFailed.fits _) ?_
    refine .cons (Decoder.fits_field bestScore _) ?_
    refine .cons (cancelled.fits _) ?_
    refine .cons (Decoder.fits_field startedAt _) ?_
    refine .cons (Decoder.fits_field finishedAt _) .nil
  obtain ⟨entries, rfl, rewrites⟩ := also.members
  have reread : Decoder.Reread record _ entries := ⟨fits, by decide, rewrites⟩
  refine Decoder.bind_eq_ok reread.fields_eq_ok ?_
  refine Decoder.bind_eq_ok (reread.required_eq_ok id 0 rfl) ?_
  refine Decoder.bind_eq_ok (reread.required_eq_ok state 1 rfl) ?_
  refine Decoder.bind_eq_ok (reread.required_eq_ok workersLaunched 2 rfl) ?_
  refine Decoder.bind_eq_ok (reread.required_eq_ok workersFailed 3 rfl) ?_
  refine Decoder.bind_eq_ok (reread.required_eq_ok trialsRecorded 4 rfl) ?_
  refine Decoder.bind_eq_ok (reread.required_eq_ok trialsFailed 5 rfl) ?_
  refine Decoder.bind_eq_ok (reread.optional_eq_ok bestScore 6 rfl) ?_
  refine Decoder.bind_eq_ok (reread.required_eq_ok cancelled 7 rfl) ?_
  refine Decoder.bind_eq_ok (reread.optional_eq_ok startedAt 8 rfl) ?_
  refine Decoder.bind_eq_ok (reread.optional_eq_ok finishedAt 9 rfl) ?_
  rfl

end ExperimentStatus

namespace WorkerReport

/-- A report whose index and counts are words and whose score is finite. -/
structure Writable (r : WorkerReport) : Prop where
  workerIndex : r.workerIndex < UInt64.size
  recorded : r.recorded < UInt64.size
  ignored : r.ignored < UInt64.size
  failures : r.failures < UInt64.size
  bestScore : ∀ x, r.bestScore = some x → x.isFinite = true

theorem alsoWritten_toJson (r : WorkerReport) : r.toJson.AlsoWritten r.toJson :=
  .refl (show (record.map Decoder.Field.name).Nodup by decide)

/-- A report is read back from every way of writing it. -/
theorem ofJson_eq_ok {r : WorkerReport} (writable : r.Writable) {j : Json}
    (also : r.toJson.AlsoWritten j) : ofJson j = .ok r := by
  have workerIndex := Decoder.reads_natural writable.workerIndex
  have seed := Decoder.reads_word64 r.seed
  have exit := r.exit.reads_toJson
  have recorded := Decoder.reads_natural writable.recorded
  have ignored := Decoder.reads_natural writable.ignored
  have failures := Decoder.reads_natural writable.failures
  have bestScore := Decoder.nullable_ofOption fun x best =>
    Decoder.reads_number (writable.bestScore x best)
  have fits : List.Forall₂ Decoder.Fits record r.toJson.members := by
    refine .cons (workerIndex.fits _) ?_
    refine .cons (seed.fits _) ?_
    refine .cons (exit.fits _) ?_
    refine .cons (recorded.fits _) ?_
    refine .cons (ignored.fits _) ?_
    refine .cons (failures.fits _) ?_
    refine .cons (Decoder.fits_field bestScore _) .nil
  obtain ⟨entries, rfl, rewrites⟩ := also.members
  have reread : Decoder.Reread record _ entries := ⟨fits, by decide, rewrites⟩
  refine Decoder.bind_eq_ok reread.fields_eq_ok ?_
  refine Decoder.bind_eq_ok (reread.required_eq_ok workerIndex 0 rfl) ?_
  refine Decoder.bind_eq_ok (reread.required_eq_ok seed 1 rfl) ?_
  refine Decoder.bind_eq_ok (reread.required_eq_ok exit 2 rfl) ?_
  refine Decoder.bind_eq_ok (reread.required_eq_ok recorded 3 rfl) ?_
  refine Decoder.bind_eq_ok (reread.required_eq_ok ignored 4 rfl) ?_
  refine Decoder.bind_eq_ok (reread.required_eq_ok failures 5 rfl) ?_
  refine Decoder.bind_eq_ok (reread.optional_eq_ok bestScore 6 rfl) ?_
  rfl

end WorkerReport

namespace Config

theorem alsoWritten_toJson (c : Config) : c.toJson.AlsoWritten c.toJson :=
  .refl (show (record.map Decoder.Field.name).Nodup by decide)

/-- A configuration is read back from every way of writing it. -/
theorem ofJson_eq_ok {c : Config} {j : Json}
    (also : c.toJson.AlsoWritten j) : ofJson j = .ok c := by
  have parallelRuns := Decoder.reads_word64 c.parallelRuns
  have seed := Decoder.reads_word64 c.seed
  have foldCount := Decoder.reads_word32 c.foldCount
  have historyCapacity := Decoder.reads_word64 c.historyCapacity
  have metric := c.metric.reads_toJson
  have timeLimit := Decoder.nullable_ofOption fun d (_ : c.timeLimit = some d) => d.reads_toJson
  have maxConsecutiveFailures := Decoder.reads_word32 c.maxConsecutiveFailures
  have skipSearch := Decoder.reads_bool c.skipSearch
  have workRoot := Decoder.nullable_ofOption fun s (_ : c.workRoot = some s) => Decoder.reads_text s
  have fits : List.Forall₂ Decoder.Fits record c.toJson.members := by
    refine .cons (parallelRuns.fits _) ?_
    refine .cons (seed.fits _) ?_
    refine .cons (foldCount.fits _) ?_
    refine .cons (historyCapacity.fits _) ?_
    refine .cons (metric.fits _) ?_
    refine .cons (Decoder.fits_field timeLimit _) ?_
    refine .cons (maxConsecutiveFailures.fits _) ?_
    refine .cons (skipSearch.fits _) ?_
    refine .cons (Decoder.fits_field workRoot _) .nil
  obtain ⟨entries, rfl, rewrites⟩ := also.members
  have reread : Decoder.Reread record _ entries := ⟨fits, by decide, rewrites⟩
  refine Decoder.bind_eq_ok reread.fields_eq_ok ?_
  refine Decoder.bind_eq_ok (reread.required_eq_ok parallelRuns 0 rfl) ?_
  refine Decoder.bind_eq_ok (reread.required_eq_ok seed 1 rfl) ?_
  refine Decoder.bind_eq_ok (reread.required_eq_ok foldCount 2 rfl) ?_
  refine Decoder.bind_eq_ok (reread.required_eq_ok historyCapacity 3 rfl) ?_
  refine Decoder.bind_eq_ok (reread.required_eq_ok metric 4 rfl) ?_
  refine Decoder.bind_eq_ok (reread.optional_eq_ok timeLimit 5 rfl) ?_
  refine Decoder.bind_eq_ok (reread.required_eq_ok maxConsecutiveFailures 6 rfl) ?_
  refine Decoder.bind_eq_ok (reread.required_eq_ok skipSearch 7 rfl) ?_
  refine Decoder.bind_eq_ok (reread.optional_eq_ok workRoot 8 rfl) ?_
  rfl

end Config

namespace Json

/-- **What is written is read back**, and a record also if fields of other names are
added, fields that are null are left out and the others come in another order. -/
theorem reads_back_what_is_written :
    (∀ m : Metric, Metric.ofJson m.toJson = .ok m) ∧
    (∀ s : ExperimentState, ExperimentState.ofJson s.toJson = .ok s) ∧
    (∀ s : ExperimentStatus, s.Writable →
      ExperimentStatus.ofJson s.toJson = .ok s ∧
        ∀ j, s.toJson.AlsoWritten j → ExperimentStatus.ofJson j = .ok s) ∧
    (∀ exit : WorkerExit, WorkerExit.ofJson exit.toJson = .ok exit) ∧
    (∀ r : WorkerReport, r.Writable →
      WorkerReport.ofJson r.toJson = .ok r ∧
        ∀ j, r.toJson.AlsoWritten j → WorkerReport.ofJson j = .ok r) ∧
    (∀ c : Config,
      Config.ofJson c.toJson = .ok c ∧ ∀ j, c.toJson.AlsoWritten j → Config.ofJson j = .ok c) := by
  refine ⟨fun m => m.reads_toJson.read, fun s => s.reads_toJson.read, ?statuses,
    fun exit => exit.reads_toJson.read, ?reports, ?configurations⟩
  case statuses =>
    intro s writable
    exact ⟨ExperimentStatus.ofJson_eq_ok writable s.alsoWritten_toJson,
      fun _ => ExperimentStatus.ofJson_eq_ok writable⟩
  case reports =>
    intro r writable
    exact ⟨WorkerReport.ofJson_eq_ok writable r.alsoWritten_toJson,
      fun _ => WorkerReport.ofJson_eq_ok writable⟩
  case configurations =>
    intro c
    exact ⟨Config.ofJson_eq_ok c.alsoWritten_toJson, fun _ => Config.ofJson_eq_ok⟩

/-! ### A status with a further field and without the end -/

namespace Sample

/-- A running search that began in the last nanosecond of a leap day. -/
def status : ExperimentStatus :=
  ⟨.nil, .running, 4, 0, 18446744073709551615, 7, some ⟨0xBFE8000000000000⟩, false,
    some ⟨1709251199, 999999999⟩, none⟩

/-- The search has not ended, and the field that would tell when is left out. -/
def statusFields : List (String × Json) :=
  ("note", .text "resumed") :: status.toJson.members.dropLast

theorem writable_status : status.Writable where
  workersLaunched := by decide
  workersFailed := by decide
  trialsRecorded := by decide
  trialsFailed := by decide
  bestScore := by
    rintro _ ⟨⟩
    decide
  startedAt := by
    rintro _ ⟨⟩
    exact ⟨by decide, by decide⟩
  finishedAt := nofun

theorem rewrites_statusFields : Rewrites status.toJson.members statusFields where
  distinct := by
    show ("note" :: (ExperimentStatus.record.map Decoder.Field.name).dropLast).Nodup
    decide
  kept := by
    intro field member
    have written : status.toJson.members =
        status.toJson.members.dropLast ++ [("finished_at", .null)] := rfl
    rw [written] at member
    rcases List.mem_append.mp member with kept | dropped
    · exact .inl (List.mem_cons_of_mem _ kept)
    · rw [List.mem_singleton.mp dropped]
      exact .inr rfl
  known := by
    intro field member
    rcases List.mem_cons.mp member with rfl | kept
    · refine .inr ?_
      show "note" ∉ ExperimentStatus.record.map Decoder.Field.name
      decide
    · exact .inl ((List.dropLast_sublist _).subset kept)

/-- A failed worker whose best score is the negative zero. -/
def report : WorkerReport :=
  ⟨2, 18446744073709551615, .failed "no such metric", 5, 1, 3, some Binary64.negativeZero⟩

theorem writable_report : report.Writable where
  workerIndex := by decide
  recorded := by decide
  ignored := by decide
  failures := by decide
  bestScore := by
    rintro _ ⟨⟩
    decide

end Sample

theorem running_status_reads_back :
    ExperimentStatus.ofJson (.object Sample.statusFields) = .ok Sample.status ∧
      WorkerReport.ofJson Sample.report.toJson = .ok Sample.report := by
  obtain ⟨_, _, statuses, _, reports, _⟩ := reads_back_what_is_written
  exact ⟨(statuses _ Sample.writable_status).2 _ (.object Sample.rewrites_statusFields),
    (reports _ Sample.writable_report).1⟩

end Json
end RankedSearch
