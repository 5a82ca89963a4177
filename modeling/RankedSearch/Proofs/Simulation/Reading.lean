import RankedSearch.Proofs.Interchange.MetricNames
import RankedSearch.Proofs.Simulation.Numerals
import RankedSearch.Simulation.Ending

/-!
# The variables of a simulation

Six variables are read in a fixed order (`readingOrder`). A variable offends if it is set to a
text of the wrong kind; one that is not set never does. Each step of the reading either
stops at an offending variable or goes on with a value that does not matter for the faults
of the later ones (`bind_eq_error_iff`), so a fault comes from the first variable that
offends (`read_eq_error_iff`). Without a fault every option is what the text of its variable
denotes, or what it is by default (`read_eq_ok_iff`). After that a simulation is refused
exactly as its configuration is (`Ending.ofOptions_eq_refused_iff`).
-/

set_option autoImplicit false

namespace RankedSearch
namespace Simulation

variable {α β : Type} {environment : String → Option String} {fault : OptionFault}

/-! ## Variables -/

/-- What the text of a variable is to be. -/
inductive Kind where
  | number
  | metric

namespace Kind

/-- The texts of a kind: the numerals of words, or the names of the metrics. -/
def Accepts : Kind → String → Prop
  | .number, text => IsNumeral text
  | .metric, text => ∃ m : Metric, text = m.name

/-- Why a text is not of a kind. -/
def reason : Kind → String → OptionReason
  | .number, text => .number (faultOf text)
  | .metric, text => .metric (.unknownMetric text)

/-- A reader refuses the texts that are not of a kind. -/
def Guards (kind : Kind) (read : String → Except OptionReason α) : Prop :=
  ∀ text cause, read text = .error cause ↔ ¬ kind.Accepts text ∧ cause = kind.reason text

theorem number_guards : number.Guards readNumber :=
  fun _ _ => readNumber_eq_error_iff

theorem metric_guards : metric.Guards readMetric := by
  intro text cause
  rw [Metric.readMetric_eq_error_iff, Accepts, not_exists]
  rfl

end Kind

/-- A variable and the kind of its texts. -/
structure Variable where
  key : String
  kind : Kind

namespace Variable

/-- The variable is set to a text of another kind. -/
def Offends (v : Variable) (environment : String → Option String) : Prop :=
  ∃ text, environment v.key = some text ∧ ¬ v.kind.Accepts text

/-- The variable is set to a text of another kind, which is the fault. -/
def Faults (v : Variable) (environment : String → Option String) (fault : OptionFault) : Prop :=
  ∃ text, environment v.key = some text ∧ ¬ v.kind.Accepts text ∧
    fault = ⟨v.key, text, v.kind.reason text⟩

theorem offends_iff {v : Variable} :
    v.Offends environment ↔ ∃ fault, v.Faults environment fault := by
  constructor
  · rintro ⟨text, set, foreign⟩
    exact ⟨_, text, set, foreign, rfl⟩
  · rintro ⟨_, text, set, foreign, _⟩
    exact ⟨text, set, foreign⟩

end Variable

/-- The variables whose texts are looked at, in the order in which they are read. -/
def readingOrder : List Variable :=
  [⟨"TOURNEY_WORKERS", .number⟩, ⟨"TOURNEY_SEED", .number⟩, ⟨"TOURNEY_CAPACITY", .number⟩,
    ⟨"TOURNEY_METRIC", .metric⟩, ⟨"TOURNEY_TIME_LIMIT_SECS", .number⟩,
    ⟨"TOURNEY_TRIALS", .number⟩]

/-- A text is a numeral of a word. -/
def IsNumber (text : String) (w : UInt64) : Prop := Denotes text w.toNat

/-- A text is the name of a metric. -/
def IsNameOf (text : String) (m : Metric) : Prop := text = m.name

/-! ## The first fault -/

/-- The fault of the first variable that offends. -/
inductive FirstFault (environment : String → Option String) : List Variable → OptionFault → Prop
  | here {v : Variable} {rest : List Variable} {fault : OptionFault} :
      v.Faults environment fault → FirstFault environment (v :: rest) fault
  | later {v : Variable} {rest : List Variable} {fault : OptionFault} :
      ¬ v.Offends environment → FirstFault environment rest fault →
      FirstFault environment (v :: rest) fault

theorem not_firstFault_nil : ¬ FirstFault environment [] fault :=
  nofun

theorem firstFault_cons_iff {v : Variable} {rest : List Variable} :
    FirstFault environment (v :: rest) fault ↔
      v.Faults environment fault ∨
        ¬ v.Offends environment ∧ FirstFault environment rest fault := by
  constructor
  · rintro (faults | ⟨harmless, first⟩)
    · exact .inl faults
    · exact .inr ⟨harmless, first⟩
  · rintro (faults | ⟨harmless, first⟩)
    · exact .here faults
    · exact .later harmless first

/-- The variables in front of the one with the first fault do not offend. -/
theorem firstFault_iff {vs : List Variable} :
    FirstFault environment vs fault ↔
      ∃ front v back, vs = front ++ v :: back ∧ (∀ u ∈ front, ¬ u.Offends environment) ∧
        v.Faults environment fault := by
  constructor
  · intro first
    induction first with
    | @here v rest fault faults => exact ⟨[], v, rest, rfl, nofun, faults⟩
    | @later v rest fault harmless _ ih =>
        obtain ⟨front, u, back, rfl, before, faults⟩ := ih
        exact ⟨v :: front, u, back, rfl, List.forall_mem_cons.mpr ⟨harmless, before⟩, faults⟩
  · rintro ⟨front, v, back, rfl, before, faults⟩
    induction front with
    | nil => exact .here faults
    | cons u front ih =>
        obtain ⟨harmless, others⟩ := List.forall_mem_cons.mp before
        exact .later harmless (ih others)

/-- There is a first fault if any variable offends. -/
theorem exists_firstFault_iff {vs : List Variable} :
    (∃ fault, FirstFault environment vs fault) ↔ ∃ v ∈ vs, v.Offends environment := by
  induction vs with
  | nil => simp [not_firstFault_nil]
  | cons v rest ih =>
      by_cases offends : v.Offends environment
      · obtain ⟨fault, faults⟩ := Variable.offends_iff.mp offends
        exact iff_of_true ⟨fault, .here faults⟩ ⟨v, List.mem_cons_self, offends⟩
      · have none : ∀ fault, ¬ v.Faults environment fault :=
          fun fault faults => offends (Variable.offends_iff.mpr ⟨fault, faults⟩)
        simp [firstFault_cons_iff, none, offends, ih]

/-! ## Reading one variable -/

variable {read : String → Except OptionReason α} {key : String} {unset a : α}

theorem ofVariable_eq_error_iff {kind : Kind} (guards : kind.Guards read) :
    ofVariable environment key read unset = .error fault ↔
      Variable.Faults ⟨key, kind⟩ environment fault := by
  rw [ofVariable, Variable.Faults]
  cases environment key with
  | none => simp
  | some text =>
      rw [mapError_eq_error_iff]
      simp [guards text _, and_assoc]

/-- The value that is read has no part in the first fault. -/
theorem bind_eq_error_iff {kind : Kind} {rest : List Variable}
    {next : α → Except OptionFault β} (guards : kind.Guards read)
    (further : ∀ a, next a = .error fault ↔ FirstFault environment rest fault) :
    (ofVariable environment key read unset >>= next) = .error fault ↔
      FirstFault environment (⟨key, kind⟩ :: rest) fault := by
  have refuses : ∀ fault, Variable.Faults ⟨key, kind⟩ environment fault ↔
      ofVariable environment key read unset = .error fault :=
    fun _ => (ofVariable_eq_error_iff guards).symm
  simp only [firstFault_cons_iff, Variable.offends_iff, refuses]
  cases ofVariable environment key read unset with
  | ok a => simpa [bind, Except.bind] using further a
  | error other => simp [bind, Except.bind]

/-- The value of a variable is what its text denotes, or it is not set and has its value by
default. -/
def Given (environment : String → Option String) (key : String) (Means : String → α → Prop)
    (unset a : α) : Prop :=
  match environment key with
  | none => a = unset
  | some text => Means text a

theorem ofVariable_eq_ok_iff {Means : String → α → Prop}
    (accepts : ∀ text a, read text = .ok a ↔ Means text a) :
    ofVariable environment key read unset = .ok a ↔ Given environment key Means unset a := by
  rw [ofVariable, Given]
  cases environment key with
  | none => simp [eq_comm]
  | some text =>
      exact mapError_eq_ok_iff.trans (accepts text a)

theorem bind_eq_ok_iff {x : Except OptionFault α} {next : α → Except OptionFault β} {b : β} :
    (x >>= next) = .ok b ↔ ∃ a, x = .ok a ∧ next a = .ok b := by
  cases x with
  | error fault => simp [bind, Except.bind]
  | ok a => simp [bind, Except.bind]

/-! ## Reading the options -/

/-- The options that the texts of variables stand for. -/
structure Gives (environment : String → Option String) (o : Options) : Prop where
  workers : Given environment "TOURNEY_WORKERS" IsNumber 4 o.config.parallelRuns
  seed : Given environment "TOURNEY_SEED" IsNumber 123 o.config.seed
  capacity : Given environment "TOURNEY_CAPACITY" IsNumber 30 o.config.historyCapacity
  metric : Given environment "TOURNEY_METRIC" IsNameOf .errorRate o.config.metric
  /-- Zero seconds, however they are written, are no limit. -/
  limit : ∃ seconds, Given environment "TOURNEY_TIME_LIMIT_SECS" IsNumber 0 seconds ∧
    o.config.timeLimit = if seconds = 0 then none else some (Duration.ofSeconds seconds)
  trials : Given environment "TOURNEY_TRIALS" IsNumber 200 o.trials
  workRoot : o.config.workRoot = environment "TOURNEY_WORK_ROOT"
  temporary : o.temporary = (environment "TMPDIR").getD "/tmp"
  foldCount : o.config.foldCount = 10
  maxConsecutiveFailures : o.config.maxConsecutiveFailures = 3
  skipSearch : o.config.skipSearch = false

theorem read_eq_error_iff :
    Options.read environment = .error fault ↔ FirstFault environment readingOrder fault := by
  rw [Options.read, readingOrder]
  refine bind_eq_error_iff Kind.number_guards fun workers => ?_
  refine bind_eq_error_iff Kind.number_guards fun seed => ?_
  refine bind_eq_error_iff Kind.number_guards fun capacity => ?_
  refine bind_eq_error_iff Kind.metric_guards fun metric => ?_
  refine bind_eq_error_iff Kind.number_guards fun limit => ?_
  refine bind_eq_error_iff Kind.number_guards fun trials => ?_
  exact iff_of_false nofun not_firstFault_nil

theorem read_eq_ok_iff {o : Options} : Options.read environment = .ok o ↔ Gives environment o := by
  have numbers : ∀ text n, readNumber text = .ok n ↔ IsNumber text n :=
    fun _ _ => readNumber_eq_ok_iff
  have metrics : ∀ text m, readMetric text = .ok m ↔ IsNameOf text m :=
    fun _ _ => Metric.readMetric_eq_ok_iff
  simp only [Options.read, bind_eq_ok_iff, ofVariable_eq_ok_iff numbers,
    ofVariable_eq_ok_iff metrics]
  constructor
  · rintro ⟨workers, isWorkers, seed, isSeed, capacity, isCapacity, metric, isMetric, limit,
      isLimit, trials, isTrials, ⟨⟩⟩
    exact ⟨isWorkers, isSeed, isCapacity, isMetric, ⟨limit, isLimit, rfl⟩, isTrials, rfl, rfl,
      rfl, rfl, rfl⟩
  · rintro ⟨isWorkers, isSeed, isCapacity, isMetric, ⟨limit, isLimit, limited⟩, isTrials,
      rooted, temporary, folds, failures, skips⟩
    obtain ⟨⟨workers, seed, foldCount, capacity, metric, timeLimit, maxFailures, skip, root⟩,
      trials, directory⟩ := o
    subst limited rooted temporary folds failures skips
    exact ⟨workers, isWorkers, seed, isSeed, capacity, isCapacity, metric, isMetric, limit,
      isLimit, trials, isTrials, rfl⟩

/-! ## Refusals -/

theorem perform_eq_error_iff {o : Options} {site : Site} {cause : SearchError} :
    perform o site = .error cause ↔ o.config.validate site.stat = .error cause := by
  rw [perform, Run.start]
  cases o.config.validate site.stat with
  | ok _ => exact iff_of_false nofun nofun
  | error other => simp [bind, Except.bind, Except.mapError]

namespace Ending

/-- A run that has started is not refused any more. -/
theorem ofRun_ne_refused (run : Run) (cause : SearchError) : ofRun run ≠ .refused cause := by
  rw [ofRun]
  split <;> nofun

theorem ofRun_ne_misread (run : Run) (fault : OptionFault) : ofRun run ≠ .misread fault := by
  rw [ofRun]
  split <;> nofun

theorem ofOptions_eq_refused_iff {o : Options} {site : Site} {cause : SearchError} :
    ofOptions o site = .refused cause ↔ o.config.validate site.stat = .error cause := by
  rw [← perform_eq_error_iff, ofOptions]
  cases perform o site with
  | error other => simp
  | ok run => exact iff_of_false (ofRun_ne_refused run cause) nofun

theorem ofOptions_ne_misread (o : Options) (site : Site) (fault : OptionFault) :
    ofOptions o site ≠ .misread fault := by
  rw [ofOptions]
  cases perform o site with
  | error other => nofun
  | ok run => exact ofRun_ne_misread run fault

end Ending

/-- **Options are read in a fixed order.** Before anything is looked at or run, a simulation
fails exactly if some variable is set to a text that is no numeral of a word, or no name of
a metric where one is wanted. It then complains of the first such variable in the order of
reading, with its text as it stands. Otherwise every option is what the text of its variable
denotes, or what it is by default. From then on the simulation is refused, without a run
that has workers, exactly as its configuration is. -/
theorem first_offending_variable_decides (environment : String → Option String)
    {m : Type → Type} [Monad m] (observe : Options → m Site) :
    ((∃ fault, Options.read environment = .error fault) ↔
      ∃ v ∈ readingOrder, v.Offends environment) ∧
    (∀ fault, Options.read environment = .error fault ↔
      ∃ front v back, readingOrder = front ++ v :: back ∧
        (∀ u ∈ front, ¬ u.Offends environment) ∧
        ∃ text, environment v.key = some text ∧ ¬ v.kind.Accepts text ∧
          fault = ⟨v.key, text, v.kind.reason text⟩) ∧
    (∀ fault, Options.read environment = .error fault →
      simulate environment observe = pure (.misread fault) ∧
      (Ending.misread fault).exitCode = 1 ∧
      (Ending.misread fault).complaint? =
        some ("Error: " ++ (fault.key ++ "=" ++ fault.value ++ ": " ++ fault.reason.message))) ∧
    (∀ o, Options.read environment = .ok o ↔ Gives environment o) ∧
    (∀ o, Options.read environment = .ok o →
      (simulate environment observe = do
        let site ← observe o
        pure (.ofOptions o site)) ∧
      ∀ site, (∀ fault, Ending.ofOptions o site ≠ .misread fault) ∧
        (∀ cause, Ending.ofOptions o site = .refused cause ↔
          o.config.validate site.stat = .error cause) ∧
        ∀ cause, perform o site = .error cause ↔ o.config.validate site.stat = .error cause) := by
  refine ⟨?_, fun fault => read_eq_error_iff.trans firstFault_iff, ?_, fun o => read_eq_ok_iff, ?_⟩
  · simp only [read_eq_error_iff]
    exact exists_firstFault_iff
  · intro fault misread
    exact ⟨by rw [simulate, misread], rfl, rfl⟩
  · intro o understood
    refine ⟨by rw [simulate, understood], fun site => ⟨Ending.ofOptions_ne_misread o site, ?_, ?_⟩⟩
    · exact fun _ => Ending.ofOptions_eq_refused_iff
    · exact fun _ => perform_eq_error_iff

namespace Sample

/-- The third and the fourth variable offend. -/
def spoiled (key : String) : Option String :=
  if key = "TOURNEY_SEED" then some "+007"
  else if key = "TOURNEY_CAPACITY" then some "1e3"
  else if key = "TOURNEY_METRIC" then some "speed"
  else none

/-- No worker, and no time limit. -/
def unmanned (key : String) : Option String :=
  if key = "TOURNEY_WORKERS" then some "00"
  else if key = "TOURNEY_TIME_LIMIT_SECS" then some "+000"
  else none

/-- Every path leads to a directory, at the beginning of time, and all draws are the lowest. -/
def site : Site where
  id := .nil
  stat := fun _ => .ok .directory
  refusal? := fun _ _ => none
  working := "/"
  draws := fun slot _ =>
    ⟨⟨0, by decide⟩, ⟨0, by decide⟩, ⟨0, by decide⟩, ⟨0, by decide⟩, ⟨0, folds_pos slot⟩⟩
  clock := ⟨0⟩
  time := ⟨0, 0⟩

end Sample

theorem exponent_is_complained_of_before_metric :
    (Ending.misread ⟨"TOURNEY_CAPACITY", "1e3", .number .invalidDigit⟩).complaint? =
        some "Error: TOURNEY_CAPACITY=1e3: invalid digit found in string" ∧
      simulate Sample.spoiled (fun _ => some Sample.site) =
        some (.misread ⟨"TOURNEY_CAPACITY", "1e3", .number .invalidDigit⟩) ∧
      ∃ o, Options.read Sample.unmanned = .ok o ∧ o.config.timeLimit = none ∧
        Ending.ofOptions o Sample.site = .refused (.config .noWorkers) := by
  obtain ⟨_, _, complains, _, _⟩ :=
    first_offending_variable_decides Sample.spoiled fun _ => some Sample.site
  obtain ⟨_, _, _, _, decided⟩ :=
    first_offending_variable_decides Sample.unmanned fun _ => some Sample.site
  obtain ⟨ending, _, text⟩ :=
    complains ⟨"TOURNEY_CAPACITY", "1e3", .number .invalidDigit⟩ (by decide)
  refine ⟨text, ending, _, rfl, rfl, ?_⟩
  obtain ⟨_, refused, _⟩ := (decided _ rfl).2 Sample.site
  exact (refused _).mpr rfl

end Simulation
end RankedSearch
