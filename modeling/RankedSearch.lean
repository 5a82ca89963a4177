import RankedSearch.Interchange.Config
import RankedSearch.Proofs.Registry.Entries
import RankedSearch.Proofs.Crew.Moves
import RankedSearch.Interchange.Outcome
import RankedSearch.Interchange.Worker
import RankedSearch.Json.Reader
import RankedSearch.Json.Text
import RankedSearch.Main
import RankedSearch.Script.Rehearsal
import RankedSearch.Simulation.Ending
import RankedSearch.Proofs.Run.Moves
import RankedSearch.Proofs.Run.Course
import RankedSearch.Proofs.Run.Joins
import RankedSearch.Proofs.Run.Collecting
import RankedSearch.Proofs.Run.Report
import RankedSearch.Proofs.Run.Entry
import RankedSearch.Proofs.Worker.Conclusion
import RankedSearch.Proofs.Reordering
import RankedSearch.Proofs.Run.Schedules
import RankedSearch.Proofs.ExactValue
import RankedSearch.Proofs.Run.Accounts
import RankedSearch.Proofs.Run.Return
import RankedSearch.Proofs.Run.Isolation
import RankedSearch.Proofs.Run.Panics
import RankedSearch.Proofs.Registry.Generations
import RankedSearch.Proofs.Registry.Projection
import RankedSearch.Proofs.Run.Slots
import RankedSearch.Proofs.Run.Cancellation
import RankedSearch.Proofs.Run.Result
import RankedSearch.Proofs.RawValues
import RankedSearch.Proofs.Crew.Stopping
import RankedSearch.Proofs.Interchange.ReadBack
import RankedSearch.Proofs.NumericOrder
import RankedSearch.Proofs.Continuation
import RankedSearch.Proofs.Crew.Effect
import RankedSearch.Proofs.Run.Exits
import RankedSearch.Proofs.Soundness
import RankedSearch.Proofs.Interchange.MetricNames
import RankedSearch.Proofs.Experiment.Lifecycle
import RankedSearch.Proofs.Simulation.Numerals
import RankedSearch.Proofs.Simulation.Reading
import RankedSearch.Proofs.Run.Lifecycle
import RankedSearch.Proofs.Run.Counters
