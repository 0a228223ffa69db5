import Recordsmith.Main
import Recordsmith.Proofs.Computation
import Recordsmith.Proofs.Cursor
import Recordsmith.Proofs.Unfolding
import Recordsmith.Proofs.Sampling
import Recordsmith.Proofs.Fallback
import Recordsmith.Proofs.Visits
import Recordsmith.Proofs.Accounting
import Recordsmith.Proofs.Shape
import Recordsmith.Proofs.Composition
import Recordsmith.Proofs.Nesting
import Recordsmith.Proofs.Closure
import Recordsmith.Proofs.Stateless
import Recordsmith.Proofs.Interleaving
import Recordsmith.Proofs.CsvReading
import Recordsmith.Proofs.CsvRuns
import Recordsmith.Proofs.QuoteLayers
import Recordsmith.Proofs.Digits
import Recordsmith.Proofs.NumberReading
import Recordsmith.Proofs.StringSpelling
import Recordsmith.Proofs.JsonGrammar
import Recordsmith.Proofs.TokenReplacement
import Recordsmith.Proofs.Replacements
import Recordsmith.Proofs.JsonRoundTrip
import Recordsmith.Proofs.LineScanning
import Recordsmith.Proofs.InlineTemplates
import Recordsmith.Proofs.RecordLines
import Recordsmith.Proofs.LiteralTemplates
import Recordsmith.Proofs.BatchAccounts
import Recordsmith.Proofs.SequenceNumbers
import Recordsmith.Proofs.PatternSpelling
import Recordsmith.Proofs.QuotedPatterns
import Recordsmith.Proofs.Coverage
import Recordsmith.Proofs.LocalSteps
import Recordsmith.Proofs.PatternReading
import Recordsmith.Proofs.SignedSteps
import Recordsmith.Proofs.PatternRoundTrip
import Recordsmith.Proofs.GeneratedDates
import Recordsmith.Proofs.ExactSteps
import Recordsmith.Proofs.BoundedDraws
import Recordsmith.Proofs.Arguments
import Recordsmith.Proofs.ArgumentCuts
import Recordsmith.Proofs.TypedChoices
import Recordsmith.Proofs.Calls
import Recordsmith.Proofs.NowOffsets
import Recordsmith.Proofs.Repetition
import Recordsmith.Proofs.WorkerSeeds
