import PolicyGradient.Agent.Construction
import PolicyGradient.Config.Document
import PolicyGradient.Document.Printer
import PolicyGradient.Document.Reader
import PolicyGradient.Loss.Diagnostic
import PolicyGradient.Model.Perceptron
import PolicyGradient.Task.Synthetic
import PolicyGradient.Weights.Document
import PolicyGradient.Proofs.Outcome
import PolicyGradient.Proofs.Block
import PolicyGradient.Proofs.Range
import PolicyGradient.Proofs.Load
import PolicyGradient.Proofs.Restore
import PolicyGradient.Proofs.Update
import PolicyGradient.Proofs.Moments
import PolicyGradient.Proofs.Reached
import PolicyGradient.Proofs.Sound
import PolicyGradient.Proofs.Copy
import PolicyGradient.Proofs.Atomic
import PolicyGradient.Proofs.Agents
import PolicyGradient.Proofs.Sharing
import PolicyGradient.Proofs.Alike
import PolicyGradient.Proofs.Resume
import PolicyGradient.Proofs.Gradients
import PolicyGradient.Proofs.OwnState
import PolicyGradient.Proofs.Lockstep
import PolicyGradient.Proofs.Shapes
import PolicyGradient.Proofs.PolicyInputs
import PolicyGradient.Proofs.Scoring
import PolicyGradient.Proofs.Setup
import PolicyGradient.Proofs.PolicyBatches
import PolicyGradient.Proofs.Steps
import PolicyGradient.Proofs.Twins
import PolicyGradient.Proofs.LiveWeights
import PolicyGradient.Proofs.Events
import PolicyGradient.Proofs.Deliveries
import PolicyGradient.Proofs.Refusals
import PolicyGradient.Proofs.Requests
import PolicyGradient.Proofs.Snapshots
import PolicyGradient.Proofs.Rows
import PolicyGradient.Proofs.FailedSteps
import PolicyGradient.Proofs.Progress
import PolicyGradient.Proofs.Contained
import PolicyGradient.Proofs.Restorable
import PolicyGradient.Proofs.Counters
import PolicyGradient.Proofs.Epochs
import PolicyGradient.Proofs.Renaming
import PolicyGradient.Proofs.ValueSide
import PolicyGradient.Proofs.Portions
import PolicyGradient.Proofs.Grouping
import PolicyGradient.Proofs.RowText
import PolicyGradient.Proofs.FixedText
import PolicyGradient.Proofs.Locations
import PolicyGradient.Proofs.MetricsFile
import PolicyGradient.Proofs.Runs
import PolicyGradient.Proofs.Padding
import PolicyGradient.Proofs.Windows
import PolicyGradient.Proofs.Alignment
import PolicyGradient.Proofs.Exact
import PolicyGradient.Proofs.Horizon
import PolicyGradient.Proofs.Fields
import PolicyGradient.Proofs.Overlay
import PolicyGradient.Proofs.Layouts
import PolicyGradient.Proofs.SettingsText
import PolicyGradient.Proofs.Ragged
import PolicyGradient.Proofs.Sums
import PolicyGradient.Proofs.Diagnostics
import PolicyGradient.Proofs.ListForms
import PolicyGradient.Proofs.Clipping
import PolicyGradient.Proofs.Pointwise
import PolicyGradient.Proofs.Masking
import PolicyGradient.Proofs.Mismatch
import PolicyGradient.Proofs.Replacement
import PolicyGradient.Proofs.Loading
import PolicyGradient.Proofs.Acceptance
import PolicyGradient.Proofs.NormClipping
import PolicyGradient.Proofs.Caps
import PolicyGradient.Proofs.Addresses
import PolicyGradient.Proofs.DueSteps
import PolicyGradient.Proofs.MismatchReports
import PolicyGradient.Proofs.SliceLength
import PolicyGradient.Proofs.Folders
import PolicyGradient.Proofs.TwoTables
import PolicyGradient.Proofs.EpochNumbers
