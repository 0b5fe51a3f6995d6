import TrainingJob.Text.UppercaseTable
import TrainingJob.Text.Uppercase
import TrainingJob.Json.Quoted
import TrainingJob.Json.Value
import TrainingJob.Json.Fields
import TrainingJob.Json.Numeral
import TrainingJob.Json.Token
import TrainingJob.Json.Reader
import TrainingJob.Json.Writer
import TrainingJob.Schema.Basic
import TrainingJob.Schema.Location
import TrainingJob.Error
import TrainingJob.Schema.Validation
import TrainingJob.Record.Codec
import TrainingJob.Record.Layout
import TrainingJob.Record.Basic
import TrainingJob.Record.Document
import TrainingJob.Record.Assignment
import TrainingJob.Record.Projection
import TrainingJob.Submission.Artifacts
import TrainingJob.Submission.Channel
import TrainingJob.Submission.Cluster
import TrainingJob.Submission.Image
import TrainingJob.Submission.Labels
import TrainingJob.Submission.Limits
import TrainingJob.Submission.Switches
import TrainingJob.Settings.Artifacts
import TrainingJob.Settings.Cluster
import TrainingJob.Settings.Input
import TrainingJob.Settings.Source
import TrainingJob.Catalogue
import TrainingJob.Conversion
import TrainingJob.Proofs.Utf8
import TrainingJob.Proofs.Json.Alike
import TrainingJob.Proofs.Json.Quoted
import TrainingJob.Proofs.Json.Spelling
import TrainingJob.Proofs.Json.Numeral
import TrainingJob.Proofs.Json.Magnitude
import TrainingJob.Proofs.Json.Tokens
import TrainingJob.Proofs.Json.Lexemes
import TrainingJob.Proofs.Json.Phrases
import TrainingJob.Proofs.Json.Text
import TrainingJob.Proofs.Json.Replacement
import TrainingJob.Proofs.Schema.Acceptance
import TrainingJob.Proofs.Schema.Conformance
import TrainingJob.Proofs.Schema.Faults
import TrainingJob.Proofs.Schema.Entries
import TrainingJob.Proofs.Schema.Paths
import TrainingJob.Proofs.Schema.Places
import TrainingJob.Proofs.Schema.Violations
import TrainingJob.Proofs.Schema.NormalForm
import TrainingJob.Proofs.Schema.ReadBack
import TrainingJob.Proofs.Schema.Reordering
import TrainingJob.Proofs.Schema.Integers
import TrainingJob.Proofs.Schema.Substitution
import TrainingJob.Proofs.Record.Codec
import TrainingJob.Proofs.Record.Layout
import TrainingJob.Proofs.Record.Lawful
import TrainingJob.Proofs.Record.Assignment
import TrainingJob.Proofs.Record.Projection
import TrainingJob.Proofs.Record.Relaxation
import TrainingJob.Proofs.Catalogue
import TrainingJob.Proofs.Documents
import TrainingJob.Proofs.Verdict
import TrainingJob.Proofs.Dumps
import TrainingJob.Proofs.Assignments
import TrainingJob.Proofs.Vocabulary
import TrainingJob.Proofs.Projections
import TrainingJob.Proofs.Conversions
import TrainingJob.Proofs.Diagnosis
import TrainingJob.Proofs.FirstFault
import TrainingJob.Proofs.Explanations
import TrainingJob.Proofs.MemberOrder
import TrainingJob.Proofs.DataLocations
import TrainingJob.Proofs.Normalization
import TrainingJob.Proofs.Files
import TrainingJob.Proofs.Integers
