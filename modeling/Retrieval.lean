import Retrieval.Analyzer
import Retrieval.Arguments
import Retrieval.Batch
import Retrieval.Buffer
import Retrieval.Collection
import Retrieval.Cursor.Basic
import Retrieval.Cursor.Matching
import Retrieval.Cursor.Opening
import Retrieval.Cursor.Proximity
import Retrieval.Cursor.Reader
import Retrieval.Error
import Retrieval.Evaluation
import Retrieval.Failure
import Retrieval.Feedback
import Retrieval.Field
import Retrieval.File
import Retrieval.FileTree
import Retrieval.Host
import Retrieval.Index
import Retrieval.Json.Read
import Retrieval.Json.Value
import Retrieval.Main
import Retrieval.Model
import Retrieval.Number.Arithmetic
import Retrieval.Number.Binary
import Retrieval.Number.Numeral
import Retrieval.Number.Parts
import Retrieval.Number.Shortest
import Retrieval.Operator
import Retrieval.Parameters
import Retrieval.Posting
import Retrieval.Query.Parse
import Retrieval.Query.Prune
import Retrieval.Query.Token
import Retrieval.Query.Tree
import Retrieval.Ranking
import Retrieval.Row
import Retrieval.Scoring
import Retrieval.Shell
import Retrieval.Shortlist
import Retrieval.Sorting.Quick
import Retrieval.Sorting.Short
import Retrieval.Statistics
import Retrieval.Tally
import Retrieval.Text.Alphanumeric
import Retrieval.Text.Blank
import Retrieval.Text.Casing
import Retrieval.Text.CodeRange
import Retrieval.Text.Lowercase
import Retrieval.Text.Run
import Retrieval.Proofs.Cursor.Documents
import Retrieval.Proofs.Cursor.Shape
import Retrieval.Proofs.Cursor.Standing
import Retrieval.Proofs.Cursor.Ending
import Retrieval.Proofs.Cursor.Search
import Retrieval.Proofs.Scoring.ByDocument
import Retrieval.Proofs.Scoring.Answers
import Retrieval.Proofs.Scoring.Matches
import Retrieval.Proofs.Evaluation.Scan
import Retrieval.Proofs.Cursor.Protocol
import Retrieval.Proofs.Query.Grammar
import Retrieval.Proofs.Query.RoundTrip
import Retrieval.Proofs.Query.Parts
import Retrieval.Proofs.Query.Trimmed
import Retrieval.Proofs.Query.WellFormed
import Retrieval.Proofs.Query.Unambiguous
import Retrieval.Proofs.Cursor.Movement
import Retrieval.Proofs.Posting.WellFormed
import Retrieval.Proofs.Number.Exact
import Retrieval.Proofs.Scoring.Probability
import Retrieval.Proofs.Scoring.Rising
import Retrieval.Proofs.Posting.Lengths
import Retrieval.Proofs.Query.Pruned
import Retrieval.Proofs.Evaluation.Probabilities
import Retrieval.Proofs.Evaluation.Defaults
import Retrieval.Proofs.Scoring.Summands
import Retrieval.Proofs.Number.Magnitude
import Retrieval.Proofs.Query.Expansion
import Retrieval.Proofs.Evaluation.Failures
import Retrieval.Proofs.Number.Sums
import Retrieval.Proofs.Feedback.AddedTerms
import Retrieval.Proofs.Feedback.Weights
import Retrieval.Proofs.Feedback.Undefined
import Retrieval.Proofs.Posting.Intersection
import Retrieval.Proofs.Posting.Positions
import Retrieval.Proofs.Posting.Chains
import Retrieval.Proofs.Posting.Union
import Retrieval.Proofs.Posting.Choices
import Retrieval.Proofs.Posting.Resets
import Retrieval.Proofs.Posting.Spans
import Retrieval.Proofs.Posting.Permuted
import Retrieval.Proofs.Evaluation.Pruning
import Retrieval.Proofs.Number.Order
import Retrieval.Proofs.Text.Columns
import Retrieval.Proofs.Feedback.FirstRankings
import Retrieval.Proofs.Batch.Files
import Retrieval.Proofs.Batch.Outcomes
import Retrieval.Proofs.Batch.Recording
import Retrieval.Proofs.Batch.Run
import Retrieval.Proofs.Batch.Ranges
import Retrieval.Proofs.Feedback.Known
import Retrieval.Proofs.Query.Sound
import Retrieval.Proofs.Feedback.Selection
import Retrieval.Proofs.Text.Runs
import Retrieval.Proofs.Text.Lowercase
import Retrieval.Proofs.Text.Distinct
import Retrieval.Proofs.Analysis.Stable
import Retrieval.Proofs.Analysis.Stopwords
import Retrieval.Proofs.Feedback.UsableLines
import Retrieval.Proofs.Posting.Counts
import Retrieval.Proofs.Cursor.Reopening
import Retrieval.Proofs.Scoring.TermScores
import Retrieval.Proofs.Scoring.Means
import Retrieval.Proofs.Text.Trimming
import Retrieval.Proofs.Batch.QueryLines
import Retrieval.Proofs.Batch.ExpansionFile
import Retrieval.Proofs.Query.Scanning
import Retrieval.Proofs.Analysis.OnePass
import Retrieval.Proofs.Posting.Rounds
import Retrieval.Proofs.Cursor.Leaping
import Retrieval.Proofs.Cursor.Rewinding
import Retrieval.Proofs.Cursor.CommonDocuments
