import PatchReview.Chunk
import PatchReview.Comment.Basic
import PatchReview.Comment.Category
import PatchReview.Comment.Placement
import PatchReview.Comment.Reading
import PatchReview.Comment.Session
import PatchReview.Comment.Verification
import PatchReview.Definition
import PatchReview.Diff.Basic
import PatchReview.Diff.Printer
import PatchReview.Diff.Reader
import PatchReview.Graph.Basic
import PatchReview.Graph.Relevance
import PatchReview.Graph.Resolver
import PatchReview.Graph.Survey
import PatchReview.Json.Literal
import PatchReview.Json.Reader
import PatchReview.Json.Value
import PatchReview.Json.Writer
import PatchReview.Json.Written
import PatchReview.Limit
import PatchReview.Number.Double
import PatchReview.Number.Rounding
import PatchReview.Outline
import PatchReview.Path
import PatchReview.Proofs.Chunk.Packing
import PatchReview.Proofs.Chunk.Summary
import PatchReview.Proofs.Comment.Agreement
import PatchReview.Proofs.Comment.Filtering
import PatchReview.Proofs.Comment.FirstLoad
import PatchReview.Proofs.Comment.Greedy
import PatchReview.Proofs.Comment.Intake
import PatchReview.Proofs.Comment.LineCheck
import PatchReview.Proofs.Comment.Listing
import PatchReview.Proofs.Comment.Loading
import PatchReview.Proofs.Comment.Misplacement
import PatchReview.Proofs.Comment.Online
import PatchReview.Proofs.Comment.Placement
import PatchReview.Proofs.Comment.Ranking
import PatchReview.Proofs.Comment.Recheck
import PatchReview.Proofs.Comment.Relocation
import PatchReview.Proofs.Comment.Session
import PatchReview.Proofs.Comment.Spelling
import PatchReview.Proofs.Comment.Unshared
import PatchReview.Proofs.Diff.Bare
import PatchReview.Proofs.Diff.Creation
import PatchReview.Proofs.Diff.Entries
import PatchReview.Proofs.Diff.Header
import PatchReview.Proofs.Diff.Printer
import PatchReview.Proofs.Diff.Refusal
import PatchReview.Proofs.Diff.RoundTrip
import PatchReview.Proofs.Diff.Seam
import PatchReview.Proofs.Diff.Step
import PatchReview.Proofs.Diff.Totals
import PatchReview.Proofs.Diff.WellFormed
import PatchReview.Proofs.Except
import PatchReview.Proofs.Graph.Containment
import PatchReview.Proofs.Graph.FirstLook
import PatchReview.Proofs.Graph.Hotspots
import PatchReview.Proofs.Graph.Locality
import PatchReview.Proofs.Graph.Neighbors
import PatchReview.Proofs.Graph.Relevance
import PatchReview.Proofs.Graph.Resolver
import PatchReview.Proofs.Graph.Survey
import PatchReview.Proofs.Json.Literal
import PatchReview.Proofs.Json.Numeral
import PatchReview.Proofs.Json.RoundTrip
import PatchReview.Proofs.Number.Rounding
import PatchReview.Proofs.Outline
import PatchReview.Proofs.Outline.Account
import PatchReview.Proofs.Outline.Growth
import PatchReview.Proofs.Outline.LocalExport
import PatchReview.Proofs.Path
import PatchReview.Proofs.Record
import PatchReview.Proofs.Review
import PatchReview.Proofs.Script.Order
import PatchReview.Proofs.Script.Reading
import PatchReview.Proofs.Similarity.Likeness
import PatchReview.Proofs.Similarity.Overlap
import PatchReview.Proofs.Similarity.Score
import PatchReview.Proofs.Similarity.Script
import PatchReview.Proofs.Similarity.SharedWords
import PatchReview.Proofs.Similarity.Subsequence
import PatchReview.Proofs.Similarity.Words
import PatchReview.Proofs.Text.Letter
import PatchReview.Proofs.Text.Lines
import PatchReview.Proofs.Text.Words
import PatchReview.Proofs.Tree.Confinement
import PatchReview.Proofs.Tree.Discovery
import PatchReview.Proofs.Tree.Lines
import PatchReview.Proofs.Tree.Resolution
import PatchReview.Proofs.Tree.Shape
import PatchReview.Proofs.Tree.Sources
import PatchReview.Proofs.Tree.Standing
import PatchReview.Record.Diff
import PatchReview.Record.Graph
import PatchReview.Record.Issue
import PatchReview.Record.Reader
import PatchReview.Regex.Basic
import PatchReview.Regex.Reader
import PatchReview.Review
import PatchReview.Script.Dialect
import PatchReview.Script.Grammar
import PatchReview.Script.Item
import PatchReview.Script.Rule
import PatchReview.Script.Source
import PatchReview.Script.Token
import PatchReview.Settings.Basic
import PatchReview.Settings.Dotenv
import PatchReview.Similarity.Score
import PatchReview.Similarity.Subsequence
import PatchReview.Similarity.Words
import PatchReview.SourceFile
import PatchReview.Text.Blank
import PatchReview.Text.Case
import PatchReview.Text.Digits
import PatchReview.Text.Letter
import PatchReview.Text.Lines
import PatchReview.Text.Quoted
import PatchReview.Text.Utf8
import PatchReview.Tree.Basic
import PatchReview.Tree.Discovery
import PatchReview.Tree.Lines
import PatchReview.Tree.Resolution
