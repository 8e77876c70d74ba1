import FilterLang.Main
import FilterLang.Proofs.Filter.Equality
import FilterLang.Proofs.Filter.Subtree
import FilterLang.Proofs.Filter.Traversal
import FilterLang.Proofs.Normal.Clause
import FilterLang.Proofs.Normal.Range
import FilterLang.Proofs.Normal.Canonical
import FilterLang.Proofs.Normal.ExplicitRange
import FilterLang.Proofs.Normal.Meaning
import FilterLang.Proofs.Normal.Preservation
import FilterLang.Proofs.Normal.Fields
import FilterLang.Proofs.Validation.UnknownFields
import FilterLang.Proofs.Session
import FilterLang.Proofs.Normal.Congruence
import FilterLang.Proofs.Validation.Checked
import FilterLang.Proofs.Validation.Order
import FilterLang.Proofs.Validation.Clauses
import FilterLang.Proofs.Validation.Verdict
import FilterLang.Proofs.Filter.Place
import FilterLang.Proofs.Validation.Conformance
import FilterLang.Proofs.Validation.Culprits
import FilterLang.Proofs.Validation.Isolation
import FilterLang.Proofs.Validation.SoleClause
import FilterLang.Proofs.Validation.Delegation
import FilterLang.Proofs.Validation.Shape
import FilterLang.Proofs.Filter.Text
import FilterLang.Proofs.Normal.Text
import FilterLang.Proofs.Filter.Reordering
import FilterLang.Proofs.Normal.Clausewise
import FilterLang.Dataset.Requests
import FilterLang.Proofs.Dataset.Check
import FilterLang.Proofs.Dataset.Requests
import FilterLang.Proofs.Config.Field
import FilterLang.Proofs.Config.Registry
import FilterLang.Proofs.Normal.Constraints
import FilterLang.Proofs.Normal.Grammar
import FilterLang.Proofs.Normal.Sequences
import FilterLang.Proofs.Normal.StackedRange
import FilterLang.Proofs.Validation.Fields
import FilterLang.Proofs.Validation.Shuffling
import FilterLang.Proofs.Filter.Reading
import FilterLang.Proofs.Validation.Reading
import FilterLang.Proofs.Number.Nearest
import FilterLang.Proofs.Dataset.Limits
import FilterLang.Proofs.Calendar.Reading
import FilterLang.Proofs.Config.Fit
import FilterLang.Proofs.Validation.Path
import FilterLang.Proofs.Validation.Reporting
import FilterLang.Proofs.CommandLine.Replies
