import PathAccess.Json.Part
import PathAccess.Path.Grammar
import PathAccess.Session
import PathAccess.Shape.Fitting
import PathAccess.Proofs.Chain.Linked
import PathAccess.Proofs.Plan.Evaluation
import PathAccess.Proofs.Chain.NullSafety
import PathAccess.Proofs.Chain.TypeSoundness
import PathAccess.Proofs.Json.TotalOrder
import PathAccess.Proofs.Path.Balance
import PathAccess.Proofs.Path.Contents
import PathAccess.Proofs.Path.Brackets
import PathAccess.Proofs.Path.Recognition
import PathAccess.Proofs.StableSort
import PathAccess.Proofs.Collection
import PathAccess.Proofs.Collection.Filtering
import PathAccess.Proofs.Text.Trimming
import PathAccess.Proofs.Path.Writing
import PathAccess.Proofs.Chain.Resolution
import PathAccess.Proofs.EscapedNames
import PathAccess.Proofs.Filter.Clause
import PathAccess.Proofs.Filter.Written
import PathAccess.Proofs.Filter.Field
import PathAccess.Proofs.WrittenFilters
import PathAccess.Proofs.Plan.Composition
import PathAccess.Proofs.Chain.Composition
import PathAccess.Proofs.Path.Rendering
import PathAccess.Proofs.Path.RoundTrip
import PathAccess.Proofs.Chain.NullRoot
import PathAccess.Proofs.Result.Fallback
import PathAccess.Proofs.Chain.Dynamic
import PathAccess.Proofs.Chain.Unsupported
import PathAccess.Proofs.Filter.Spelling
import PathAccess.Proofs.Filter.Typing
import PathAccess.Proofs.Chain.FailingLink
import PathAccess.Proofs.Plan.Provenance
import PathAccess.Proofs.Json.Equality
import PathAccess.Proofs.Comparison
import PathAccess.Proofs.Shape.Conversion
import PathAccess.Proofs.Chain.GuardTree
import PathAccess.Proofs.Path.Spellings
import PathAccess.Proofs.Path.Escaping
import PathAccess.Proofs.RestoredNames
import PathAccess.Proofs.Shape.Record
