import ScimDirectory.Text.LetterCase
import ScimDirectory.Text.Blank
import ScimDirectory.Catalog
import ScimDirectory.Path
import ScimDirectory.Schema.Registry
import ScimDirectory.Filter.Fragment
import ScimDirectory.Filter.Escaping
import ScimDirectory.Filter.Compile
import ScimDirectory.Json.Basic
import ScimDirectory.Decimal.Shortest
import ScimDirectory.Text.Quoted
import ScimDirectory.Json.Reader
import ScimDirectory.Json.Decoder
import ScimDirectory.Filter.Json
import ScimDirectory.Discovery.Json
import ScimDirectory.Main
import ScimDirectory.Proofs.Checked
import ScimDirectory.Proofs.Path
import ScimDirectory.Proofs.Schema.Targets
import ScimDirectory.Proofs.Schema.Assembly
import ScimDirectory.Proofs.Schema.DeclaredResolution
import ScimDirectory.Proofs.DirectoryFilter.Assertion
import ScimDirectory.Proofs.DirectoryFilter.Reading
import ScimDirectory.Proofs.Filter.Compilation
import ScimDirectory.Proofs.Filter.ReadBack
import ScimDirectory.Proofs.Filter.Selection
import ScimDirectory.Proofs.Json.FlatObject
import ScimDirectory.Proofs.Filter.FlatFragment
import ScimDirectory.Proofs.Schema.Acceptance
import ScimDirectory.Proofs.Agreement
import ScimDirectory.Proofs.Filter.Agreement
import ScimDirectory.Proofs.Filter.Flattening
import ScimDirectory.Proofs.Filter.Injection
import ScimDirectory.Proofs.Schema.LetterCase
import ScimDirectory.Proofs.Filter.LetterCase
import ScimDirectory.Proofs.Rearrangement
import ScimDirectory.Proofs.Schema.DeclarationOrder
import ScimDirectory.Proofs.Filter.DeclarationOrder
import ScimDirectory.Proofs.Schema.Invariant
import ScimDirectory.Proofs.Schema.Reachability
import ScimDirectory.Proofs.Filter.StoredString
import ScimDirectory.Proofs.Schema.Growth
import ScimDirectory.Proofs.Filter.Growth
import ScimDirectory.Proofs.Schema.Placement
import ScimDirectory.Proofs.Discovery.Publication
import ScimDirectory.Proofs.Discovery.Identity
import ScimDirectory.Proofs.Json.RoundTrip
import ScimDirectory.Proofs.Json.Decoding
import ScimDirectory.Proofs.Declaration.RoundTrip
import ScimDirectory.Proofs.Filter.Failure
import ScimDirectory.Proofs.Filter.StoredSubstring
import ScimDirectory.Proofs.Discovery.Listing
import ScimDirectory.Proofs.Validator.Report
import ScimDirectory.Proofs.Schema.Modularity
import ScimDirectory.Proofs.Filter.StrictComparison
import ScimDirectory.Proofs.Filter.EscapedLiterals
import ScimDirectory.Proofs.Filter.QualifiedPaths
import ScimDirectory.Proofs.Discovery.Lookup
import ScimDirectory.Proofs.Discovery.RoundTrip
import ScimDirectory.Proofs.Filter.Display
import ScimDirectory.Proofs.Filter.LosslessEscaping
import ScimDirectory.Proofs.Access
import ScimDirectory.Proofs.Table
import ScimDirectory.Proofs.Schema.Access
