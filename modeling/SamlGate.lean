import SamlGate.CommandLine.FileTree
import SamlGate.CommandLine.Outcome
import SamlGate.Main
import SamlGate.Proofs.Login.Acceptance
import SamlGate.Proofs.Login.PostedSignature
import SamlGate.Proofs.Login.Pinning
import SamlGate.Proofs.Xml.Identifiers
import SamlGate.Proofs.Signature.Pipeline
import SamlGate.Proofs.Canonical.Cursor
import SamlGate.Proofs.Canonical.Declarations
import SamlGate.Proofs.Canonical.Document
import SamlGate.Proofs.Canonical.Prolog
import SamlGate.Proofs.Canonical.Visible
import SamlGate.Proofs.Login.Coverage
import SamlGate.Proofs.Login.Digested
import SamlGate.Proofs.Login.QuerySignature
import SamlGate.Proofs.Signature.Enveloped
import SamlGate.Proofs.Signature.SignedInfo
import SamlGate.Proofs.Canonical.NearestAncestor
import SamlGate.Proofs.Canonical.Envelope
import SamlGate.Proofs.Canonical.Retelling
import SamlGate.Proofs.Canonical.ReadBack
import SamlGate.Proofs.Canonical.RoundTrip
import SamlGate.Proofs.Codec.Inflation
import SamlGate.Proofs.Login.Payload
import SamlGate.Proofs.Login.Limits
import SamlGate.Proofs.Login.Carriers
import SamlGate.Proofs.Codec.Reading
import SamlGate.Proofs.Codec.Spelling
import SamlGate.Proofs.Login.Submission
import SamlGate.Proofs.Login.SignedQuery
import SamlGate.Proofs.Canonical.Comments
import SamlGate.Proofs.Signature.Commented
import SamlGate.Proofs.Canonical.WholeDocument
import SamlGate.Proofs.Canonical.Coincidence
import SamlGate.Proofs.Canonical.Reordering
import SamlGate.Proofs.Login.KeyInformation
import SamlGate.Proofs.Xml.References
import SamlGate.Proofs.Login.Decompression
import SamlGate.Proofs.CommandLine.Query
import SamlGate.Proofs.CommandLine.Summary
import SamlGate.Proofs.Canonical.Inheritance
import SamlGate.Proofs.Canonical.Entities
