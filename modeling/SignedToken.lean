import SignedToken.Arguments
import SignedToken.Base64
import SignedToken.Base64Url
import SignedToken.Binary64
import SignedToken.Binary64.Shortest
import SignedToken.Claim
import SignedToken.Claim.Display
import SignedToken.Claim.Freeze
import SignedToken.Claim.Jsonable
import SignedToken.Claim.Writer
import SignedToken.Clock
import SignedToken.CommandLine
import SignedToken.CommandLine.Run
import SignedToken.Compact
import SignedToken.Curve
import SignedToken.Curve.Ecdsa
import SignedToken.Defect
import SignedToken.Der
import SignedToken.Directory
import SignedToken.Directory.Path
import SignedToken.Directory.Steps
import SignedToken.Entries
import SignedToken.Error
import SignedToken.Header
import SignedToken.Json
import SignedToken.Json.Quoted
import SignedToken.Json.Reader
import SignedToken.Json.Writer
import SignedToken.Jwk
import SignedToken.Key
import SignedToken.Key.Ec
import SignedToken.Key.File
import SignedToken.Key.Foreign
import SignedToken.Key.Envelope
import SignedToken.KeyStore
import SignedToken.Log
import SignedToken.Main
import SignedToken.Octets
import SignedToken.Pem
import SignedToken.Profile
import SignedToken.Settings
import SignedToken.Sha2
import SignedToken.Signer
import SignedToken.Stack
import SignedToken.Task
import SignedToken.Text
import SignedToken.Text.Blank
import SignedToken.Text.Digit
import SignedToken.Text.Encoding
import SignedToken.Text.Integer
import SignedToken.Text.Printable
import SignedToken.Text.Utf8
import SignedToken.Token
import SignedToken.Token.Lifetime
import SignedToken.Token.Schema
import SignedToken.Verifier
import SignedToken.Proofs.Base64
import SignedToken.Proofs.Base64Url
import SignedToken.Proofs.Pem
import SignedToken.Proofs.Der
import SignedToken.Proofs.Octets
import SignedToken.Proofs.Text.Pieces
import SignedToken.Proofs.Compact
import SignedToken.Proofs.Binary64.Nearest
import SignedToken.Proofs.Binary64.Shortest
import SignedToken.Proofs.Entries
import SignedToken.Proofs.Header
import SignedToken.Proofs.Text.Decimal
import SignedToken.Proofs.Text.Order
import SignedToken.Proofs.Verifier.Acceptance
import SignedToken.Proofs.Claim
import SignedToken.Proofs.Claim.Canonical
import SignedToken.Proofs.Claim.Equal
import SignedToken.Proofs.Claim.Jsonable
import SignedToken.Proofs.Curve.Ecdsa
import SignedToken.Proofs.Signer.Transparency
import SignedToken.Proofs.Token.Built
import SignedToken.Proofs.Token.Defects
import SignedToken.Proofs.Verifier.Rejection
import SignedToken.Proofs.Verifier.Stages
import SignedToken.Proofs.Verifier.Malleability
import SignedToken.Proofs.Verifier.Session
import SignedToken.Proofs.Signer.Issuance
import SignedToken.Proofs.Claim.Stack
import SignedToken.Proofs.Json.Grammar
import SignedToken.Proofs.Json.Numbers
import SignedToken.Proofs.Json.Reordered
import SignedToken.Proofs.Claim.Alike
import SignedToken.Proofs.Claim.Data
import SignedToken.Proofs.Claim.Rearranged
import SignedToken.Proofs.Claim.Parsed
import SignedToken.Proofs.Token.Unique
import SignedToken.Proofs.Token.Rearranged
import SignedToken.Proofs.Signer.Report
import SignedToken.Proofs.Directory
import SignedToken.Proofs.Directory.Path
import SignedToken.Proofs.Directory.Steps
import SignedToken.Proofs.Directory.Fresh
import SignedToken.Proofs.KeyStore.Paths
import SignedToken.Proofs.KeyStore.Replacement
import SignedToken.Proofs.KeyStore.Generation
import SignedToken.Proofs.KeyStore.Loading
import SignedToken.Proofs.KeyStore.Effects
import SignedToken.Proofs.Key.Ec
import SignedToken.Proofs.Key.File
import SignedToken.Proofs.KeyStore.RoundTrip
import SignedToken.Proofs.CommandLine.Line
import SignedToken.Proofs.Arguments
import SignedToken.Proofs.CommandLine
import SignedToken.Proofs.Error
import SignedToken.Proofs.KeyStore.Report
import SignedToken.Proofs.CommandLine.Run
import SignedToken.Proofs.CommandLine.Effects
import SignedToken.Proofs.CommandLine.RoundTrip
import SignedToken.Proofs.Token.Parsed
import SignedToken.Proofs.Token.Agreement
import SignedToken.Proofs.Base64Url.Canonical
import SignedToken.Proofs.Signer.Wire
import SignedToken.Proofs.Key.Contents
import SignedToken.Proofs.KeyStore.Profiles
import SignedToken.Proofs.Curve.Residue
import SignedToken.Proofs.Curve.Primality
import SignedToken.Proofs.Curve.Certificates
import SignedToken.Proofs.Curve.Group
import SignedToken.Proofs.Curve.Order
import SignedToken.Proofs.Pem.Frame
import SignedToken.Proofs.Key.Envelope
import SignedToken.Proofs.Key.Point
import SignedToken.Proofs.Key.Encodings
import SignedToken.Proofs.KeyStore.Encodings
import SignedToken.Proofs.Claim.Frozen
import SignedToken.Proofs.Base64Url.Width
import SignedToken.Proofs.Jwk
import SignedToken.Proofs.KeyStore.Jwk
import SignedToken.Proofs.CommandLine.Export
