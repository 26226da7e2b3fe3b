import PairingWire.Document
import PairingWire.Element.Group
import PairingWire.KeySelection
import PairingWire.Proofs.Batch
import PairingWire.Proofs.Canonical
import PairingWire.Proofs.Coordinate.Recovery
import PairingWire.Proofs.Curve.Scalars
import PairingWire.Proofs.Decoding
import PairingWire.Proofs.Detection
import PairingWire.Proofs.Document
import PairingWire.Proofs.Expressible
import PairingWire.Proofs.FlagOctet
import PairingWire.Proofs.Framing
import PairingWire.Proofs.Guarded.Basic
import PairingWire.Proofs.Guarded.Codec
import PairingWire.Proofs.Header.Legal
import PairingWire.Proofs.Interchange
import PairingWire.Proofs.Json.Grammar
import PairingWire.Proofs.Json.Reader
import PairingWire.Proofs.Json.Render
import PairingWire.Proofs.Karabina.Compression
import PairingWire.Proofs.Layout.NativeSpelling
import PairingWire.Proofs.Layout.SignOrder
import PairingWire.Proofs.Migration
import PairingWire.Proofs.Outcome
import PairingWire.Proofs.Pairing.Product
import PairingWire.Proofs.Primality
import PairingWire.Proofs.Quadratic.Square
import PairingWire.Proofs.Refusal
import PairingWire.Proofs.Residue
import PairingWire.Proofs.Residue.FixedWidth
import PairingWire.Proofs.Residue.Hex
import PairingWire.Proofs.Residue.Root
import PairingWire.Proofs.Residue.Search.Loops
import PairingWire.Proofs.Session
import PairingWire.Proofs.Session.Laws
import PairingWire.Proofs.Soundness
import PairingWire.Proofs.Spelling
import PairingWire.Proofs.Storage
import PairingWire.Proofs.Taxonomy
import PairingWire.Proofs.Tower.Field
import PairingWire.Proofs.Validation
import PairingWire.Residue.Sampling
