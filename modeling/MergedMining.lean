import MergedMining.AuxProof
import MergedMining.BlockHeader
import MergedMining.Borsh
import MergedMining.Bytes
import MergedMining.CommandLine.Grammar
import MergedMining.CommandLine.Report
import MergedMining.CommandLine.Request
import MergedMining.CommandLine.Tool
import MergedMining.Commitment
import MergedMining.Decimal.Binary64
import MergedMining.Decimal.Shortest
import MergedMining.Decoding.Mismatch
import MergedMining.FileTree
import MergedMining.Fixture.ParentBlock
import MergedMining.Fixture.Sampling
import MergedMining.Hash256
import MergedMining.Hex
import MergedMining.Json.Node
import MergedMining.Json.Numeral
import MergedMining.Json.Reader
import MergedMining.Json.Token
import MergedMining.Logging.Config
import MergedMining.Logging.Event
import MergedMining.Logging.File
import MergedMining.Logging.Line
import MergedMining.Logging.Moment
import MergedMining.Logging.WorkEvents
import MergedMining.Main
import MergedMining.MergedHeader
import MergedMining.Merkle.Branch
import MergedMining.Merkle.Json
import MergedMining.Merkle.Tree
import MergedMining.Merkle.Wire
import MergedMining.Mining
import MergedMining.Params.Basic
import MergedMining.Params.Draft
import MergedMining.Params.File
import MergedMining.Params.Json
import MergedMining.Params.Toml
import MergedMining.Power
import MergedMining.Proofs.AuxProof.Binding
import MergedMining.Proofs.AuxProof.Effort
import MergedMining.Proofs.AuxProof.Position
import MergedMining.Proofs.AuxProof.Rules
import MergedMining.Proofs.AuxProof.Sharing
import MergedMining.Proofs.Borsh
import MergedMining.Proofs.Coinbase
import MergedMining.Proofs.Commitment.Grammar
import MergedMining.Proofs.Commitment.Occurrence
import MergedMining.Proofs.Commitment.Pushed
import MergedMining.Proofs.Commitment.Uniqueness
import MergedMining.Proofs.Fixture.Acceptance
import MergedMining.Proofs.Guarded.Verdict
import MergedMining.Proofs.Json.Written
import MergedMining.Proofs.MergedHeader.Acceptance
import MergedMining.Proofs.MergedHeader.Canonical
import MergedMining.Proofs.MergedHeader.Edits
import MergedMining.Proofs.MergedHeader.Legacy
import MergedMining.Proofs.MergedHeader.RoundTrip
import MergedMining.Proofs.MergedHeader.Unread
import MergedMining.Proofs.Merkle.Binding
import MergedMining.Proofs.Merkle.LeafBinding
import MergedMining.Proofs.Merkle.Levels
import MergedMining.Proofs.Merkle.Opening
import MergedMining.Proofs.Merkle.Path
import MergedMining.Proofs.Merkle.Wire
import MergedMining.Proofs.Mining
import MergedMining.Proofs.Params.Files
import MergedMining.Proofs.Slot
import MergedMining.Proofs.Slot.Residues
import MergedMining.Proofs.Tampering
import MergedMining.Proofs.Target.Decoding
import MergedMining.Proofs.Target.Expansion
import MergedMining.Proofs.Transaction
import MergedMining.Proofs.Verdict
import MergedMining.Proofs.Version.Bijection
import MergedMining.Proofs.Version.Fields
import MergedMining.Proofs.Version.Text
import MergedMining.Proofs.Wire.Canonical
import MergedMining.Proofs.Wire.Counted
import MergedMining.Proofs.Wire.Framing
import MergedMining.Proofs.Work
import MergedMining.Rejection
import MergedMining.Script
import MergedMining.Sha256
import MergedMining.Slot
import MergedMining.Target
import MergedMining.Text.Blank
import MergedMining.Text.Integer
import MergedMining.Text.Plain
import MergedMining.Text.Quoted
import MergedMining.Toml.Document
import MergedMining.Toml.Reader
import MergedMining.Toml.Scalar
import MergedMining.Toml.Soundness
import MergedMining.Toml.Token
import MergedMining.Toml.Value
import MergedMining.Transaction
import MergedMining.Version
import MergedMining.Version.Text
import MergedMining.Wire.Reader
import MergedMining.Wire.VarInt
