import TokenBridge.Digest.Sha256
import TokenBridge.Digest.Sha512
import TokenBridge.Bytes
import TokenBridge.Curve.Field
import TokenBridge.Curve.Point
import TokenBridge.Curve.Signature
import TokenBridge.Text.Utf8
import TokenBridge.Text.Blank
import TokenBridge.Text.Quoted
import TokenBridge.Text.Hex
import TokenBridge.Text.Base58
import TokenBridge.Address
import TokenBridge.Address.Derived
import TokenBridge.Wire.Fault
import TokenBridge.Wire.Layout
import TokenBridge.Record.Config
import TokenBridge.Record.Route
import TokenBridge.Record.TransferLog
import TokenBridge.Command
import TokenBridge.Relay.LogLine
import TokenBridge.Relay.Sequencer
import TokenBridge.Program.Rejection
import TokenBridge.Tx.Instruction
import TokenBridge.Tx.Builder
import TokenBridge.Tx.System
import TokenBridge.Tx.Token
import TokenBridge.Tx.Message
import TokenBridge.Tx.Transaction
import TokenBridge.Tx.Request
import TokenBridge.Toml.Node
import TokenBridge.Toml.Scalar
import TokenBridge.Toml.Document
import TokenBridge.Ledger.Table
import TokenBridge.Ledger.State
import TokenBridge.Ledger.Accounts
import TokenBridge.Ledger.Tokens
import TokenBridge.Ledger.BridgeProgram
import TokenBridge.Ledger.Basic
import TokenBridge.Client.Error
import TokenBridge.Client.Flows
import TokenBridge.Client.Settings
import TokenBridge.Scenario
import TokenBridge.Main
import TokenBridge.Proofs.Utf8Inverse
import TokenBridge.Proofs.FieldCodec
import TokenBridge.Proofs.RecordCodec
import TokenBridge.Proofs.CommandCodec
import TokenBridge.Proofs.Commit
import TokenBridge.Proofs.Effects
import TokenBridge.Proofs.LogLines
import TokenBridge.Proofs.Handlers
import TokenBridge.Proofs.RouteIndex
import TokenBridge.Proofs.TokenEffects
import TokenBridge.Proofs.HandlerEffects
import TokenBridge.Proofs.Supply
import TokenBridge.Proofs.TokenAuthority
import TokenBridge.Proofs.Governance
import TokenBridge.Proofs.RouteLimits
import TokenBridge.Proofs.Lamports
import TokenBridge.Proofs.Aborts
import TokenBridge.Proofs.LogReading
import TokenBridge.Proofs.Sequencing
import TokenBridge.Proofs.ReadBack
import TokenBridge.Proofs.BuilderFlags
import TokenBridge.Proofs.DerivedAuthority
import TokenBridge.Proofs.Submission
import TokenBridge.Proofs.Settlement
import TokenBridge.Proofs.BridgeFlow
import TokenBridge.Proofs.GovernanceFlow
import TokenBridge.Proofs.BridgeOutTokens
import TokenBridge.Proofs.CreationFlow
import TokenBridge.Proofs.Interleaving
import TokenBridge.Proofs.ConcurrentBridges
import TokenBridge.Proofs.SequencerLaw
import TokenBridge.Proofs.DecodeFaults
import TokenBridge.Proofs.SignerCompleteness
import TokenBridge.Proofs.Refusals
import TokenBridge.Proofs.RejectionKinds
