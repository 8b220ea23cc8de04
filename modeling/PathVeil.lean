import PathVeil.Pattern.Basic
import PathVeil.Rule.Validation
import PathVeil.Rule.Overlay
import PathVeil.Rule.Activation
import PathVeil.Rule.Cache
import PathVeil.Summary
import PathVeil.Filter
import PathVeil.Stream
import PathVeil.Report
import PathVeil.Json.Forms
import PathVeil.Yaml.Node
import PathVeil.Session
import PathVeil.Main
import PathVeil.Proofs.Pattern.Secrecy
import PathVeil.Proofs.Engine.Disclosure
import PathVeil.Proofs.Filter.Agreement
import PathVeil.Proofs.Rule.Cache
import PathVeil.Rule.Contention
import PathVeil.Proofs.Rule.Contention
import PathVeil.Proofs.Rule.Validity
import PathVeil.Proofs.Stream.Batch
import PathVeil.Proofs.Rule.Sharing
import PathVeil.Proofs.Stream.LineEndings
import PathVeil.Proofs.Stream.Alignment
import PathVeil.Proofs.Stream.Totals
import PathVeil.Proofs.World.Returns
import PathVeil.Proofs.Configuration.Names
import PathVeil.Proofs.Configuration.Selection
import PathVeil.Proofs.Engine.Order
import PathVeil.Proofs.FileTree.Writing
import PathVeil.Proofs.World.Fails
import PathVeil.Proofs.Command.Stages
import PathVeil.Proofs.Command.Failure
import PathVeil.Proofs.Command.Output
import PathVeil.Proofs.Command.Rights
import PathVeil.Proofs.Summary.Statistics
import PathVeil.Proofs.Json.Structure
import PathVeil.Proofs.Pattern.Placeholders
import PathVeil.Proofs.Json.ReadBack
import PathVeil.Proofs.Engine.Trace
import PathVeil.Proofs.Pattern.Extension
import PathVeil.Proofs.Pattern.Identity
import PathVeil.Proofs.Pattern.Alternation
import PathVeil.Proofs.Rule.Remarks
import PathVeil.Proofs.Rule.Merging
import PathVeil.Proofs.Rule.SwitchingOff
import PathVeil.Proofs.Command.Preview
import PathVeil.Proofs.Rule.Compilation
import PathVeil.Proofs.Redaction.Scope
import PathVeil.Proofs.Engine.Boundaries
