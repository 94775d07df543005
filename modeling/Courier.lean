import Courier.Address
import Courier.Address.Index
import Courier.Binding
import Courier.Broker
import Courier.Broker.Delivery
import Courier.Broker.Deployment
import Courier.Broker.Durability
import Courier.Broker.Error
import Courier.Broker.State
import Courier.Config
import Courier.Config.Check
import Courier.Config.LogLevel
import Courier.Config.Sources
import Courier.Config.Toml
import Courier.Config.Toml.Moment
import Courier.Config.Toml.Number
import Courier.Config.Toml.Table
import Courier.Config.Toml.Text
import Courier.Config.Toml.Value
import Courier.Config.Tree
import Courier.Dictionary
import Courier.Glob
import Courier.Message
import Courier.Number.Binary
import Courier.Number.Decimal
import Courier.Number.Integer
import Courier.Proofs.Address.Canonical
import Courier.Proofs.Address.History
import Courier.Proofs.Address.Index
import Courier.Proofs.Address.Lookup
import Courier.Proofs.Address.Matching
import Courier.Proofs.Broker.Bindings
import Courier.Proofs.Broker.Bookkeeping
import Courier.Proofs.Broker.Books
import Courier.Proofs.Broker.Deployment
import Courier.Proofs.Broker.Durability
import Courier.Proofs.Broker.Forwarding
import Courier.Proofs.Broker.Histories
import Courier.Proofs.Broker.Lifetime
import Courier.Proofs.Broker.Names
import Courier.Proofs.Broker.Perform
import Courier.Proofs.Broker.Recovery
import Courier.Proofs.Broker.Requests
import Courier.Proofs.Broker.Restart
import Courier.Proofs.Broker.Rollback
import Courier.Proofs.Broker.Rollout
import Courier.Proofs.Broker.Settling
import Courier.Proofs.Broker.SoleDivert
import Courier.Proofs.Broker.Startup
import Courier.Proofs.Broker.Sweep
import Courier.Proofs.Config.Check
import Courier.Proofs.Config.Environment
import Courier.Proofs.Config.Merging
import Courier.Proofs.Config.Reading
import Courier.Proofs.Config.Saving
import Courier.Proofs.Dictionary
import Courier.Proofs.Glob
import Courier.Proofs.Glob.Sweep
import Courier.Proofs.Number.Integer
import Courier.Proofs.Property.Accounting
import Courier.Proofs.Property.Codec
import Courier.Proofs.Property.Integers
import Courier.Proofs.Property.Spelling
import Courier.Proofs.Property.Truncation
import Courier.Proofs.Property.Upkeep
import Courier.Proofs.Queue
import Courier.Proofs.Queue.Attempts
import Courier.Proofs.Queue.Collapsing
import Courier.Proofs.Queue.Conservation
import Courier.Proofs.Queue.History
import Courier.Proofs.Queue.Latest
import Courier.Proofs.Queue.Plain
import Courier.Proofs.Queue.Structure
import Courier.Proofs.Queue.Values
import Courier.Proofs.Record
import Courier.Proofs.Record.Blocks
import Courier.Proofs.Record.Checksum
import Courier.Proofs.Record.Contents
import Courier.Proofs.Record.Corruption
import Courier.Proofs.Record.Cuts
import Courier.Proofs.Record.Header
import Courier.Proofs.Record.Resumption
import Courier.Proofs.Record.Rewriting
import Courier.Proofs.Record.Sessions
import Courier.Proofs.Record.Sizes
import Courier.Proofs.Registry
import Courier.Proofs.Registry.History
import Courier.Proofs.Router
import Courier.Proofs.Routing
import Courier.Proofs.Routing.Chains
import Courier.Proofs.Routing.Handling
import Courier.Proofs.Routing.SoleDivert
import Courier.Proofs.Routing.WorkList
import Courier.Proofs.Selector.Arithmetic
import Courier.Proofs.Selector.Completeness
import Courier.Proofs.Selector.Composition
import Courier.Proofs.Selector.Derivation
import Courier.Proofs.Selector.Information
import Courier.Proofs.Selector.Negation
import Courier.Proofs.Selector.Pattern
import Courier.Proofs.Selector.Reading
import Courier.Proofs.Selector.Shorthand
import Courier.Proofs.Selector.Spelling
import Courier.Proofs.Settings
import Courier.Proofs.Settings.Exact
import Courier.Proofs.Settings.Targets
import Courier.Proofs.Store
import Courier.Proofs.Store.Accepted
import Courier.Proofs.Store.Compaction
import Courier.Proofs.Store.History
import Courier.Proofs.Text.Classes
import Courier.Proofs.Wire
import Courier.Proofs.Wire.Spelling
import Courier.Proofs.Wire.Texts
import Courier.Property.Container
import Courier.Property.Conversion
import Courier.Property.Value
import Courier.Queue
import Courier.Record
import Courier.Record.Checksum
import Courier.Record.Stream
import Courier.Registry
import Courier.Routing
import Courier.Selector
import Courier.Selector.Expr
import Courier.Selector.Grammar
import Courier.Selector.Notation
import Courier.Selector.Token
import Courier.Selector.Truth
import Courier.Settings
import Courier.Store
import Courier.Text.CaseRanges
import Courier.Text.Classes
import Courier.Text.CodeRanges
import Courier.Text.Hex
import Courier.Text.Lowercase
import Courier.Text.Quoted
import Courier.Text.Utf16
import Courier.Wire
import Courier.Wire.Error
