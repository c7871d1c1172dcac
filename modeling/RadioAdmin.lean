import RadioAdmin.AdminError
import RadioAdmin.Compare.Agreement
import RadioAdmin.Compare.Configuration
import RadioAdmin.Compare.Difference
import RadioAdmin.Compare.Stored
import RadioAdmin.Connection.Describe
import RadioAdmin.Connection.Kind
import RadioAdmin.Connection.Link
import RadioAdmin.Connection.Roster
import RadioAdmin.Connection.Status
import RadioAdmin.Decimal.Layout
import RadioAdmin.Decimal.Numeral
import RadioAdmin.Decimal.Shortest
import RadioAdmin.Encoding.Base64
import RadioAdmin.Encoding.Hex
import RadioAdmin.Engine
import RadioAdmin.FieldPath
import RadioAdmin.Fields
import RadioAdmin.Json.Basic
import RadioAdmin.Json.Form
import RadioAdmin.Json.Printer
import RadioAdmin.Json.Raw
import RadioAdmin.Json.Reader
import RadioAdmin.KeyMaterial
import RadioAdmin.Proofs.AdminError
import RadioAdmin.Proofs.Compare.Added
import RadioAdmin.Proofs.Compare.Agreement
import RadioAdmin.Proofs.Compare.Configuration
import RadioAdmin.Proofs.Compare.Congruence
import RadioAdmin.Proofs.Compare.Distance
import RadioAdmin.Proofs.Compare.Entry
import RadioAdmin.Proofs.Compare.Envelope
import RadioAdmin.Proofs.Compare.Flag
import RadioAdmin.Proofs.Compare.Json
import RadioAdmin.Proofs.Compare.Keys
import RadioAdmin.Proofs.Compare.Naming
import RadioAdmin.Proofs.Compare.Near
import RadioAdmin.Proofs.Compare.Position
import RadioAdmin.Proofs.Compare.Same
import RadioAdmin.Proofs.Compare.Sets
import RadioAdmin.Proofs.Compare.Strict
import RadioAdmin.Proofs.Compare.Symmetry
import RadioAdmin.Proofs.Compare.Unmet
import RadioAdmin.Proofs.Compare.Unset
import RadioAdmin.Proofs.Connection.Bulk
import RadioAdmin.Proofs.Connection.Link
import RadioAdmin.Proofs.Connection.Order
import RadioAdmin.Proofs.Connection.Orphans
import RadioAdmin.Proofs.Connection.Sharing
import RadioAdmin.Proofs.Connection.Status
import RadioAdmin.Proofs.Encoding.Base64
import RadioAdmin.Proofs.Encoding.Hex
import RadioAdmin.Proofs.Engine.AdminError
import RadioAdmin.Proofs.Engine.Ledger
import RadioAdmin.Proofs.Engine.Lifecycle
import RadioAdmin.Proofs.FieldPath
import RadioAdmin.Proofs.Fields
import RadioAdmin.Proofs.Json.Basic
import RadioAdmin.Proofs.Json.Form
import RadioAdmin.Proofs.Json.Number
import RadioAdmin.Proofs.Json.Printed
import RadioAdmin.Proofs.Json.Quoted
import RadioAdmin.Proofs.KeyMaterial.Hex
import RadioAdmin.Proofs.KeyMaterial.Spelling
import RadioAdmin.Proofs.Registry.Abort
import RadioAdmin.Proofs.Registry.Action
import RadioAdmin.Proofs.Registry.Basic
import RadioAdmin.Proofs.Registry.Calls
import RadioAdmin.Proofs.Registry.Cleanup
import RadioAdmin.Proofs.Registry.Coherence
import RadioAdmin.Proofs.Registry.Declined
import RadioAdmin.Proofs.Registry.Identifiers
import RadioAdmin.Proofs.Registry.Interchange
import RadioAdmin.Proofs.Registry.Ledger
import RadioAdmin.Proofs.Registry.Lifecycle
import RadioAdmin.Proofs.Registry.Nodes
import RadioAdmin.Proofs.Registry.Queue
import RadioAdmin.Proofs.Registry.Revert
import RadioAdmin.Proofs.Registry.Skip
import RadioAdmin.Proofs.Startup.Registration
import RadioAdmin.Proofs.Startup.Validation
import RadioAdmin.Proofs.Time.Instant
import RadioAdmin.Proofs.Transaction.Evolution
import RadioAdmin.Proofs.Transaction.Identifier
import RadioAdmin.Proofs.Transaction.Resolution
import RadioAdmin.Proofs.Transaction.Stored
import RadioAdmin.Proofs.Value.Basic
import RadioAdmin.Proofs.Value.Canonical
import RadioAdmin.Proofs.Value.Display
import RadioAdmin.Proofs.Value.Json
import RadioAdmin.Record
import RadioAdmin.Registry.Basic
import RadioAdmin.Registry.Run
import RadioAdmin.Samples
import RadioAdmin.Settings.Basic
import RadioAdmin.Settings.Definition
import RadioAdmin.Settings.File
import RadioAdmin.Startup.Basic
import RadioAdmin.Startup.Run
import RadioAdmin.Text.Blank
import RadioAdmin.Text.Hidden
import RadioAdmin.Text.Quoted
import RadioAdmin.Time.Instant
import RadioAdmin.Time.Rfc3339
import RadioAdmin.Toml.Assembly
import RadioAdmin.Toml.Basic
import RadioAdmin.Toml.Document
import RadioAdmin.Toml.Quoted
import RadioAdmin.Toml.Scalar
import RadioAdmin.Transaction.Basic
import RadioAdmin.Transaction.Change
import RadioAdmin.Transaction.Stored
import RadioAdmin.Value.Basic
import RadioAdmin.Value.Json
import RadioAdmin.Version
import RadioAdmin.Yaml.Block
import RadioAdmin.Yaml.Cursor
import RadioAdmin.Yaml.Form
import RadioAdmin.Yaml.Json
import RadioAdmin.Yaml.Lexer
import RadioAdmin.Yaml.Node
import RadioAdmin.Yaml.Plain
import RadioAdmin.Yaml.Quoted
import RadioAdmin.Yaml.Scalar
import RadioAdmin.Yaml.Tag
import RadioAdmin.Yaml.Token
