import FractalShader.Action
import FractalShader.Catalog
import FractalShader.Cli.Arguments
import FractalShader.Cli.Run
import FractalShader.Code
import FractalShader.Config
import FractalShader.Decimal.Binary64
import FractalShader.Decimal.Numeral
import FractalShader.Decimal.Shortest
import FractalShader.Disk
import FractalShader.Disk.Access
import FractalShader.Document
import FractalShader.Error
import FractalShader.Event
import FractalShader.Fragment
import FractalShader.Json.Fault
import FractalShader.Json.Number
import FractalShader.Json.Printer
import FractalShader.Json.Record
import FractalShader.Json.Scan
import FractalShader.Json.Skip
import FractalShader.Kind
import FractalShader.Kind.Spelling
import FractalShader.Log
import FractalShader.Log.Filter
import FractalShader.Log.Pattern
import FractalShader.Log.Pattern.Reader
import FractalShader.Main
import FractalShader.Name
import FractalShader.Path
import FractalShader.Proofs.Action.Refusal
import FractalShader.Proofs.Action.Steps
import FractalShader.Proofs.Cli.Completion
import FractalShader.Proofs.Cli.Generation
import FractalShader.Proofs.Cli.Preview
import FractalShader.Proofs.Cli.Task
import FractalShader.Proofs.Config.Edits
import FractalShader.Proofs.Disk.Directory
import FractalShader.Proofs.Disk.Entry
import FractalShader.Proofs.Disk.Making
import FractalShader.Proofs.Disk.Naming
import FractalShader.Proofs.Disk.Parent
import FractalShader.Proofs.Disk.Patch
import FractalShader.Proofs.Disk.Proper
import FractalShader.Proofs.Disk.Reach
import FractalShader.Proofs.Document.Canonical
import FractalShader.Proofs.Document.Codec
import FractalShader.Proofs.Document.Members
import FractalShader.Proofs.Document.Shape
import FractalShader.Proofs.Fragment.Driver
import FractalShader.Proofs.Fragment.Injective
import FractalShader.Proofs.Fragment.Inline
import FractalShader.Proofs.Fragment.Lenient
import FractalShader.Proofs.Fragment.Nesting
import FractalShader.Proofs.Fragment.Reference
import FractalShader.Proofs.Fragment.Undecodable
import FractalShader.Proofs.Json.Grammar
import FractalShader.Proofs.Json.Reading
import FractalShader.Proofs.Json.Records
import FractalShader.Proofs.Json.Scanning
import FractalShader.Proofs.Json.Shape
import FractalShader.Proofs.Json.Skipping
import FractalShader.Proofs.Json.Tags
import FractalShader.Proofs.Kind.Spelling
import FractalShader.Proofs.Path.Ancestors
import FractalShader.Proofs.Path.Join
import FractalShader.Proofs.Session.Course
import FractalShader.Proofs.Session.Reopen
import FractalShader.Proofs.Session.Turns
import FractalShader.Proofs.Session.Unusable
import FractalShader.Proofs.Settings.Codec
import FractalShader.Proofs.Store.Collision
import FractalShader.Proofs.Store.Commute
import FractalShader.Proofs.Store.Consistency
import FractalShader.Proofs.Store.Effects
import FractalShader.Proofs.Store.Exclusion
import FractalShader.Proofs.Store.Files
import FractalShader.Proofs.Store.Footprint
import FractalShader.Proofs.Store.Frame
import FractalShader.Proofs.Store.Inventory
import FractalShader.Proofs.Store.Isolation
import FractalShader.Proofs.Store.Listing
import FractalShader.Proofs.Store.Overlap
import FractalShader.Proofs.Store.Partners
import FractalShader.Proofs.Store.Placement
import FractalShader.Proofs.Store.Recognised
import FractalShader.Proofs.Store.Refusal
import FractalShader.Proofs.Store.Regeneration
import FractalShader.Proofs.Store.Removal
import FractalShader.Proofs.Store.Renewal
import FractalShader.Proofs.Store.Repetition
import FractalShader.Proofs.Store.Request
import FractalShader.Proofs.Store.RoundTrip
import FractalShader.Proofs.Store.Run
import FractalShader.Proofs.Store.Sparing
import FractalShader.Proofs.Store.Steps
import FractalShader.Proofs.Store.Stored
import FractalShader.Proofs.Store.Strays
import FractalShader.Proofs.Store.Strictness
import FractalShader.Proofs.Store.Tidy
import FractalShader.Proofs.Store.Tracking
import FractalShader.Proofs.Store.Vacant
import FractalShader.Proofs.Text.Brackets
import FractalShader.Proofs.Text.Lines
import FractalShader.Proofs.Text.Order
import FractalShader.Proofs.Watch.Echo
import FractalShader.Proofs.Watch.History
import FractalShader.Proofs.Watch.Naming
import FractalShader.Proofs.Watch.Place
import FractalShader.Proofs.Watch.Response
import FractalShader.Session
import FractalShader.Settings
import FractalShader.Settings.Codec
import FractalShader.Settings.Load
import FractalShader.Store
import FractalShader.Store.Read
import FractalShader.Store.Write
import FractalShader.Text.Alphanumeric
import FractalShader.Text.Bytes
import FractalShader.Text.Fields
import FractalShader.Text.Quoted
import FractalShader.Text.Ranges
import FractalShader.Text.Visible
import FractalShader.Text.WhiteSpace
import FractalShader.Watch
