import RenderFlow.Binary64
import RenderFlow.CommandLine.Arguments
import RenderFlow.CommandLine.Commands
import RenderFlow.CommandLine.Files
import RenderFlow.CommandLine.Integer
import RenderFlow.CommandLine.Run
import RenderFlow.Decimal
import RenderFlow.Facts.Analysis
import RenderFlow.Facts.Basic
import RenderFlow.Facts.Json
import RenderFlow.Graph.Anchor
import RenderFlow.Graph.Assembly
import RenderFlow.Graph.Attempt
import RenderFlow.Graph.Basic
import RenderFlow.Graph.Builder
import RenderFlow.Graph.Extra
import RenderFlow.Graph.Fault
import RenderFlow.Graph.Inventory
import RenderFlow.Graph.Json
import RenderFlow.Graph.Packing
import RenderFlow.Graph.Pairing
import RenderFlow.Graph.Request
import RenderFlow.Graph.Session
import RenderFlow.Graph.Wiring
import RenderFlow.Hook.Binding
import RenderFlow.Hook.Body
import RenderFlow.Hook.Callee
import RenderFlow.Hook.Classify
import RenderFlow.Hook.Declarations
import RenderFlow.Json.Number
import RenderFlow.Json.Printing
import RenderFlow.Json.Reading
import RenderFlow.Json.Spelling
import RenderFlow.Json.Value
import RenderFlow.Main
import RenderFlow.Markup.Bound
import RenderFlow.Markup.Elements
import RenderFlow.Markup.OpenElements
import RenderFlow.Markup.TagName
import RenderFlow.Proofs.CommandLine.Naming
import RenderFlow.Proofs.Comments.Analysis
import RenderFlow.Proofs.Comments.Erasure
import RenderFlow.Proofs.Comments.Hooks
import RenderFlow.Proofs.Comments.Markup
import RenderFlow.Proofs.Facts.Agreement
import RenderFlow.Proofs.Facts.Components
import RenderFlow.Proofs.Facts.Counts
import RenderFlow.Proofs.Facts.Faults
import RenderFlow.Proofs.Facts.GlobalNames
import RenderFlow.Proofs.Facts.Listing
import RenderFlow.Proofs.Facts.Origin
import RenderFlow.Proofs.Facts.Patterns
import RenderFlow.Proofs.Facts.Renaming
import RenderFlow.Proofs.Graph.Anchoring
import RenderFlow.Proofs.Graph.Anchors
import RenderFlow.Proofs.Graph.Asked
import RenderFlow.Proofs.Graph.Attempts
import RenderFlow.Proofs.Graph.Boxes
import RenderFlow.Proofs.Graph.Calls
import RenderFlow.Proofs.Graph.Canvas
import RenderFlow.Proofs.Graph.Chains
import RenderFlow.Proofs.Graph.Clearance
import RenderFlow.Proofs.Graph.Columns
import RenderFlow.Proofs.Graph.Commuting
import RenderFlow.Proofs.Graph.Elements
import RenderFlow.Proofs.Graph.Extent
import RenderFlow.Proofs.Graph.Filling
import RenderFlow.Proofs.Graph.Finished
import RenderFlow.Proofs.Graph.Footprint
import RenderFlow.Proofs.Graph.Holdings
import RenderFlow.Proofs.Graph.Inventories
import RenderFlow.Proofs.Graph.Kinds
import RenderFlow.Proofs.Graph.Linking
import RenderFlow.Proofs.Graph.Lookup
import RenderFlow.Proofs.Graph.MarkupEdges
import RenderFlow.Proofs.Graph.Mates
import RenderFlow.Proofs.Graph.Moves
import RenderFlow.Proofs.Graph.Packed
import RenderFlow.Proofs.Graph.Paths
import RenderFlow.Proofs.Graph.Relations
import RenderFlow.Proofs.Graph.Relocation
import RenderFlow.Proofs.Graph.Requests
import RenderFlow.Proofs.Graph.Resolution
import RenderFlow.Proofs.Graph.Seating
import RenderFlow.Proofs.Graph.Separation
import RenderFlow.Proofs.Graph.Settling
import RenderFlow.Proofs.Graph.Slots
import RenderFlow.Proofs.Graph.Spelling
import RenderFlow.Proofs.Graph.StateColumn
import RenderFlow.Proofs.Graph.StateLinks
import RenderFlow.Proofs.Graph.Subjects
import RenderFlow.Proofs.Graph.Ties
import RenderFlow.Proofs.Graph.Tracing
import RenderFlow.Proofs.Graph.Unplaced
import RenderFlow.Proofs.Graph.Updates
import RenderFlow.Proofs.Graph.Workshop
import RenderFlow.Proofs.Hook.Bindings
import RenderFlow.Proofs.Hook.Gathering
import RenderFlow.Proofs.Hook.Listing
import RenderFlow.Proofs.Hook.Outcomes
import RenderFlow.Proofs.Hook.Scanning
import RenderFlow.Proofs.Hook.Setters
import RenderFlow.Proofs.Markup.Containers
import RenderFlow.Proofs.Markup.DottedNames
import RenderFlow.Proofs.Markup.Forest
import RenderFlow.Proofs.Markup.Listing
import RenderFlow.Proofs.Markup.Nesting
import RenderFlow.Proofs.Markup.Regrouping
import RenderFlow.Proofs.Markup.Scan
import RenderFlow.Proofs.Service.Accounting
import RenderFlow.Proofs.Service.Caching
import RenderFlow.Proofs.Service.Cleaning
import RenderFlow.Proofs.Service.Transparency
import RenderFlow.Proofs.Syntax.Addresses
import RenderFlow.Proofs.Syntax.Induction
import RenderFlow.Proofs.Syntax.Order
import RenderFlow.Proofs.Syntax.Parts
import RenderFlow.Proofs.Syntax.Reach
import RenderFlow.Proofs.Syntax.Visible
import RenderFlow.Proofs.Text.Encoding
import RenderFlow.Proofs.Text.FirstSeen
import RenderFlow.Proofs.Text.Hyphens
import RenderFlow.Proofs.Text.Paths
import RenderFlow.Service.Reply
import RenderFlow.Service.Request
import RenderFlow.Service.Route
import RenderFlow.Source.Exports
import RenderFlow.Source.Imports
import RenderFlow.Summary
import RenderFlow.Syntax.Damage
import RenderFlow.Syntax.Grammar
import RenderFlow.Syntax.Legible
import RenderFlow.Syntax.Position
import RenderFlow.Syntax.Rows
import RenderFlow.Syntax.Tree
import RenderFlow.Syntax.Walk
import RenderFlow.Table
import RenderFlow.Text.Blank
import RenderFlow.Text.DecimalDigit
import RenderFlow.Text.FileName
import RenderFlow.Text.Printable
import RenderFlow.Text.Quoted
import RenderFlow.Text.Search
import RenderFlow.Text.Utf8
