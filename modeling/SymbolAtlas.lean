import SymbolAtlas.CallGraph
import SymbolAtlas.Classification
import SymbolAtlas.Config
import SymbolAtlas.Deadline
import SymbolAtlas.Disk
import SymbolAtlas.Failure
import SymbolAtlas.Host
import SymbolAtlas.Index.Body
import SymbolAtlas.Index.Build
import SymbolAtlas.Index.Declaration
import SymbolAtlas.Index.Draft
import SymbolAtlas.Index.Entry
import SymbolAtlas.Index.Link
import SymbolAtlas.Index.MemberName
import SymbolAtlas.Inheritance
import SymbolAtlas.Json.Reader
import SymbolAtlas.Json.Writer
import SymbolAtlas.Main
import SymbolAtlas.Misuse
import SymbolAtlas.Name.Signature
import SymbolAtlas.Name.TypeName
import SymbolAtlas.Number.Basic
import SymbolAtlas.Number.Binary64
import SymbolAtlas.Number.Digits
import SymbolAtlas.Number.Shortest
import SymbolAtlas.Operation
import SymbolAtlas.Page.Base64
import SymbolAtlas.Page.Basic
import SymbolAtlas.Page.Cursor
import SymbolAtlas.Path
import SymbolAtlas.Proofs.Attempt
import SymbolAtlas.Proofs.BreadthFirst
import SymbolAtlas.Proofs.CallGraph.Cover
import SymbolAtlas.Proofs.CallGraph.Follow
import SymbolAtlas.Proofs.Classification.Merge
import SymbolAtlas.Proofs.Classification.Paths
import SymbolAtlas.Proofs.Classification.Uses
import SymbolAtlas.Proofs.Index.Advance
import SymbolAtlas.Proofs.Index.Body
import SymbolAtlas.Proofs.Index.Build
import SymbolAtlas.Proofs.Index.Building
import SymbolAtlas.Proofs.Index.Calling
import SymbolAtlas.Proofs.Index.Chain
import SymbolAtlas.Proofs.Index.Citation
import SymbolAtlas.Proofs.Index.Closed
import SymbolAtlas.Proofs.Index.Declaration
import SymbolAtlas.Proofs.Index.Draft
import SymbolAtlas.Proofs.Index.Enrichment
import SymbolAtlas.Proofs.Index.Entry
import SymbolAtlas.Proofs.Index.Field
import SymbolAtlas.Proofs.Index.Following
import SymbolAtlas.Proofs.Index.Frame
import SymbolAtlas.Proofs.Index.Growth
import SymbolAtlas.Proofs.Index.Implementation
import SymbolAtlas.Proofs.Index.Kind
import SymbolAtlas.Proofs.Index.Link
import SymbolAtlas.Proofs.Index.Location
import SymbolAtlas.Proofs.Index.MemberName
import SymbolAtlas.Proofs.Index.Metadata
import SymbolAtlas.Proofs.Index.Method
import SymbolAtlas.Proofs.Index.MethodForm
import SymbolAtlas.Proofs.Index.Naming
import SymbolAtlas.Proofs.Index.Oblivious
import SymbolAtlas.Proofs.Index.Opening
import SymbolAtlas.Proofs.Index.Ownership
import SymbolAtlas.Proofs.Index.Parameter
import SymbolAtlas.Proofs.Index.Pass
import SymbolAtlas.Proofs.Index.Source
import SymbolAtlas.Proofs.Index.Title
import SymbolAtlas.Proofs.Index.Tree
import SymbolAtlas.Proofs.Inheritance.Descendants
import SymbolAtlas.Proofs.Inheritance.Paths
import SymbolAtlas.Proofs.Inheritance.Restriction
import SymbolAtlas.Proofs.Json.Consumption
import SymbolAtlas.Proofs.Json.Reader
import SymbolAtlas.Proofs.Name.Canonical
import SymbolAtlas.Proofs.Name.Rendering
import SymbolAtlas.Proofs.Name.Segment
import SymbolAtlas.Proofs.Name.Signature
import SymbolAtlas.Proofs.Name.TypeExpression
import SymbolAtlas.Proofs.Number.Digits
import SymbolAtlas.Proofs.Number.Whole
import SymbolAtlas.Proofs.Operation.Path
import SymbolAtlas.Proofs.Operation.Preorder
import SymbolAtlas.Proofs.Operation.Walk
import SymbolAtlas.Proofs.Overriding.Document
import SymbolAtlas.Proofs.Overriding.Frame
import SymbolAtlas.Proofs.Overriding.Linked
import SymbolAtlas.Proofs.Overriding.Pass
import SymbolAtlas.Proofs.Overriding.Search
import SymbolAtlas.Proofs.Overriding.Waiting
import SymbolAtlas.Proofs.Page.Base64
import SymbolAtlas.Proofs.Page.Cursor
import SymbolAtlas.Proofs.Page.OneSize
import SymbolAtlas.Proofs.Page.Request
import SymbolAtlas.Proofs.Page.Serve
import SymbolAtlas.Proofs.Page.Truncation
import SymbolAtlas.Proofs.Page.Walk
import SymbolAtlas.Proofs.Path
import SymbolAtlas.Proofs.Reach
import SymbolAtlas.Proofs.Readable.Body
import SymbolAtlas.Proofs.Readable.Document
import SymbolAtlas.Proofs.Readable.Entry
import SymbolAtlas.Proofs.Readable.Refusal
import SymbolAtlas.Proofs.Recasing.Body
import SymbolAtlas.Proofs.Recasing.Declaration
import SymbolAtlas.Proofs.Recasing.Document
import SymbolAtlas.Proofs.Reordering.Alike
import SymbolAtlas.Proofs.Reordering.Answer
import SymbolAtlas.Proofs.Reordering.Commute
import SymbolAtlas.Proofs.Reordering.Declaring
import SymbolAtlas.Proofs.Reordering.Deferred
import SymbolAtlas.Proofs.Reordering.Document
import SymbolAtlas.Proofs.Reordering.Frame
import SymbolAtlas.Proofs.Reordering.Joined
import SymbolAtlas.Proofs.Reordering.Nesting
import SymbolAtlas.Proofs.Reordering.Passes
import SymbolAtlas.Proofs.Reordering.Types
import SymbolAtlas.Proofs.Resolution.Address
import SymbolAtlas.Proofs.Resolution.Ambiguity
import SymbolAtlas.Proofs.Resolution.Declaration
import SymbolAtlas.Proofs.Resolution.Kind
import SymbolAtlas.Proofs.Resolution.Overload
import SymbolAtlas.Proofs.Respelling.Body
import SymbolAtlas.Proofs.Respelling.Declaration
import SymbolAtlas.Proofs.Respelling.Document
import SymbolAtlas.Proofs.Respelling.Draft
import SymbolAtlas.Proofs.Respelling.Following
import SymbolAtlas.Proofs.Respelling.Linking
import SymbolAtlas.Proofs.Respelling.Reading
import SymbolAtlas.Proofs.Reversal
import SymbolAtlas.Proofs.Session.History
import SymbolAtlas.Proofs.Session.Loading
import SymbolAtlas.Proofs.Snapshot.AccessorCall
import SymbolAtlas.Proofs.Snapshot.AccessorImplementation
import SymbolAtlas.Proofs.Snapshot.Caller
import SymbolAtlas.Proofs.Snapshot.Complete
import SymbolAtlas.Proofs.Snapshot.Counterpart
import SymbolAtlas.Proofs.Snapshot.Definition
import SymbolAtlas.Proofs.Snapshot.Dispatch
import SymbolAtlas.Proofs.Snapshot.Hierarchy
import SymbolAtlas.Proofs.Snapshot.Implementers
import SymbolAtlas.Proofs.Snapshot.Innermost
import SymbolAtlas.Proofs.Snapshot.Lookup
import SymbolAtlas.Proofs.Snapshot.Metadata
import SymbolAtlas.Proofs.Snapshot.Overriding
import SymbolAtlas.Proofs.Snapshot.Ownership
import SymbolAtlas.Proofs.Snapshot.Parameter
import SymbolAtlas.Proofs.Snapshot.Place
import SymbolAtlas.Proofs.Snapshot.Recasing
import SymbolAtlas.Proofs.Snapshot.Reference
import SymbolAtlas.Proofs.Snapshot.Reordering
import SymbolAtlas.Proofs.Snapshot.Respelling
import SymbolAtlas.Proofs.Snapshot.Token
import SymbolAtlas.Proofs.Table
import SymbolAtlas.Proofs.Text.Blank
import SymbolAtlas.Proofs.Text.Cut
import SymbolAtlas.Proofs.Text.LetterCase
import SymbolAtlas.Proofs.Text.Order
import SymbolAtlas.Proofs.Value.Agreement
import SymbolAtlas.Proofs.Value.Text
import SymbolAtlas.Reach
import SymbolAtlas.Report.Answer
import SymbolAtlas.Report.Basic
import SymbolAtlas.Report.Tables
import SymbolAtlas.Resolution
import SymbolAtlas.Session
import SymbolAtlas.Snapshot.Basic
import SymbolAtlas.Snapshot.File
import SymbolAtlas.Snapshot.Hierarchy
import SymbolAtlas.Snapshot.Position
import SymbolAtlas.Snapshot.Usage
import SymbolAtlas.Symbol
import SymbolAtlas.Table
import SymbolAtlas.Target
import SymbolAtlas.Text.Blank
import SymbolAtlas.Text.CaseTable
import SymbolAtlas.Text.CodePoint
import SymbolAtlas.Text.Cut
import SymbolAtlas.Text.LetterCase
import SymbolAtlas.Text.PrintTable
import SymbolAtlas.Text.Quoted
import SymbolAtlas.Text.Word
import SymbolAtlas.Text.WordTable
import SymbolAtlas.Tool.Answer
import SymbolAtlas.Tool.Basic
import SymbolAtlas.Tool.Query
import SymbolAtlas.Value.Basic
import SymbolAtlas.Value.Equality
import SymbolAtlas.Value.Integer
import SymbolAtlas.Value.Text
import SymbolAtlas.Yaml.Block
import SymbolAtlas.Yaml.Document
import SymbolAtlas.Yaml.Node
import SymbolAtlas.Yaml.Plain
import SymbolAtlas.Yaml.Quoted
import SymbolAtlas.Yaml.Schema
import SymbolAtlas.Yaml.Spot
import SymbolAtlas.Yaml.Token
