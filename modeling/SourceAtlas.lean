import SourceAtlas.Codec.Answer
import SourceAtlas.Codec.Config
import SourceAtlas.Codec.Index
import SourceAtlas.Codec.Symbol
import SourceAtlas.Codec.Tree
import SourceAtlas.CommandLine.Arguments
import SourceAtlas.CommandLine.Help
import SourceAtlas.CommandLine.Run
import SourceAtlas.Config
import SourceAtlas.Decimal.Reading
import SourceAtlas.Decimal.Shortest
import SourceAtlas.Digest.Sha256
import SourceAtlas.Disk.Basic
import SourceAtlas.Disk.Tree
import SourceAtlas.Error
import SourceAtlas.Glob.Lookup
import SourceAtlas.Glob.Match
import SourceAtlas.Glob.Nesting
import SourceAtlas.Glob.Pattern
import SourceAtlas.Glob.Reading
import SourceAtlas.Graph.Basic
import SourceAtlas.Graph.Build
import SourceAtlas.Graph.Script
import SourceAtlas.Index.Basic
import SourceAtlas.Index.Session
import SourceAtlas.Index.Signature
import SourceAtlas.Json.Basic
import SourceAtlas.Json.Decode
import SourceAtlas.Json.Parser
import SourceAtlas.Json.Printer
import SourceAtlas.Language
import SourceAtlas.Linking.JavaScript
import SourceAtlas.Linking.Python
import SourceAtlas.Linking.Shared
import SourceAtlas.Linking.Swift
import SourceAtlas.Main
import SourceAtlas.Namespace
import SourceAtlas.Outline.Declaration
import SourceAtlas.Outline.JavaScript
import SourceAtlas.Outline.Python
import SourceAtlas.Outline.Swift
import SourceAtlas.Path
import SourceAtlas.Proofs.Abridging
import SourceAtlas.Proofs.Absorption
import SourceAtlas.Proofs.ArcIds
import SourceAtlas.Proofs.Bodies
import SourceAtlas.Proofs.Branches
import SourceAtlas.Proofs.CallGraph
import SourceAtlas.Proofs.Callees
import SourceAtlas.Proofs.Calls
import SourceAtlas.Proofs.Codec
import SourceAtlas.Proofs.Collapse
import SourceAtlas.Proofs.Commutation
import SourceAtlas.Proofs.Construction
import SourceAtlas.Proofs.Containment
import SourceAtlas.Proofs.Decimal
import SourceAtlas.Proofs.Disk
import SourceAtlas.Proofs.Doubles
import SourceAtlas.Proofs.Excerpts
import SourceAtlas.Proofs.Extensions
import SourceAtlas.Proofs.Extent
import SourceAtlas.Proofs.Faults
import SourceAtlas.Proofs.Frontend
import SourceAtlas.Proofs.Groups
import SourceAtlas.Proofs.Handlers
import SourceAtlas.Proofs.Hierarchy
import SourceAtlas.Proofs.History
import SourceAtlas.Proofs.Identity
import SourceAtlas.Proofs.Imports
import SourceAtlas.Proofs.Induced
import SourceAtlas.Proofs.Integrity
import SourceAtlas.Proofs.Json.Document
import SourceAtlas.Proofs.Json.Literal
import SourceAtlas.Proofs.Json.Numeral
import SourceAtlas.Proofs.Linking.JavaScript
import SourceAtlas.Proofs.Linking.Python
import SourceAtlas.Proofs.Linking.Swift
import SourceAtlas.Proofs.Locations
import SourceAtlas.Proofs.Namespace
import SourceAtlas.Proofs.Nearest
import SourceAtlas.Proofs.Order
import SourceAtlas.Proofs.Origin
import SourceAtlas.Proofs.Owners
import SourceAtlas.Proofs.Packages
import SourceAtlas.Proofs.Passes
import SourceAtlas.Proofs.Payload
import SourceAtlas.Proofs.Policy
import SourceAtlas.Proofs.Provenance
import SourceAtlas.Proofs.Pruning
import SourceAtlas.Proofs.Quota
import SourceAtlas.Proofs.Ranking
import SourceAtlas.Proofs.References
import SourceAtlas.Proofs.Relations
import SourceAtlas.Proofs.Saving
import SourceAtlas.Proofs.Scan
import SourceAtlas.Proofs.Segments
import SourceAtlas.Proofs.Separation
import SourceAtlas.Proofs.Session
import SourceAtlas.Proofs.Sites
import SourceAtlas.Proofs.Specifiers
import SourceAtlas.Proofs.Store
import SourceAtlas.Proofs.Supertypes
import SourceAtlas.Proofs.Thread
import SourceAtlas.Proofs.Trace
import SourceAtlas.Proofs.Vocabulary
import SourceAtlas.Reading
import SourceAtlas.Resolution
import SourceAtlas.Scan
import SourceAtlas.Snippet
import SourceAtlas.Store
import SourceAtlas.Story.Arc
import SourceAtlas.Story.CallGraph
import SourceAtlas.Story.Route
import SourceAtlas.Story.Thread
import SourceAtlas.Symbol
import SourceAtlas.Syntax.Source
import SourceAtlas.Syntax.Tree
import SourceAtlas.Tables
import SourceAtlas.Text.Affix
import SourceAtlas.Text.Blank
import SourceAtlas.Text.Shape
import SourceAtlas.Text.Summary
import SourceAtlas.Text.Utf8
import SourceAtlas.TextMap
import SourceAtlas.View.Collapse
import SourceAtlas.View.Scope
