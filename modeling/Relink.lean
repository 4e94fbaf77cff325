import Relink.Bundle.Basic
import Relink.Bundle.Loader
import Relink.Cache
import Relink.Command.Arguments
import Relink.Command.Run
import Relink.Config
import Relink.Digest
import Relink.Digraph
import Relink.Failure
import Relink.FileTree
import Relink.Graph
import Relink.Json.Decode
import Relink.Json.Number
import Relink.Json.Read
import Relink.Json.Value
import Relink.License
import Relink.Linker.Basic
import Relink.Linker.Compile
import Relink.Linker.Ids
import Relink.Linker.Partition
import Relink.Log
import Relink.Main
import Relink.Manifest
import Relink.Module.Artifact
import Relink.Module.Id
import Relink.Module.Kind
import Relink.Path.Basic
import Relink.Policy
import Relink.Regex.Basic
import Relink.Regex.Read
import Relink.Resolver
import Relink.Script.CommonJs
import Relink.Script.Expression
import Relink.Script.Function
import Relink.Script.Parser
import Relink.Script.Pattern
import Relink.Script.Program
import Relink.Script.Scan
import Relink.Script.Statement
import Relink.Script.Summary
import Relink.Script.Token
import Relink.Script.Tree
import Relink.Session
import Relink.Settings
import Relink.SourceMap.Basic
import Relink.SourceMap.Mappings
import Relink.SourceMap.Stitch
import Relink.SourceMap.Vlq
import Relink.Specifier
import Relink.Table
import Relink.Target
import Relink.Text.Edit
import Relink.Text.Halves
import Relink.Text.Lines
import Relink.Text.Place
import Relink.Text.Quoted
import Relink.Text.Search
import Relink.Transform.Document
import Relink.Transform.Step
import Relink.Unicode.Case
import Relink.Unicode.Class
import Relink.Unicode.Identifier
import Relink.Unicode.Letter
import Relink.Unicode.Word
import Relink.Proofs.Alike
import Relink.Proofs.Alongside
import Relink.Proofs.Bare
import Relink.Proofs.Bindings
import Relink.Proofs.Calls
import Relink.Proofs.Closing
import Relink.Proofs.Comments
import Relink.Proofs.Consistent
import Relink.Proofs.Conversion
import Relink.Proofs.Cycles
import Relink.Proofs.Decoding
import Relink.Proofs.Delivery
import Relink.Proofs.Descent
import Relink.Proofs.Digraph
import Relink.Proofs.Direct
import Relink.Proofs.Documents
import Relink.Proofs.Edits
import Relink.Proofs.Exports
import Relink.Proofs.Expressions
import Relink.Proofs.Externals
import Relink.Proofs.Failures
import Relink.Proofs.FileTree
import Relink.Proofs.Freshness
import Relink.Proofs.Getters
import Relink.Proofs.Graph
import Relink.Proofs.Head
import Relink.Proofs.History
import Relink.Proofs.Ids
import Relink.Proofs.Imports
import Relink.Proofs.Incremental
import Relink.Proofs.Json
import Relink.Proofs.Kept
import Relink.Proofs.KeptLines
import Relink.Proofs.Keys
import Relink.Proofs.License
import Relink.Proofs.Lines
import Relink.Proofs.Linked
import Relink.Proofs.Linking
import Relink.Proofs.LoadOrder
import Relink.Proofs.MappedLines
import Relink.Proofs.MappedTexts
import Relink.Proofs.Mappings
import Relink.Proofs.Membership
import Relink.Proofs.Mentions
import Relink.Proofs.Naming
import Relink.Proofs.Normal
import Relink.Proofs.Origin
import Relink.Proofs.Outputs
import Relink.Proofs.PackageEntry
import Relink.Proofs.Partition
import Relink.Proofs.Path
import Relink.Proofs.Persistence
import Relink.Proofs.Places
import Relink.Proofs.Plain
import Relink.Proofs.Preamble
import Relink.Proofs.Reading
import Relink.Proofs.Recall
import Relink.Proofs.Reexports
import Relink.Proofs.Regions
import Relink.Proofs.Relative
import Relink.Proofs.Relinking
import Relink.Proofs.Requirements
import Relink.Proofs.Resolver
import Relink.Proofs.Reuse
import Relink.Proofs.Scanning
import Relink.Proofs.Separation
import Relink.Proofs.Shifting
import Relink.Proofs.SourceMap
import Relink.Proofs.Spans
import Relink.Proofs.Splicing
import Relink.Proofs.Statements
import Relink.Proofs.Stitching
import Relink.Proofs.Table
import Relink.Proofs.Tokens
import Relink.Proofs.Transparency
import Relink.Proofs.Traversal
import Relink.Proofs.Upwards
import Relink.Proofs.Weaving
import Relink.Proofs.Wrapping
import Relink.Proofs.Writing
