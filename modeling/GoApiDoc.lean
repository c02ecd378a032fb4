/-
The library: reading annotated Go sources and assembling the interface description they carry.
-/

import GoApiDoc.Assembler
import GoApiDoc.Command.Options
import GoApiDoc.Command.Run
import GoApiDoc.Decimal.Double
import GoApiDoc.Decimal.Shortest
import GoApiDoc.Decimal.Whole
import GoApiDoc.Directive
import GoApiDoc.Document.Basic
import GoApiDoc.Document.Codec
import GoApiDoc.Document.Content
import GoApiDoc.Document.Freeform
import GoApiDoc.Document.Merging
import GoApiDoc.Document.Path
import GoApiDoc.Document.Schema
import GoApiDoc.Event
import GoApiDoc.Files
import GoApiDoc.Generate
import GoApiDoc.Go.Comment
import GoApiDoc.Go.Declaration
import GoApiDoc.Go.Layout
import GoApiDoc.Go.Lexeme
import GoApiDoc.Go.Literal
import GoApiDoc.Go.Reader
import GoApiDoc.Go.Source
import GoApiDoc.Go.Token
import GoApiDoc.Json
import GoApiDoc.Main
import GoApiDoc.Proofs.ArrayText
import GoApiDoc.Proofs.Assembly
import GoApiDoc.Proofs.Association
import GoApiDoc.Proofs.Brackets
import GoApiDoc.Proofs.CommentStyle
import GoApiDoc.Proofs.Discovery
import GoApiDoc.Proofs.DocumentReturn
import GoApiDoc.Proofs.Escapes
import GoApiDoc.Proofs.FileTree
import GoApiDoc.Proofs.FunctionBodies
import GoApiDoc.Proofs.Gaps
import GoApiDoc.Proofs.Grouping
import GoApiDoc.Proofs.Lexing
import GoApiDoc.Proofs.LineNumbers
import GoApiDoc.Proofs.LiteralGrammar
import GoApiDoc.Proofs.LiteralTokens
import GoApiDoc.Proofs.Literals
import GoApiDoc.Proofs.Locality
import GoApiDoc.Proofs.LongNumbers
import GoApiDoc.Proofs.Lookahead
import GoApiDoc.Proofs.Matching
import GoApiDoc.Proofs.Merging
import GoApiDoc.Proofs.Moving
import GoApiDoc.Proofs.Nesting
import GoApiDoc.Proofs.NodeFaults
import GoApiDoc.Proofs.ParameterKeys
import GoApiDoc.Proofs.ParameterLiteral
import GoApiDoc.Proofs.PlainData
import GoApiDoc.Proofs.Progress
import GoApiDoc.Proofs.ReadFaults
import GoApiDoc.Proofs.Reading
import GoApiDoc.Proofs.References
import GoApiDoc.Proofs.Reordering
import GoApiDoc.Proofs.Reporting
import GoApiDoc.Proofs.Returning
import GoApiDoc.Proofs.RoundTrip
import GoApiDoc.Proofs.Saving
import GoApiDoc.Proofs.SchemaReturn
import GoApiDoc.Proofs.Seam
import GoApiDoc.Proofs.SharedPaths
import GoApiDoc.Proofs.Spellings
import GoApiDoc.Proofs.StructSchema
import GoApiDoc.Proofs.StructText
import GoApiDoc.Proofs.Table
import GoApiDoc.Proofs.TagLookup
import GoApiDoc.Proofs.TextFaults
import GoApiDoc.Proofs.Texts
import GoApiDoc.Proofs.TypeSpine
import GoApiDoc.Proofs.ValueGroups
import GoApiDoc.Report
import GoApiDoc.SchemaOf
import GoApiDoc.StructTag
import GoApiDoc.Table
import GoApiDoc.Text
import GoApiDoc.Text.Blank
import GoApiDoc.Text.Boundary
import GoApiDoc.Text.Lower
import GoApiDoc.Text.Printable
import GoApiDoc.Text.Quoted
import GoApiDoc.Text.Utf8
import GoApiDoc.Text.Word
import GoApiDoc.Yaml.Calendar
import GoApiDoc.Yaml.Content
import GoApiDoc.Yaml.Cursor
import GoApiDoc.Yaml.Fault
import GoApiDoc.Yaml.Load
import GoApiDoc.Yaml.Node
import GoApiDoc.Yaml.Scalar
import GoApiDoc.Yaml.Tag
import GoApiDoc.Yaml.Token
import GoApiDoc.Yaml.Tokens
import GoApiDoc.Yaml.Value
import GoApiDoc.Yaml.Writer
