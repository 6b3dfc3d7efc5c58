import DeclFile.Buckets
import DeclFile.CommandLine
import DeclFile.Diagnostic.Basic
import DeclFile.Diagnostic.Cause
import DeclFile.Invocation
import DeclFile.Json
import DeclFile.Limits
import DeclFile.Main
import DeclFile.Package
import DeclFile.Parsed
import DeclFile.Parser.Basic
import DeclFile.Parser.Declaration
import DeclFile.Parser.Import
import DeclFile.Parser.Member
import DeclFile.Parser.Name
import DeclFile.Parser.Recovery
import DeclFile.Parser.Run
import DeclFile.Parser.Statement
import DeclFile.Parser.Type
import DeclFile.Position
import DeclFile.Proofs.Blank
import DeclFile.Proofs.Brackets.Basic
import DeclFile.Proofs.Brackets.Declaration
import DeclFile.Proofs.Brackets.File
import DeclFile.Proofs.Brackets.Member
import DeclFile.Proofs.Brackets.Name
import DeclFile.Proofs.Brackets.Statement
import DeclFile.Proofs.Brackets.Type
import DeclFile.Proofs.ClassProperty
import DeclFile.Proofs.ContextRoundTrip
import DeclFile.Proofs.Coverage
import DeclFile.Proofs.Cutting
import DeclFile.Proofs.DepthLimit
import DeclFile.Proofs.Enclosure.Basic
import DeclFile.Proofs.Enclosure.Body
import DeclFile.Proofs.Enclosure.Declaration
import DeclFile.Proofs.Enclosure.Member
import DeclFile.Proofs.Enclosure.Name
import DeclFile.Proofs.Enclosure.Resumption
import DeclFile.Proofs.Enclosure.Type
import DeclFile.Proofs.Ensures
import DeclFile.Proofs.EnumInitializer
import DeclFile.Proofs.EnumMember
import DeclFile.Proofs.Evaluation
import DeclFile.Proofs.ImportRoundTrip
import DeclFile.Proofs.ImportTree
import DeclFile.Proofs.InPlace.Agreement
import DeclFile.Proofs.InPlace.Consumption
import DeclFile.Proofs.InPlace.Framing
import DeclFile.Proofs.InPlace.Goals
import DeclFile.Proofs.InPlace.Reader
import DeclFile.Proofs.InPlace.Speculation
import DeclFile.Proofs.Independence
import DeclFile.Proofs.InferRoundTrip
import DeclFile.Proofs.Layout
import DeclFile.Proofs.LineBreak
import DeclFile.Proofs.LineEnding
import DeclFile.Proofs.Lookahead
import DeclFile.Proofs.Meets
import DeclFile.Proofs.MemberRoundTrip
import DeclFile.Proofs.MemberTree
import DeclFile.Proofs.Nesting
import DeclFile.Proofs.Occurrence
import DeclFile.Proofs.Order
import DeclFile.Proofs.Outline
import DeclFile.Proofs.PackageName
import DeclFile.Proofs.Positions
import DeclFile.Proofs.Quiet.Basic
import DeclFile.Proofs.Quiet.ClassMember
import DeclFile.Proofs.Quiet.File
import DeclFile.Proofs.Quiet.Function
import DeclFile.Proofs.Quiet.Import
import DeclFile.Proofs.Quiet.Member
import DeclFile.Proofs.Quiet.MemberList
import DeclFile.Proofs.Quiet.Name
import DeclFile.Proofs.Quiet.Starts
import DeclFile.Proofs.Quiet.Template
import DeclFile.Proofs.Quiet.Type
import DeclFile.Proofs.Quoted
import DeclFile.Proofs.Reading.Basic
import DeclFile.Proofs.Reading.Declaration
import DeclFile.Proofs.Reading.File
import DeclFile.Proofs.Reading.Function
import DeclFile.Proofs.Reading.Member
import DeclFile.Proofs.Reading.Statement
import DeclFile.Proofs.Reading.Type
import DeclFile.Proofs.ReferenceDirective
import DeclFile.Proofs.Rendering
import DeclFile.Proofs.Reparsing
import DeclFile.Proofs.Scanning
import DeclFile.Proofs.Seam
import DeclFile.Proofs.Shape.Basic
import DeclFile.Proofs.Shape.Declaration
import DeclFile.Proofs.Shape.File
import DeclFile.Proofs.Shape.Member
import DeclFile.Proofs.Shape.Statement
import DeclFile.Proofs.Shape.Type
import DeclFile.Proofs.SkippedGroup
import DeclFile.Proofs.Sorting
import DeclFile.Proofs.Sources
import DeclFile.Proofs.StatementBlank
import DeclFile.Proofs.StringLine
import DeclFile.Proofs.StringRoundTrip
import DeclFile.Proofs.Substitution
import DeclFile.Proofs.Succession.Basic
import DeclFile.Proofs.Succession.Declaration
import DeclFile.Proofs.Succession.File
import DeclFile.Proofs.Succession.Member
import DeclFile.Proofs.Succession.Type
import DeclFile.Proofs.TemplateLexing
import DeclFile.Proofs.TemplateRoundTrip
import DeclFile.Proofs.TemplateTree
import DeclFile.Proofs.Termination
import DeclFile.Proofs.Tiling
import DeclFile.Proofs.Transcript
import DeclFile.Proofs.TypeContext
import DeclFile.Proofs.TypeRoundTrip
import DeclFile.Proofs.TypeShape
import DeclFile.Proofs.TypeTree
import DeclFile.Reference
import DeclFile.Report
import DeclFile.Settings
import DeclFile.Syntax.Encoding
import DeclFile.Syntax.Name
import DeclFile.Syntax.Statement
import DeclFile.Syntax.Type
import DeclFile.Token.Basic
import DeclFile.Token.Escape
import DeclFile.Token.Kind
import DeclFile.Token.Lexed
import DeclFile.Token.Lexeme
import DeclFile.Token.Literal
import DeclFile.Token.Stream
import DeclFile.Toml.Document
import DeclFile.Toml.Scalar
import DeclFile.Toml.Table
import DeclFile.Toml.Text
import DeclFile.Unicode.Alphabetic
import DeclFile.Unicode.Numeric
import DeclFile.Unicode.WhiteSpace
import DeclFile.Unicode.Width
