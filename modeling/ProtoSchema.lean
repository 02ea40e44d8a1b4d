import ProtoSchema.CommandLine
import ProtoSchema.Main
import ProtoSchema.Schema.Query
import ProtoSchema.Schema.Answers
import ProtoSchema.Syntax.Event
import ProtoSchema.Proofs.Schema.Growth
import ProtoSchema.Proofs.Schema.ImportOrder
import ProtoSchema.Proofs.Schema.Aggregation
import ProtoSchema.Proofs.Compiler.Addition
import ProtoSchema.Proofs.Compiler.Loading
import ProtoSchema.Proofs.Compiler.Termination
import ProtoSchema.Proofs.Compiler.Session
import ProtoSchema.Proofs.Compiler.WellFormed
import ProtoSchema.Proofs.Draft.Building
import ProtoSchema.Proofs.Draft.Contents
import ProtoSchema.Proofs.Draft.Scope
import ProtoSchema.Proofs.Draft.Order
import ProtoSchema.Proofs.Compiler.Settled
import ProtoSchema.Proofs.Compiler.Sight
import ProtoSchema.Proofs.Compiler.References
import ProtoSchema.Proofs.Renumber.Basic
import ProtoSchema.Proofs.Renumber.Draft
import ProtoSchema.Proofs.Renumber.Link
import ProtoSchema.Proofs.Compiler.Faithful
import ProtoSchema.Proofs.Compiler.Twins
import ProtoSchema.Proofs.Compiler.Judging
import ProtoSchema.Proofs.Compiler.Acceptance
import ProtoSchema.Proofs.Compiler.Comparison
import ProtoSchema.Proofs.Compiler.History
import ProtoSchema.Proofs.Compiler.Gathering
import ProtoSchema.Proofs.Compiler.Answers
import ProtoSchema.Proofs.Compiler.PostOrder
import ProtoSchema.Proofs.Compiler.Failure
import ProtoSchema.Proofs.Compiler.Opening
import ProtoSchema.Proofs.Compiler.Evaluation
import ProtoSchema.Proofs.Compiler.Cycles
import ProtoSchema.Proofs.Compiler.ImportCycles
import ProtoSchema.Proofs.Compiler.Registration
import ProtoSchema.Proofs.Compiler.Conflicts
import ProtoSchema.Proofs.Compiler.StrictLoading
import ProtoSchema.Proofs.Compiler.Strictness
import ProtoSchema.Proofs.Compiler.ExtensionNumbers
import ProtoSchema.Proofs.Syntax.Grammar
import ProtoSchema.Proofs.Syntax.Reading
import ProtoSchema.Proofs.Syntax.Sentences
import ProtoSchema.Proofs.Syntax.Accepting
import ProtoSchema.Proofs.Syntax.Validity
import ProtoSchema.Proofs.Syntax.Values
import ProtoSchema.Proofs.Syntax.Fields
import ProtoSchema.Proofs.Syntax.Declarations
import ProtoSchema.Proofs.Syntax.Files
import ProtoSchema.Proofs.Syntax.Parsing
import ProtoSchema.Proofs.Syntax.Noticing
import ProtoSchema.Proofs.Syntax.Recovery
import ProtoSchema.Proofs.Syntax.Alarms
import ProtoSchema.Proofs.Syntax.Course
import ProtoSchema.Proofs.Syntax.Walk
import ProtoSchema.Proofs.Syntax.Tokens
import ProtoSchema.Proofs.Syntax.Numerals
import ProtoSchema.Proofs.Syntax.Literals
import ProtoSchema.Proofs.Syntax.Written
import ProtoSchema.Proofs.Draft.Correspondence
import ProtoSchema.Proofs.Draft.Names
import ProtoSchema.Proofs.Draft.Numbers
import ProtoSchema.Proofs.Draft.Assembly
import ProtoSchema.Proofs.Draft.Holding
import ProtoSchema.Proofs.Draft.Placement
import ProtoSchema.Proofs.Draft.Mentions
import ProtoSchema.Proofs.Draft.Depth
import ProtoSchema.Proofs.Compiler.Nesting
import ProtoSchema.Proofs.Compiler.Resolution
import ProtoSchema.Proofs.Compiler.NameLookup
import ProtoSchema.Proofs.Compiler.ExtensionRanges
import ProtoSchema.Proofs.Compiler.FieldRules
import ProtoSchema.Proofs.Compiler.ExtensionPairs
import ProtoSchema.Proofs.Compiler.Namesakes
import ProtoSchema.Proofs.Compiler.ExtensionLists
import ProtoSchema.Proofs.Compiler.Yielding
import ProtoSchema.Proofs.Draft.Ranges
import ProtoSchema.Proofs.Compiler.ExtensionNames
import ProtoSchema.Proofs.Syntax.Composition
import ProtoSchema.Proofs.Syntax.Spans
import ProtoSchema.Proofs.Syntax.Layout
import ProtoSchema.Proofs.Syntax.Faithful
import ProtoSchema.Proofs.Syntax.Comments
import ProtoSchema.Proofs.Syntax.Attachment
import ProtoSchema.Proofs.Compiler.MissingImports
import ProtoSchema.Proofs.Text.Utf8
import ProtoSchema.Proofs.Syntax.Bytes
import ProtoSchema.Proofs.Syntax.Tiling
import ProtoSchema.Proofs.Syntax.Strings
import ProtoSchema.Proofs.Syntax.LexicalFaults
import ProtoSchema.Proofs.Syntax.Pointing
import ProtoSchema.Proofs.Syntax.Labels
import ProtoSchema.Proofs.Draft.Spans
import ProtoSchema.Proofs.Compiler.Locations
import ProtoSchema.Proofs.Paths
import ProtoSchema.Proofs.Compiler.Shadowing
import ProtoSchema.Proofs.Text.Lines
import ProtoSchema.Proofs.Compiler.Lines
import ProtoSchema.Proofs.Syntax.Bare
import ProtoSchema.Proofs.Syntax.Retelling
import ProtoSchema.Proofs.Syntax.Followers
import ProtoSchema.Proofs.Syntax.Rereading
import ProtoSchema.Proofs.Syntax.Insertion
