import RowSchema.Text.Alphanumeric
import RowSchema.Text.Blank
import RowSchema.Text.DecimalDigit
import RowSchema.Text.LetterCase
import RowSchema.Text.Printable
import RowSchema.Decimal.Layout
import RowSchema.Decimal.Numeral
import RowSchema.Value.Text
import RowSchema.Value.Same
import RowSchema.Expr
import RowSchema.Record.Same
import RowSchema.Token.Scan
import RowSchema.Reader.Records
import RowSchema.Diagnostic
import RowSchema.TableName
import RowSchema.ColumnSpec.OfCase
import RowSchema.ColumnSpec.OfField
import RowSchema.TableOptions
import RowSchema.Text.Identifier
import RowSchema.Decode
import RowSchema.Dictionary
import RowSchema.Selection
import RowSchema.Signature
import RowSchema.Outline
import RowSchema.Schema
import RowSchema.Report.Diagnostic
import RowSchema.Report.Json
import RowSchema.Report.Summary
import RowSchema.TypeHint.Name
import RowSchema.RecordClass.Make
import RowSchema.RecordClass.Reflection
import RowSchema.Main
import RowSchema.Editor.Workspace
import RowSchema.Proofs.Dictionary
import RowSchema.Proofs.Catalog.Width
import RowSchema.Proofs.Decode.Slices
import RowSchema.Proofs.Decode.Fields
import RowSchema.Proofs.Decode.Errors
import RowSchema.Proofs.Decode.Policy
import RowSchema.Proofs.Decode.Match
import RowSchema.Proofs.Decode.Entries
import RowSchema.Proofs.Schema.Deriving
import RowSchema.Proofs.Schema.Composition
import RowSchema.Proofs.Schema.Bounds
import RowSchema.Proofs.Schema.Messages
import RowSchema.Proofs.Schema.Members
import RowSchema.Proofs.Schema.Registered
import RowSchema.Proofs.Schema.Known
import RowSchema.Proofs.Schema.History
import RowSchema.Proofs.Schema.Growth
import RowSchema.Proofs.Schema.Calls
import RowSchema.Proofs.Schema.Plans
import RowSchema.Proofs.Schema.Parts
import RowSchema.Proofs.Schema.Rows
import RowSchema.Proofs.Schema.Spliced
import RowSchema.Proofs.Schema.Names
import RowSchema.Proofs.Schema.Absent
import RowSchema.Proofs.Schema.Cases
import RowSchema.Proofs.Selection.Bound
import RowSchema.Proofs.Schema.Widths
import RowSchema.Proofs.Schema.ReadBack
import RowSchema.Grammar
import RowSchema.Grammar.Action
import RowSchema.Proofs.Grammar.Trees
import RowSchema.Proofs.Reader.Reads
import RowSchema.Proofs.Reader.TypeRef
import RowSchema.Proofs.Reader.Expr
import RowSchema.Proofs.Reader.Block
import RowSchema.Proofs.Reader.Field
import RowSchema.Proofs.Reader.Case
import RowSchema.Proofs.Reader.Attribute
import RowSchema.Proofs.Reader.Member
import RowSchema.Proofs.Reader.Records
import RowSchema.Proofs.Reader.Source
import RowSchema.Proofs.Schema.Drafts
import RowSchema.Proofs.Token.Pieces
import RowSchema.Proofs.Reader.Completion
import RowSchema.Proofs.Reader.Fault
import RowSchema.Proofs.Token.Spans
import RowSchema.Proofs.Record.Placed
import RowSchema.Proofs.Grammar.Spans
import RowSchema.Proofs.Grammar.Placed
import RowSchema.Proofs.Reader.Spans
import RowSchema.Proofs.Record.Edit
import RowSchema.Proofs.Grammar.Edited
import RowSchema.Proofs.Grammar.Bare
import RowSchema.Proofs.Grammar.Parts
import RowSchema.Proofs.Grammar.Replaced
import RowSchema.Proofs.Token.Local
import RowSchema.Proofs.Token.Written
import RowSchema.Proofs.Token.Replaced
import RowSchema.Proofs.Grammar.Printed
import RowSchema.Proofs.Reader.Replaced
import RowSchema.Proofs.Reader.Removal
import RowSchema.Proofs.Schema.FixIts
import RowSchema.Proofs.Schema.Repairs
import RowSchema.Proofs.Projection.Reading
import RowSchema.Proofs.Editor.Places
import RowSchema.Proofs.Editor.Faults
import RowSchema.Proofs.Schema.Closed
import RowSchema.Proofs.Decode.Turns
import RowSchema.Proofs.Schema.Classes
import RowSchema.Proofs.Selection.Aliases
import RowSchema.Proofs.Schema.AllDerived
import RowSchema.Proofs.Schema.Nullable
import RowSchema.Proofs.Schema.Located
import RowSchema.Proofs.Schema.Reports
import RowSchema.Proofs.Command.Agreement
import RowSchema.Proofs.Token.Covering
import RowSchema.Proofs.Schema.Declared
import RowSchema.Proofs.Schema.PrimaryKey
import RowSchema.Proofs.Schema.Mirrored
import RowSchema.Proofs.Schema.Required
import RowSchema.Proofs.Draft.Make
import RowSchema.Proofs.Schema.Copies
import RowSchema.Proofs.Selection.Arguments
import RowSchema.Proofs.Schema.Defaults
import RowSchema.Proofs.Selection.Passing
import RowSchema.Proofs.Schema.Constructors
import RowSchema.Proofs.Schema.Spacing
import RowSchema.Proofs.Reader.Accessor
import RowSchema.Proofs.TypeRef.Text
import RowSchema.Proofs.ColumnSpec.Reordered
import RowSchema.Proofs.Editor.Declared
import RowSchema.Proofs.Schema.Lookup
import RowSchema.Proofs.TypeHint.Layers
import RowSchema.Proofs.Editor.Edits
