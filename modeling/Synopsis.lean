import Synopsis.Text.Ranges
import Synopsis.Text.Blank
import Synopsis.Text.Word
import Synopsis.Text.Hidden
import Synopsis.Text.Name
import Synopsis.Text.Leading
import Synopsis.Text.Lines
import Synopsis.Position
import Synopsis.Text.Quoted
import Synopsis.Atom
import Synopsis.Atom.Spelling
import Synopsis.Atom.Set
import Synopsis.Atom.Map
import Synopsis.Pattern
import Synopsis.Pattern.Spelling
import Synopsis.Pattern.Repetition
import Synopsis.Catalog
import Synopsis.Interface
import Synopsis.Interface.Problem
import Synopsis.Interface.Edit
import Synopsis.Diagnostic
import Synopsis.Usage.Option
import Synopsis.Usage.Fragment
import Synopsis.Usage.Expression
import Synopsis.Usage.Block
import Synopsis.Description
import Synopsis.Manual
import Synopsis.Json.Token
import Synopsis.Json.Value
import Synopsis.Json.Form
import Synopsis.Stored.Value
import Synopsis.Stored.Form
import Synopsis.Proofs.Pattern.Node
import Synopsis.Proofs.Pattern.Canonical
import Synopsis.Proofs.Text.Front
import Synopsis.Proofs.Usage.Option
import Synopsis.Proofs.Usage.Spelled
import Synopsis.Proofs.Usage.Canonical
import Synopsis.Proofs.Manual.Spelling
import Synopsis.Proofs.Pattern.Language
import Synopsis.Proofs.Pattern.Repetition
import Synopsis.Proofs.Atom.Map
import Synopsis.Proofs.Catalog
import Synopsis.Proofs.Manual.Reading
import Synopsis.Proofs.Manual.Repetition
import Synopsis.Proofs.Pattern.Flat
import Synopsis.Proofs.Pattern.Replacement
import Synopsis.Proofs.Usage.Accepted
import Synopsis.Proofs.Usage.Produced
import Synopsis.Proofs.Atom.Set
import Synopsis.Proofs.Description
import Synopsis.Proofs.Catalog.Listing
import Synopsis.Proofs.Catalog.Synonyms
import Synopsis.Proofs.Interface.Problem
import Synopsis.Proofs.Interface.Assembly
import Synopsis.Proofs.Manual.Synonyms
import Synopsis.Proofs.Atom.Spelling
import Synopsis.Proofs.Json.String
import Synopsis.Proofs.Json.Value
import Synopsis.Proofs.Json.Written
import Synopsis.Proofs.Json.Form
import Synopsis.Proofs.Stored.Nesting
import Synopsis.Proofs.Stored.Written
import Synopsis.Proofs.Stored.Read
import Synopsis.Proofs.Stored.RoundTrip
import Synopsis.Proofs.Pattern.Substitution
import Synopsis.Proofs.Catalog.Expansion
import Synopsis.Proofs.Catalog.Representative
import Synopsis.Proofs.Usage.Phrase
import Synopsis.Proofs.Usage.Piece
import Synopsis.Proofs.Usage.Cut
import Synopsis.Proofs.Text.Feed
import Synopsis.Proofs.Text.Lines
import Synopsis.Proofs.Usage.Feed
import Synopsis.Proofs.Usage.Transparent
import Synopsis.Proofs.Usage.Line
import Synopsis.Proofs.Description.Record
import Synopsis.Proofs.Usage.Block
import Synopsis.Proofs.Position
import Synopsis.Proofs.Manual.Records
import Synopsis.Proofs.Usage.Turn
import Synopsis.Proofs.Usage.Below
import Synopsis.Proofs.Manual.Lines
import Synopsis.Proofs.Text.Carriage
import Synopsis.Proofs.Diagnostic
import Synopsis.Proofs.Usage.Refused
import Synopsis.Proofs.Usage.Header
import Synopsis.Proofs.Description.Refused
import Synopsis.Proofs.Manual.Refused
import Synopsis.Proofs.Usage.Carriage
import Synopsis.Proofs.Description.Carriage
import Synopsis.Proofs.Manual.Carriage
import Synopsis.Proofs.Pattern.Sound
import Synopsis.Proofs.Usage.Sound
import Synopsis.Proofs.Catalog.Sound
import Synopsis.Proofs.Manual.Sound
import Synopsis.Proofs.Stored.Normal
import Synopsis.Proofs.Interface.Building
import Synopsis.Proofs.Loop
import Synopsis.Proofs.Usage.Progress
import Synopsis.Proofs.Text.FirstLine
import Synopsis.Proofs.Usage.Stall
import Synopsis.Proofs.Description.Progress
import Synopsis.Proofs.Manual.Progress
import Synopsis.Proofs.Interface.Report
import Synopsis.Proofs.Manual.Contents
import Synopsis.Proofs.Description.Written
import Synopsis.Proofs.Manual.Written
import Synopsis.Proofs.Manual.Preamble
import Synopsis.Proofs.Manual.Final
import Synopsis.Proofs.Text.Layout
import Synopsis.Proofs.Manual.Layout
import Synopsis.Proofs.Pattern.Sequence
import Synopsis.Proofs.Interface.Again
import Synopsis.Proofs.Pattern.Place
import Synopsis.Proofs.Pattern.Recurrence
import Synopsis.Proofs.Position.Order
import Synopsis.Proofs.Catalog.Recording
import Synopsis.Proofs.Description.Alone
import Synopsis.Proofs.Manual.Alone
import Synopsis.Proofs.Text.Span
import Synopsis.Proofs.Usage.Span
import Synopsis.Proofs.Usage.Open
import Synopsis.Proofs.Usage.Scan
import Synopsis.Proofs.Usage.Scan.Expression
import Synopsis.Proofs.Description.Slice
import Synopsis.Proofs.Usage.Bound
