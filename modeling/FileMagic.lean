import FileMagic.CommandLine
import FileMagic.Handle
import FileMagic.Main
import FileMagic.Proofs.Agreement
import FileMagic.Proofs.BootImage
import FileMagic.Proofs.BootVersion
import FileMagic.Proofs.Calendar
import FileMagic.Proofs.Calm
import FileMagic.Proofs.Capital
import FileMagic.Proofs.Chain
import FileMagic.Proofs.Coder
import FileMagic.Proofs.Comparison
import FileMagic.Proofs.Compile
import FileMagic.Proofs.Concatenation
import FileMagic.Proofs.Deletion
import FileMagic.Proofs.Due
import FileMagic.Proofs.Evaluation
import FileMagic.Proofs.Except
import FileMagic.Proofs.Exhausted
import FileMagic.Proofs.Extender
import FileMagic.Proofs.FallThrough
import FileMagic.Proofs.Figures
import FileMagic.Proofs.FileText
import FileMagic.Proofs.Forest
import FileMagic.Proofs.Glue
import FileMagic.Proofs.Growth
import FileMagic.Proofs.Identification
import FileMagic.Proofs.Identifier
import FileMagic.Proofs.Inert
import FileMagic.Proofs.IntegerTest
import FileMagic.Proofs.Label
import FileMagic.Proofs.Lifecycle
import FileMagic.Proofs.Line
import FileMagic.Proofs.Literal
import FileMagic.Proofs.Means
import FileMagic.Proofs.Medium
import FileMagic.Proofs.Operand
import FileMagic.Proofs.Outcome
import FileMagic.Proofs.PlaceValue
import FileMagic.Proofs.Pointer
import FileMagic.Proofs.Position
import FileMagic.Proofs.Reading
import FileMagic.Proofs.Recompile
import FileMagic.Proofs.Record
import FileMagic.Proofs.Registration
import FileMagic.Proofs.Rendering
import FileMagic.Proofs.Scan
import FileMagic.Proofs.Search
import FileMagic.Proofs.Signature
import FileMagic.Proofs.Slice
import FileMagic.Proofs.Spacing
import FileMagic.Proofs.Specifier
import FileMagic.Proofs.Timestamp
import FileMagic.Proofs.Totality
import FileMagic.Proofs.Truncation
import FileMagic.Proofs.Utf8
import FileMagic.Proofs.Window
import FileMagic.Session
