import BlockCanvas.Graph.Command
import BlockCanvas.Http.Session
import BlockCanvas.Main
import BlockCanvas.Proofs.Edit
import BlockCanvas.Proofs.Path
import BlockCanvas.Proofs.Growth
import BlockCanvas.Proofs.Sequence
import BlockCanvas.Proofs.DataFlow
import BlockCanvas.Proofs.RoundTrip
import BlockCanvas.Proofs.Typing
import BlockCanvas.Proofs.Chain
import BlockCanvas.Proofs.Rendering
import BlockCanvas.Proofs.Notes
import BlockCanvas.Proofs.Diagnostics
import BlockCanvas.Proofs.Statements
import BlockCanvas.Proofs.Recompile
import BlockCanvas.Proofs.Quoting
import BlockCanvas.Proofs.Spelling
import BlockCanvas.Proofs.Unambiguous
import BlockCanvas.Proofs.Renaming
import BlockCanvas.Proofs.RenamedProgram
import BlockCanvas.Proofs.SilentRestore
import BlockCanvas.Proofs.Reading
import BlockCanvas.Proofs.LineCount
import BlockCanvas.Proofs.Independence
import BlockCanvas.Proofs.ReadBack
import BlockCanvas.Proofs.Service
import BlockCanvas.Proofs.ProgramMap
import BlockCanvas.Proofs.Unreadable
import BlockCanvas.Proofs.CompileFailure
import BlockCanvas.Proofs.Countdown
import BlockCanvas.Proofs.Residue
import BlockCanvas.Proofs.TreeOrder
import BlockCanvas.Proofs.WarningLog
import BlockCanvas.Proofs.InPlace
import BlockCanvas.Proofs.CleanFailure
import BlockCanvas.Proofs.CycleSearch
import BlockCanvas.Proofs.Layers
import BlockCanvas.Proofs.SelfDependence
import BlockCanvas.Proofs.Deletion
import BlockCanvas.Proofs.Relinking
import BlockCanvas.Proofs.Unused
import BlockCanvas.Proofs.Misplaced
import BlockCanvas.Proofs.Idempotence
import BlockCanvas.Proofs.Listing
import BlockCanvas.Proofs.Numeral
import BlockCanvas.Proofs.PlainNumber
