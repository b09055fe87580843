import Arm32.Psr
import Arm32.Shifter
import Arm32.Wide
import Arm32.Registers
import Arm32.Memory.Image
import Arm32.Instruction.BitLayout
import Arm32.Refusal
import Arm32.Vfp.Arithmetic
import Arm32.Machine
import Arm32.Vfp.ShortVector
import Arm32.Execution.DataProcessing
import Arm32.Execution.Step
import Arm32.Disassembly.Basic
import Arm32.Emulator
import Arm32.Listing
import Arm32.Changes
import Arm32.CommentFile
import Arm32.Document.Basic
import Arm32.Document.Form
import Arm32.Document.Nesting
import Arm32.Document.Instruction
import Arm32.Document.Settings
import Arm32.CommandLine.Arguments
import Arm32.CommandLine.Report
import Arm32.Main
import Arm32.Proofs.NotedRefusals
import Arm32.Proofs.Emulation.Budget
import Arm32.Proofs.Listing.Blocks
import Arm32.Proofs.Listing.Comments
import Arm32.Proofs.Memory.Words
import Arm32.Proofs.Listing.Labels
import Arm32.Proofs.Disassembly.Pieces
import Arm32.Proofs.Disassembly.Mnemonics
import Arm32.Proofs.Disassembly.Operands
import Arm32.Proofs.Disassembly.Assembly
import Arm32.Proofs.Disassembly.Meaning
import Arm32.Proofs.Safety.Checks
import Arm32.Proofs.Safety.Decoding
import Arm32.Proofs.Safety.DataPath
import Arm32.Proofs.Safety.Memory
import Arm32.Proofs.Safety.Execution
import Arm32.Proofs.Safety.Transfer
import Arm32.Proofs.Safety.Vfp
import Arm32.Proofs.Safety.Documented
import Arm32.Proofs.Safety.Printing
import Arm32.Proofs.Safety.Step
import Arm32.Proofs.Agreement
import Arm32.Proofs.Emulation.Sequence
import Arm32.Proofs.Frame.Footprint
import Arm32.Proofs.Simulation.Alike
import Arm32.Proofs.Frame.Execution
import Arm32.Proofs.Frame.Invariants
import Arm32.Proofs.Emulation.Tracing
import Arm32.Proofs.Simulation.ByteOrder
import Arm32.Proofs.Simulation.Processor
import Arm32.Proofs.Arithmetic.Comparison
import Arm32.Proofs.Decoding.Condition
import Arm32.Proofs.Decoding.Encodings
import Arm32.Proofs.Emulation.ControlFlow
import Arm32.Proofs.Arithmetic.Exact
import Arm32.Proofs.Arithmetic.Limbs
import Arm32.Proofs.Arithmetic.CarryChain
import Arm32.Proofs.Transfer.Block
import Arm32.Proofs.Transfer.Stack
import Arm32.Proofs.Arithmetic.Ripple
import Arm32.Proofs.Arithmetic.Places
import Arm32.Proofs.Arithmetic.LongProduct
import Arm32.Proofs.Transfer.Unit
import Arm32.Proofs.Memory.Views
import Arm32.Proofs.Memory.Loading
import Arm32.Proofs.Transfer.Slots
import Arm32.Proofs.Disassembly.RegisterLists
import Arm32.Proofs.Transfer.SavedSlots
import Arm32.Proofs.Vector.Banks
import Arm32.Proofs.Vector.Elements
import Arm32.Proofs.Float.Value
import Arm32.Proofs.Float.Comparison
import Arm32.Proofs.Disassembly.Columns
import Arm32.Proofs.Vector.Indices
import Arm32.Proofs.Text.Numerals
import Arm32.Proofs.Text.CommentFiles
import Arm32.Proofs.Disassembly.OneLine
import Arm32.Proofs.Listing.Text
import Arm32.Proofs.Listing.CommentedText
import Arm32.Proofs.Transfer.PrintedOffset
import Arm32.Proofs.Bits.Carried
