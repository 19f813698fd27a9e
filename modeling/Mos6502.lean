import Mos6502.Alu
import Mos6502.CommandLine.Console
import Mos6502.CommandLine.FileStore
import Mos6502.CommandLine.Help
import Mos6502.CommandLine.Image
import Mos6502.CommandLine.Options
import Mos6502.CommandLine.Program
import Mos6502.Decimal.Shortest
import Mos6502.Execution.Interpret
import Mos6502.Execution.Run
import Mos6502.Execution.Window
import Mos6502.Fault
import Mos6502.Flags
import Mos6502.Instruction.Mnemonic
import Mos6502.Instruction.Mode
import Mos6502.Instruction.Table
import Mos6502.Json.Document
import Mos6502.Json.Parse
import Mos6502.Json.Token
import Mos6502.Json.Value
import Mos6502.Label.Line
import Mos6502.Label.Table
import Mos6502.Listing
import Mos6502.Main
import Mos6502.Memory.Basic
import Mos6502.Memory.Cell
import Mos6502.Memory.KeyStream
import Mos6502.Metrics.Basic
import Mos6502.Metrics.Exposition
import Mos6502.Microcode.Basic
import Mos6502.Microcode.Instruction
import Mos6502.Microcode.Operand
import Mos6502.Microcode.Stack
import Mos6502.Monitor.Command
import Mos6502.Monitor.Perform
import Mos6502.Profile.Basic
import Mos6502.Profile.File
import Mos6502.Profile.Report
import Mos6502.Proofs.Bare.Correspondence
import Mos6502.Proofs.Bare.Laws
import Mos6502.Proofs.Bare.Machine
import Mos6502.Proofs.InstructionTable
import Mos6502.Proofs.Word
import Mos6502.Registers
import Mos6502.Settings
import Mos6502.Snapshot.Base64
import Mos6502.Snapshot.Basic
import Mos6502.Snapshot.Digest
import Mos6502.Snapshot.Restore
import Mos6502.Snapshot.RunLength
import Mos6502.Text.Blank
import Mos6502.Text.Lines
import Mos6502.Text.Numeral
import Mos6502.Timestamp
import Mos6502.Word
import Mos6502.World.Access
import Mos6502.World.Basic
import Mos6502.World.Journal
import Mos6502.World.Setup
import Mos6502.Proofs.CycleLimit
import Mos6502.Proofs.FaultHistory
import Mos6502.Proofs.Lockstep
import Mos6502.Proofs.UnreadableBytes
import Mos6502.Proofs.UnknownFlags
import Mos6502.Proofs.Json
import Mos6502.Proofs.Timestamp
import Mos6502.Proofs.Snapshot.Base64
import Mos6502.Proofs.Snapshot.RunLength
import Mos6502.Proofs.Snapshot.Text
import Mos6502.Proofs.Snapshot.Restore
import Mos6502.Proofs.Operation
import Mos6502.Proofs.Bare.Operation
import Mos6502.Proofs.Snapshot.Checkpoint
import Mos6502.Proofs.Cellwise
import Mos6502.Proofs.MemoryInvariant
import Mos6502.Proofs.ProtectedMemory
import Mos6502.Proofs.MemoryHistory
import Mos6502.Proofs.Invocation
import Mos6502.Proofs.Mediation
import Mos6502.Proofs.ProfileCycles
import Mos6502.Proofs.ProfileSample
import Mos6502.Proofs.Policy
import Mos6502.Proofs.OrdinaryMemory
import Mos6502.Proofs.CycleCounter
import Mos6502.Proofs.Observers
import Mos6502.Proofs.Bare.Stack
import Mos6502.Proofs.HookChain
import Mos6502.Proofs.SubroutineCall
import Mos6502.Proofs.ProfileFile
import Mos6502.Proofs.ProfileSum
import Mos6502.Proofs.InstructionCount
import Mos6502.Proofs.Declarations
import Mos6502.Proofs.LoadedImage
import Mos6502.Proofs.LabelLine
import Mos6502.Proofs.Lines
import Mos6502.Proofs.LabelFile
import Mos6502.Proofs.FaultAddress
import Mos6502.Proofs.AccessTrace
import Mos6502.Proofs.Inspection
import Mos6502.Proofs.InstructionCost
import Mos6502.Proofs.CycleBudget
import Mos6502.Proofs.CycleRollback
import Mos6502.Proofs.Bare.Stores
import Mos6502.Proofs.MultiByte.Chain
import Mos6502.Proofs.MultiByte.Binary
import Mos6502.Proofs.MultiByte.Decimal
import Mos6502.Proofs.MultiByte.Shift
import Mos6502.Proofs.Listing.Coverage
import Mos6502.Proofs.Listing.Text
import Mos6502.Proofs.NoEffect
import Mos6502.Proofs.ProfileTotals
import Mos6502.Proofs.HotSpots
import Mos6502.Proofs.Bare.NextInstruction
import Mos6502.Proofs.WindowCost
import Mos6502.Proofs.Bare.Events
import Mos6502.Proofs.FirstFault
import Mos6502.Proofs.Footprint
import Mos6502.Proofs.StatusInvariants
import Mos6502.Proofs.StackDiscipline
import Mos6502.Proofs.Bare.Unseen
import Mos6502.Proofs.ImplicitReturn
import Mos6502.Proofs.Settings
