import Mc6809.Alu
import Mc6809.Bench.Board
import Mc6809.Bench.Command
import Mc6809.Bench.Session
import Mc6809.Bench.Trial
import Mc6809.Bus
import Mc6809.Cpu
import Mc6809.Decimal.Binary64
import Mc6809.Decimal.Shortest
import Mc6809.Emulator
import Mc6809.Event
import Mc6809.Fault
import Mc6809.Flags
import Mc6809.Instruction.Execute
import Mc6809.Instruction.Operation
import Mc6809.Interrupt
import Mc6809.Json
import Mc6809.Json.Token
import Mc6809.Laps
import Mc6809.Machine
import Mc6809.Memory.Banking
import Mc6809.Memory.MapError
import Mc6809.Memory.Mapping
import Mc6809.Memory.PageTable
import Mc6809.Memory.Store
import Mc6809.Opcode.Mnemonic
import Mc6809.Opcode.Table
import Mc6809.Operand
import Mc6809.Postbyte
import Mc6809.Registers
import Mc6809.Snapshot
import Mc6809.Snapshot.Text
import Mc6809.Step
import Mc6809.Text.Hex
import Mc6809.Timer
import Mc6809.Traffic
import Mc6809.Word
import Mc6809.Proofs.Course
import Mc6809.Proofs.Action
import Mc6809.Proofs.Law
import Mc6809.Proofs.Transaction
import Mc6809.Proofs.Cycles
import Mc6809.Proofs.Run
import Mc6809.Proofs.Arbitration
import Mc6809.Proofs.Flat
import Mc6809.Proofs.Frame
import Mc6809.Proofs.Split
import Mc6809.Proofs.Cadence
import Mc6809.Proofs.Wait
import Mc6809.Proofs.Decode
import Mc6809.Proofs.Service
import Mc6809.Proofs.Storage
import Mc6809.Proofs.Retry
import Mc6809.Proofs.Mapping
import Mc6809.Proofs.Banking
import Mc6809.Proofs.BankedMemory
import Mc6809.Proofs.Located
import Mc6809.Proofs.Completed
import Mc6809.Proofs.Writes
import Mc6809.Proofs.NextAddress
import Mc6809.Proofs.Arming
import Mc6809.Proofs.WaitStates
import Mc6809.Proofs.FlagFrame
import Mc6809.Proofs.Lockstep
import Mc6809.Proofs.Backing
import Mc6809.Proofs.Restore
import Mc6809.Proofs.Parse
import Mc6809.Proofs.Scan
import Mc6809.Proofs.SnapshotText
import Mc6809.Proofs.Stacking
import Mc6809.Proofs.Indexed
import Mc6809.Proofs.Timeless
import Mc6809.Proofs.Laps
import Mc6809.Proofs.FlatEmulator
import Mc6809.Proofs.CycleReport
import Mc6809.Proofs.Sums
import Mc6809.Proofs.CarryChain
import Mc6809.Proofs.PackedDecimal
import Mc6809.Proofs.Transfer
import Mc6809.Proofs.Comparison
import Mc6809.Proofs.WideShifts
import Mc6809.Proofs.BlockMapping
import Mc6809.Proofs.SharedViews
import Mc6809.Proofs.ProgramLoading
import Mc6809.Proofs.ByteStack
import Mc6809.Proofs.ViewBounds
