import Armator.Lib.Replay
import Armator.Lib.ByteOrder
import Armator.Lib.SortedTable
import Armator.Lib.CText
import Armator.Lib.Lexer
import Armator.Lib.WordArith
import Armator.Lib.BarrelShifter
import Armator.Lib.EventLog
import Armator.Lib.Outcomes
import Armator.Lib.Lockstep
import Armator.Util
import Armator.Registers
import Armator.Memory
import Armator.Core
import Armator.Exception
import Armator.DataProcessing
import Armator.LoadStore
import Armator.BranchOther
import Armator.Instruction
import Armator.Step
import Armator.Alu
import Armator.RegisterBanks
import Armator.ByteMap
import Armator.BlockTransfer
import Armator.PushPop
import Armator.Effects
import Armator.Privilege
import Armator.ReachableModes
import Armator.SoftwareInterrupt
import Armator.Comparison
import Armator.Addressing
import Armator.ShiftCounts
import Armator.DataAccess
import Armator.Rejection
import Armator.Opcode
import Armator.ArithmeticFlags
import Armator.LogicalFlags
import Armator.Noninterference
import Armator.DoubleWord
import Armator.Mode3
import Armator.Mode2
import Armator.ScaledIndex
import Armator.Shifter
import Armator.SingleTransfers
import Armator.BlockCorners
import Armator.SequentialFlow
import Armator.Branch
import Armator.PcAhead
import Armator.Printed
import Armator.Constant
import Armator.Gdb.Breakpoints
import Armator.Gdb.Protocol
import Armator.Gdb.Scanner
import Armator.Gdb.Framing
import Armator.Gdb.Continue
import Armator.Gdb.RegisterTransfer
import Armator.Gdb.MemoryTransfer
import Armator.Gdb.SingleRegister
import Armator.Gdb.PacketSafety
import Armator.Gdb.RefusedWrite
import Armator.Gdb.FullTable
import Armator.Gdb.ErrorBuffer
import Armator.Gdb.Service
import Armator.Gdb.Link
import Armator.Gdb.Session
import Armator.Gdb.Noise
import Armator.Lib.Progress
import Armator.Portability
import Armator.ProgramLogic
import Armator.Example1
import Armator.Example2
import Armator.Gdb.Running
import Armator.Gdb.Target
import Armator.Gdb.Refinement
import Armator.Lib.History
import Armator.Lib.Telling
import Armator.Lib.Printf
import Armator.MemoryLog
import Armator.TraceReplay
