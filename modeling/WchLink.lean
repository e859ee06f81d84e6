import WchLink.Interaction.Program
import WchLink.Interaction.World
import WchLink.Interaction.Trace
import WchLink.Interaction.ProgramClass
import WchLink.Interaction.Surface
import WchLink.Interaction.Labels
import WchLink.Bytes
import WchLink.Target
import WchLink.Linke
import WchLink.UsbTransport
import WchLink.DebugModule
import WchLink.AccessTrace
import WchLink.BlockRead
import WchLink.Flash
import WchLink.Layers
import WchLink.AccessLog
import WchLink.Simulator
import WchLink.SimulatorAccess
import WchLink.SimulatorRegisters
import WchLink.SimulatorMemory
import WchLink.Flasher
import WchLink.FlashWrite
import WchLink.FlashRequest
import WchLink.FlashStores
import WchLink.Gdb.Host
import WchLink.Gdb.Text
import WchLink.Gdb.Packet
import WchLink.Gdb.Target
import WchLink.Gdb.Monitor
import WchLink.Gdb.Server
import WchLink.Gdb.Bench
import WchLink.Gdb.Framing
import WchLink.Gdb.Registers
import WchLink.Interaction.Reach
import WchLink.Gdb.Handlers
import WchLink.Gdb.Session
import WchLink.Gdb.Observed
import WchLink.Gdb.StopReplies
import WchLink.Gdb.Retransmission
import WchLink.Gdb.Hangup
import WchLink.Gdb.Handshake
import WchLink.InterfaceCache
import WchLink.FlashRelease
import WchLink.Cli
import WchLink.CliSession
import WchLink.Gdb.MemoryPackets
import WchLink.Gdb.PacketSize
import WchLink.Gdb.StalePacket
import WchLink.Gdb.MemoryWrites
import WchLink.Gdb.Machine
import WchLink.Patching
import WchLink.Gdb.Breakpoints
import WchLink.Gdb.Effects
import WchLink.Gdb.BreakpointRepeats
import WchLink.Gdb.Bookkeeping
import WchLink.ReadPlan
import WchLink.Verification
import WchLink.RegisterAccess
import WchLink.CommandErrors
import WchLink.SimulatorPrimitives
import WchLink.Refusals
import WchLink.SdiTerminal
import WchLink.Gdb.Numerals
import WchLink.Gdb.MonitorNumbers
import WchLink.Gdb.Grammar
import WchLink.Gdb.GarbledPackets
import WchLink.Gdb.Wire
import WchLink.Gdb.Replies
import WchLink.Gdb.EmptyReplies
import WchLink.PartLookup
import WchLink.FlashRange
import WchLink.Riscv
import WchLink.InstructionEncoding
import WchLink.AbstractCommands
import WchLink.Gdb.DocumentTransfer
import WchLink.UsbLink
import WchLink.Masks
import WchLink.ControllerModes
import WchLink.Gdb.StepDcsr
import WchLink.ProtectedPages
import WchLink.WriteProtection
import WchLink.Interaction.Triple
import WchLink.Interaction.Breaking
import WchLink.LossyAccess
import WchLink.RegisterFrame
import WchLink.SupervisedFlash
import WchLink.LossyFlash
import WchLink.InterruptedFlash
import WchLink.Desk
import WchLink.ImageTransfer
import WchLink.ProgrammerModes
import WchLink.UsbDevices
import WchLink.UsbLedger
import WchLink.Interaction.Completes
import WchLink.Interaction.Implement
import WchLink.Numbers
import WchLink.CommandLine
import WchLink.Main
import WchLink.MainLedger
import WchLink.CommandTurns
import WchLink.Workshop
import WchLink.StaticBus
import WchLink.UnreliableDesk
