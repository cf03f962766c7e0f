import SinIdeas.Lib.Runs
import SinIdeas.Lib.History
import SinIdeas.Lib.Observations
import SinIdeas.Lib.RegisterMachine
import SinIdeas.Lib.ProcessMachine
import SinIdeas.Lib.StableSort
import SinIdeas.Lib.Layout
import SinIdeas.Lib.LittleEndian
import SinIdeas.Lib.ByteFile
import SinIdeas.Lib.BitArray
import SinIdeas.Lib.FirstMatch
import SinIdeas.Lib.RunningOptimum
import SinIdeas.Lib.FixedBuffer
import SinIdeas.Utils.Estructuras
import SinIdeas.Memoria.Structs
import SinIdeas.Memoria.Partitions
import SinIdeas.Memoria.Requests
import SinIdeas.Memoria.FixedPartitions
import SinIdeas.Memoria.Occupancy
import SinIdeas.Memoria.Tiling
import SinIdeas.Memoria.ThreadContext
import SinIdeas.Utils.Mensajes
import SinIdeas.Cpu.Parse
import SinIdeas.Cpu.Instructions
import SinIdeas.Isolation
import SinIdeas.Lib.ThreadPool
import SinIdeas.Kernel.Structs
import SinIdeas.Kernel.TcbLists
import SinIdeas.Kernel.Mutexes
import SinIdeas.Kernel.Threads
import SinIdeas.Kernel.Dispatch
import SinIdeas.Kernel.Vista
import SinIdeas.Kernel.Simulation
import SinIdeas.Kernel.ReadySemaphore
import SinIdeas.Kernel.ThreadPlaces
import SinIdeas.Kernel.ThreadIds
import SinIdeas.Kernel.JoinWakeups
import SinIdeas.Kernel.MutexOwnership
import SinIdeas.Kernel.MutexQueues
import SinIdeas.Kernel.ProcessEnd
import SinIdeas.Kernel.DeviceSteps
import SinIdeas.Cpu.Cycle
import SinIdeas.Cpu.ReturnMessage
import SinIdeas.Cpu.ContextSwitch
import SinIdeas.Kernel.LongTerm
import SinIdeas.Kernel.Admission
import SinIdeas.Kernel.PcbBookkeeping
import SinIdeas.FileSystem.Bitmap
import SinIdeas.FileSystem.Blocks
import SinIdeas.FileSystem.OwnBlocks
import SinIdeas.FileSystem.RoundTrip
import SinIdeas.FileSystem.LowestBlocks
import SinIdeas.FileSystem.Files
import SinIdeas.FileSystem.RealBlocks
import SinIdeas.FileSystem.FailedCreation
import SinIdeas.Kernel.IoDevice
import SinIdeas.Kernel.Quantum
import SinIdeas.Kernel.QuantumSteps
import SinIdeas.Kernel.QuantumArming
import SinIdeas.Kernel.Preemption
import SinIdeas.Memoria.Rebuild
import SinIdeas.Memoria.Placement
import SinIdeas.Memoria.Canonical
import SinIdeas.Memoria.Summary
import SinIdeas.Kernel.FreedMemory
import SinIdeas.Kernel.JoinPass
import SinIdeas.Kernel.AllOrNothing
import SinIdeas.Lib.FifoLock
import SinIdeas.Kernel.MutexFifo
import SinIdeas.Lib.PriorityQueue
import SinIdeas.Kernel.ReadyQueue
import SinIdeas.Utils.RoundTrips
import SinIdeas.Utils.Paquetes
import SinIdeas.Utils.PackageParser
import SinIdeas.Utils.PcbCodec
import SinIdeas.Lib.CString
import SinIdeas.Cpu.ParseLine
import SinIdeas.Cpu.ScriptLines
import SinIdeas.Kernel.UnknownTargets
import SinIdeas.Kernel.ThreadCancel
import SinIdeas.Pairing
import SinIdeas.Memoria.Replies
import SinIdeas.Memoria.OwnBytes
import SinIdeas.Memoria.Framing
import SinIdeas.Sessions
import SinIdeas.FileSystem.Dumps
import SinIdeas.FileSystem.Restart
import SinIdeas.FileSystem.Store
import SinIdeas.Memoria.ProcessEntry
import SinIdeas.ProcessRounds
import SinIdeas.PrivateProcess
import SinIdeas.Lib.Lines
import SinIdeas.Memoria.ScriptFiles
import SinIdeas.Lib.Outlines
import SinIdeas.OutlinedProcess
import SinIdeas.Cpu.Ports
import SinIdeas.WireCycle
import SinIdeas.DumpFiles
import SinIdeas.ProgramText
import SinIdeas.Fibonacci
import SinIdeas.Kernel.LiveThreads
import SinIdeas.Residency
import SinIdeas.ThreadTable
import SinIdeas.System
import SinIdeas.LiveContexts
import SinIdeas.MachineLog
import SinIdeas.SystemOutlines
