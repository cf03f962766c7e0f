import SinIdeas.Utils.Estructuras
import SinIdeas.Utils.Mensajes

/-!
# Data of the kernel module

Control blocks, mutexes, joins and the global variables of the kernel. PIDs, TIDs,
`tid_count` and the other counters are natural numbers where the source has
`uint32_t`: the model is that of the source as long as no more than `2 ^ 32` of them
are handed out. Where they are sent to memoria as words, the bound is a hypothesis.

A TCB of the scheduler lists is an object that the lists, the join list and the
mutex queues point to; `dir` is its identity. The PCBs are kept by PID, which is
unique, and the lists of processes hold PIDs.
-/

namespace SinIdeas
namespace Kernel

/-- `t_tcb`. -/
structure Tcb where
  dir : Nat
  tid : Nat
  parentPid : Nat
  priority : Nat
  state : State
  filePath : List Char
  deriving DecidableEq

/-- `t_pcb`; `tcbs` are copies of the TCBs of the scheduler lists. -/
structure Pcb where
  pid : Nat
  state : State
  tids : List Nat
  tidCount : Nat
  mutex : List (List Char)
  mutexCount : Nat
  tcbs : List Tcb
  numTcbs : Nat
  size : Nat
  deriving DecidableEq

/-- `t_mutex`; `liberado` marks one that was given back with `free` while it is
still in `global_mutexes`. -/
structure Mutex where
  name : List Char
  assignedPid : Nat
  assignedTid : Nat
  assigned : Bool
  blockedTcbs : List Tcb
  blockedCount : Nat
  liberado : Bool
  deriving DecidableEq

/-- The TID of a mutex without owner, `-1`. -/
def tidLibre : Nat := 4294967295

/-- `t_tcb_join`. -/
structure TcbJoin where
  blockedTcb : Tcb
  blockingTcb : Tcb
  deriving DecidableEq

/-- `io_request`. -/
structure IoRequest where
  ioTime : Nat
  pid : Nat
  tid : Nat
  deriving DecidableEq

/-- `t_process_create`: the first thread of a process that waits in NEW. -/
structure ProcessCreate where
  nombreArchivo : List Char
  tamanioProceso : Nat
  prioridad : Nat
  deriving DecidableEq

/-- Where a `dump_memory_thread` is: waiting for memoria, or in the loop that ends
its process after a failure, at the thread `i` or inside its `sem_wait`. -/
inductive DumpFase where
  | enVuelo
  | finalizando (pid i : Nat)
  | esperando (pid i : Nat)
  deriving DecidableEq

/-- A `dump_memory_thread` and the copy of the TCB it works with. -/
structure Dump where
  tcb : Tcb
  fase : DumpFase
  deriving DecidableEq

/-- Why the dispatcher ends a process. -/
inductive Causa where
  | processExit
  | segmentationFault
  deriving DecidableEq

/-- Where the dispatcher is: at the top of its loop, with
`seguir_ejecutando_mismo_tcb` and `previo_tcb`; waiting for the CPU, with
`proximo_tcb`; or in the loop that ends a process, at the thread `i` or inside
its `sem_wait`. -/
inductive Fase where
  | planificar (seguir : Bool) (previo : Option Tcb)
  | ejecutando (proximo : Tcb)
  | finalizando (causa : Causa) (proximo : Tcb) (i : Nat)
  | esperando (causa : Causa) (proximo : Tcb) (i : Nat)
  deriving DecidableEq

/-- `ALGORITMO_PLANIFICACION`. -/
inductive SchedulerAlgorithm where
  | fifo
  | prioridades
  | cmn
  | otro
  deriving DecidableEq

/-- The configured algorithm and memoria, as the kernel sees it: the new state of
memoria and whether it answered `OK`. -/
structure Config (μ : Type) where
  schedulerAlgorithm : SchedulerAlgorithm
  createProcessMemory : μ → Nat → Nat → μ × Bool
  createThreadMemory : μ → Tcb → μ × Bool
  deleteProcessMemory : μ → Nat → Nat → μ × Bool
  deleteThreadMemory : μ → Tcb → μ × Bool

/-- The global variables of the kernel and the place of the dispatcher. -/
structure Globals (μ : Type) where
  listNewTcb : List Tcb
  listReadyTcb : List Tcb
  listBlockedTcb : List Tcb
  listExitTcb : List Tcb
  semThreadCount : Nat
  listTcbJoins : List TcbJoin
  listaTcbsBlockeados : List (Tcb × Nat)
  globalMutexes : List Mutex
  ioRequestQueue : List IoRequest
  dumps : List Dump
  pcbs : Nat → Pcb
  listPcbNew : List Nat
  listPcbActive : List Nat
  listPcbExit : List Nat
  globalPid : Nat
  listFirstThreadParams : List ProcessCreate
  currentPcbExecuting : Option Nat
  currentTcbExecuting : Option Tcb
  semQuantum : Nat
  quantumInterrupted : Bool
  nextDir : Nat
  fase : Fase
  memoria : μ

/-- The kernel before its first process. -/
def inicial {μ : Type} (memoria : μ) : Globals μ where
  listNewTcb := []
  listReadyTcb := []
  listBlockedTcb := []
  listExitTcb := []
  semThreadCount := 0
  listTcbJoins := []
  listaTcbsBlockeados := []
  globalMutexes := []
  ioRequestQueue := []
  dumps := []
  pcbs := fun pid =>
    { pid, state := .new, tids := [], tidCount := 0, mutex := [], mutexCount := 0,
      tcbs := [], numTcbs := 0, size := 0 }
  listPcbNew := []
  listPcbActive := []
  listPcbExit := []
  globalPid := 0
  listFirstThreadParams := []
  currentPcbExecuting := none
  currentTcbExecuting := none
  semQuantum := 0
  quantumInterrupted := false
  nextDir := 0
  fase := .planificar false none
  memoria := memoria

end Kernel
end SinIdeas
