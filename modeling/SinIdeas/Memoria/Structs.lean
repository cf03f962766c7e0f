import SinIdeas.Utils.Estructuras

/-!
# Data of the memoria module

The process table, the partition list and the user memory that `memoria.c`
keeps as global variables, and the configuration it reads at start-up.
-/

namespace SinIdeas
namespace Memoria

/-- `t_mem_register`. -/
structure MemRegister where
  pc : UInt32
  ax : UInt32
  bx : UInt32
  cx : UInt32
  dx : UInt32
  ex : UInt32
  fx : UInt32
  gx : UInt32
  hx : UInt32
  deriving DecidableEq

/-- `init_registers`. -/
def initRegisters : MemRegister where
  pc := 0
  ax := 0
  bx := 0
  cx := 0
  dx := 0
  ex := 0
  fx := 0
  gx := 0
  hx := 0

/-- `t_mem_tcb`: a thread of a process. -/
structure MemTcb where
  tid : UInt32
  regs : MemRegister
  filePath : List Char
  deriving DecidableEq

/-- `t_mem_pcb`: a process, its region `[base, limite)` and its threads. -/
structure MemPcb where
  pid : UInt32
  base : UInt32
  limite : UInt32
  size : UInt32
  regs : MemRegister
  threads : List MemTcb
  deriving DecidableEq

/-- `t_mem_partition`: a piece of the user memory, free or given to a process. -/
structure MemPartition where
  pid : UInt32
  base : UInt32
  limite : UInt32
  size : UInt32
  isFree : Bool
  deriving DecidableEq

/-- The PID of a free partition, `-1`. -/
def pidLibre : UInt32 := 4294967295

/-- `ESQUEMA`: the partitioning scheme. -/
inductive Esquema where
  | fijas
  | dinamicas
  | otro
  deriving DecidableEq

/-- `ALGORITMO_BUSQUEDA`: how a partition is chosen. -/
inductive Criteria where
  | first
  | best
  | worst
  | otro
  deriving DecidableEq

/-- What memoria takes from outside: its configuration file, the pseudocode
scripts, by path, as their lines, and `list_sort` of the list library. -/
structure Config where
  esquema : Esquema
  algoritmoBusqueda : Criteria
  tamMemoria : UInt32
  particiones : List UInt32
  scripts : List Char → Option (List (List Char))
  listSort : (MemPcb → MemPcb → Bool) → List MemPcb → List MemPcb

/-- The global variables of memoria that requests read and change. -/
structure Globals where
  memoryProcessList : List MemPcb
  partitionList : List MemPartition
  memoriaUsuario : List UInt8
  deriving DecidableEq

end Memoria
end SinIdeas
