import SinIdeas.Lib.FirstMatch
import SinIdeas.Memoria.Partitions

/-!
# Requests to memoria

The functions of `mem_structs.c` and `mem_buffer.c` behind each request, and
`handleClient`, the switch of `handle_client` that answers one request.
-/

namespace SinIdeas
namespace Memoria

open Lib

/-- `inicializar_memoria` and the initialization of the lists in `main`. -/
def inicializar (cfg : Config) : Globals where
  memoryProcessList := []
  partitionList :=
    if cfg.esquema = .fijas then buildStaticPartitionList cfg.particiones
    else (buildDynamicPartitionList cfg []).2
  memoriaUsuario := List.replicate cfg.tamMemoria.toNat 0

/-- `buscar_proceso_por_pid`. -/
def buscarProcesoPorPid (g : Globals) (pid : UInt32) : Option MemPcb :=
  g.memoryProcessList.find? (fun proceso => proceso.pid == pid)

/-- The new entry of `crear_proceso_mem`. -/
def nuevoProceso (pid base limite size : UInt32) : MemPcb where
  pid := pid
  base := base
  limite := limite
  size := size
  regs := initRegisters
  threads := []

/-- `crear_proceso_mem`. -/
def crearProcesoMem (g : Globals) (pid base limite size : UInt32) : Globals :=
  { g with memoryProcessList := g.memoryProcessList ++ [nuevoProceso pid base limite size] }

/-- `verificar_espacio_y_crear_proceso`; the flag is the answer "Ok". Without a
known scheme it answers "Ok" and does nothing. -/
def verificarEspacioYCrearProceso
    (cfg : Config) (g : Globals) (pid size : UInt32) :
    Globals × Bool :=
  match cfg.esquema with
  | .otro => (g, true)
  | .fijas =>
      match allocateProcessInPartition g.partitionList size cfg.algoritmoBusqueda pid with
      | none => (g, false)
      | some (selected, partitions) =>
          (crearProcesoMem { g with partitionList := partitions }
            pid selected.base (selected.base + size) size, true)
  | .dinamicas =>
      match allocateProcessInPartition g.partitionList size cfg.algoritmoBusqueda pid with
      | none => (g, false)
      | some (selected, partitions) =>
          (updateDynamicPartitionList cfg
            (crearProcesoMem { g with partitionList := partitions }
              pid selected.base (selected.base + size) size), true)

/-- Freeing a fixed partition. -/
def liberarParticion (p : MemPartition) : MemPartition :=
  { p with isFree := true, pid := pidLibre }

/-- `eliminar_proceso_mem`. -/
def eliminarProcesoMem (cfg : Config) (g : Globals) (pid : UInt32) : Globals :=
  if (buscarProcesoPorPid g pid).isSome then
    let g' :=
      { g with memoryProcessList :=
          g.memoryProcessList.eraseP (fun proceso => proceso.pid == pid) }
    match cfg.esquema with
    | .dinamicas => updateDynamicPartitionList cfg g'
    | .fijas =>
        { g' with partitionList :=
            modifyFirst (fun p => p.pid == pid) liberarParticion g'.partitionList }
    | .otro => g'
  else
    g

/-- Change the first process with the given PID, in place. -/
def modificarProceso (g : Globals) (pid : UInt32) (f : MemPcb → MemPcb) : Globals :=
  { g with memoryProcessList :=
      modifyFirst (fun proceso => proceso.pid == pid) f g.memoryProcessList }

/-- `eliminar_hilo_mem`: the dynamic list is rebuilt although no region changed. -/
def eliminarHiloMem (cfg : Config) (g : Globals) (pid tid : UInt32) : Globals :=
  match buscarProcesoPorPid g pid with
  | none => g
  | some proceso =>
      if (proceso.threads.find? (fun hilo => hilo.tid == tid)).isSome then
        let g' := modificarProceso g pid (fun proceso =>
          { proceso with threads := proceso.threads.eraseP (fun hilo => hilo.tid == tid) })
        if cfg.esquema = .dinamicas then updateDynamicPartitionList cfg g' else g'
      else
        g

/-- The new entry of `agregar_hilo_mem`. -/
def nuevoHilo (tid : UInt32) (filePath : List Char) : MemTcb where
  tid := tid
  regs := initRegisters
  filePath := filePath

/-- `verificar_y_agregar_hilo`; the flag is the answer "Ok". -/
def verificarYAgregarHilo (g : Globals) (pid tid : UInt32) (filePath : List Char) :
    Globals × Bool :=
  match buscarProcesoPorPid g pid with
  | none => (g, false)
  | some _ =>
      (modificarProceso g pid (fun proceso =>
        { proceso with threads := proceso.threads ++ [nuevoHilo tid filePath] }), true)

/-- The registers handed to the CPU: those of the thread and the region of its
process. -/
def registrosDe (proceso : MemPcb) (hilo : MemTcb) : Register where
  pc := hilo.regs.pc
  ax := hilo.regs.ax
  bx := hilo.regs.bx
  cx := hilo.regs.cx
  dx := hilo.regs.dx
  ex := hilo.regs.ex
  fx := hilo.regs.fx
  gx := hilo.regs.gx
  hx := hilo.regs.hx
  limite := proceso.limite
  base := proceso.base

/-- `obtener_registros_tcb`. -/
def obtenerRegistrosTcb (g : Globals) (pid tid : UInt32) : Option Register := do
  let proceso ← buscarProcesoPorPid g pid
  let hilo ← proceso.threads.find? (fun hilo => hilo.tid == tid)
  some (registrosDe proceso hilo)

/-- The thread registers of a `t_register`. -/
def MemRegister.ofRegister (r : Register) : MemRegister where
  pc := r.pc
  ax := r.ax
  bx := r.bx
  cx := r.cx
  dx := r.dx
  ex := r.ex
  fx := r.fx
  gx := r.gx
  hx := r.hx

/-- `actualizar_registros`: the region of the process is written too. -/
def actualizarRegistros (g : Globals) (pid tid : UInt32) (r : Register) : Globals :=
  modificarProceso g pid (fun proceso =>
    { proceso with
      base := r.base
      limite := r.limite
      threads := modifyFirst (fun hilo => hilo.tid == tid)
        (fun hilo => { hilo with regs := MemRegister.ofRegister r }) proceso.threads })

/-- `obtener_linea_pseudocodigo`, without the end of line. -/
def obtenerLineaPseudocodigo (cfg : Config) (g : Globals) (pid tid pc : UInt32) :
    Option (List Char) := do
  let proceso ← buscarProcesoPorPid g pid
  let hilo ← proceso.threads.find? (fun hilo => hilo.tid == tid)
  let lineas ← cfg.scripts hilo.filePath
  lineas[pc.toNat]?

/-- `leer_uint32_t_en_buffer`; `none` when the word is not inside the buffer. -/
def leerUint32EnBuffer (posicion : UInt32) (buffer : List UInt8) : Option UInt32 :=
  decode32 (buffer.drop posicion.toNat)

/-- `escribir_en_memoria`; `none` when the word is not inside the buffer. -/
def escribirEnMemoria (valor : UInt32) (buffer : List UInt8) (posicion : UInt32) :
    Option (List UInt8) :=
  if posicion.toNat + 4 ≤ buffer.length then
    some (buffer.take posicion.toNat ++ encode32 valor ++ buffer.drop (posicion.toNat + 4))
  else
    none

/-- `abs` of a difference of two unsigned words. -/
def absDiferencia (a b : UInt32) : UInt32 :=
  if a - b < 2147483648 then a - b else b - a

/-- The context sent for an `EXECUTION_CONTEXT` request. -/
def contextoDe (pid tid : UInt32) (r : Register) : ExecutionContext where
  tid := tid
  pid := pid
  estado := .running
  registers := r
  tamanioProceso := absDiferencia r.limite r.base

/-- The requests of the kernel and of the CPU. -/
inductive Peticion where
  | processCreate (pid size : UInt32)
  | processExit (pid : UInt32)
  | threadCreate (pid tid : UInt32) (filePath : List Char)
  | threadExit (pid tid : UInt32)
  | instructionRequest (pid tid pc : UInt32)
  | executionContext (pid tid : UInt32)
  | executionContextUpdate (pid tid : UInt32) (registers : Register)
  | readMemRequest (physicalAddress : UInt32)
  | writeMemRequest (physicalAddress dataRegisterValue : UInt32)
  deriving DecidableEq

/-- The answers. -/
inductive Respuesta where
  | ok
  | error
  | instruccion (linea : List Char)
  | contexto (c : ExecutionContext)
  | dato (valor : UInt32)
  deriving DecidableEq

/-- The answer `OK` or `ERROR` to a request that reports success. -/
def Respuesta.de (exito : Bool) : Respuesta :=
  if exito then .ok else .error

/-- One round of `handle_client`; `none` where the source has no defined
behaviour: the context of a thread that does not exist, or an access outside the
user memory. -/
def handleClient (cfg : Config) (g : Globals) : Peticion → Option (Globals × Respuesta)
  | .processCreate pid size =>
      let r := verificarEspacioYCrearProceso cfg g pid size
      some (r.1, .de r.2)
  | .processExit pid => some (eliminarProcesoMem cfg g pid, .ok)
  | .threadCreate pid tid filePath =>
      let r := verificarYAgregarHilo g pid tid filePath
      some (r.1, .de r.2)
  | .threadExit pid tid => some (eliminarHiloMem cfg g pid tid, .ok)
  | .instructionRequest pid tid pc =>
      match obtenerLineaPseudocodigo cfg g pid tid pc with
      | some linea => some (g, .instruccion linea)
      | none => some (g, .error)
  | .executionContext pid tid => do
      let r ← obtenerRegistrosTcb g pid tid
      some (g, .contexto (contextoDe pid tid r))
  | .executionContextUpdate pid tid registers =>
      some (actualizarRegistros g pid tid registers, .ok)
  | .readMemRequest physicalAddress => do
      let valor ← leerUint32EnBuffer physicalAddress g.memoriaUsuario
      some (g, .dato valor)
  | .writeMemRequest physicalAddress dataRegisterValue => do
      let buffer ← escribirEnMemoria dataRegisterValue g.memoriaUsuario physicalAddress
      some ({ g with memoriaUsuario := buffer }, .ok)

/-- The state change of a request that is answered. -/
def atiende (cfg : Config) (g : Globals) (p : Peticion) : Option Globals :=
  (handleClient cfg g p).map Prod.fst

/-- Requests as the kernel and the CPU send them: a process is created with the
PID of no resident one, and a context comes back with the region of its process. -/
def Regular (g : Globals) : Peticion → Prop
  | .processCreate pid _ => buscarProcesoPorPid g pid = none
  | .executionContextUpdate pid _ r =>
      ∀ p ∈ buscarProcesoPorPid g pid, r.base = p.base ∧ r.limite = p.limite
  | _ => True

instance decidableRegular (g : Globals) : ∀ p, Decidable (Regular g p)
  | .processCreate pid _ => inferInstanceAs (Decidable (buscarProcesoPorPid g pid = none))
  | .executionContextUpdate pid _ r =>
      inferInstanceAs (Decidable
        (∀ p ∈ buscarProcesoPorPid g pid, r.base = p.base ∧ r.limite = p.limite))
  | .processExit .. => inferInstanceAs (Decidable True)
  | .threadCreate .. => inferInstanceAs (Decidable True)
  | .threadExit .. => inferInstanceAs (Decidable True)
  | .instructionRequest .. => inferInstanceAs (Decidable True)
  | .executionContext .. => inferInstanceAs (Decidable True)
  | .readMemRequest .. => inferInstanceAs (Decidable True)
  | .writeMemRequest .. => inferInstanceAs (Decidable True)

/-- What a request does to the process table and to the partition list. -/
inductive Efecto (cfg : Config) (g : Globals) : Peticion → Globals → Prop
  | processCreate (pid size : UInt32) :
      Efecto cfg g (.processCreate pid size) (verificarEspacioYCrearProceso cfg g pid size).1
  | processExit (pid : UInt32) :
      Efecto cfg g (.processExit pid) (eliminarProcesoMem cfg g pid)
  | threadCreate (pid tid : UInt32) (filePath : List Char) :
      Efecto cfg g (.threadCreate pid tid filePath) (verificarYAgregarHilo g pid tid filePath).1
  | threadExit (pid tid : UInt32) :
      Efecto cfg g (.threadExit pid tid) (eliminarHiloMem cfg g pid tid)
  | executionContextUpdate (pid tid : UInt32) (r : Register) :
      Efecto cfg g (.executionContextUpdate pid tid r) (actualizarRegistros g pid tid r)
  | consulta (p : Peticion) (g' : Globals) :
      g'.memoryProcessList = g.memoryProcessList →
      g'.partitionList = g.partitionList →
      Efecto cfg g p g'

/-- The requests that leave the process table and the partitions as they are. -/
def Peticion.esConsulta : Peticion → Bool
  | .instructionRequest .. => true
  | .executionContext .. => true
  | .readMemRequest .. => true
  | .writeMemRequest .. => true
  | _ => false

/-- They change memoria only by writing a word. -/
theorem atiende_consulta
    {cfg : Config} {g g' : Globals} {p : Peticion}
    (hp : p.esConsulta = true)
    (h : atiende cfg g p = some g') :
    g' = g ∨ ∃ dir valor buffer, escribirEnMemoria valor g.memoriaUsuario dir = some buffer ∧
      g' = { g with memoriaUsuario := buffer } := by
  cases p with
  | instructionRequest pid tid pc =>
      simp only [atiende, handleClient] at h
      split at h <;> exact Or.inl (Option.some.inj h).symm
  | executionContext pid tid =>
      simp only [atiende, handleClient, Option.bind_eq_bind, Option.map_bind,
        Option.bind_eq_some_iff] at h
      obtain ⟨_, _, hg⟩ := h
      exact Or.inl (Option.some.inj hg).symm
  | readMemRequest physicalAddress =>
      simp only [atiende, handleClient, Option.bind_eq_bind, Option.map_bind,
        Option.bind_eq_some_iff] at h
      obtain ⟨_, _, hg⟩ := h
      exact Or.inl (Option.some.inj hg).symm
  | writeMemRequest physicalAddress valor =>
      simp only [atiende, handleClient, Option.bind_eq_bind, Option.map_bind,
        Option.bind_eq_some_iff] at h
      obtain ⟨buffer, hbuffer, hg⟩ := h
      exact Or.inr ⟨physicalAddress, valor, buffer, hbuffer, (Option.some.inj hg).symm⟩
  | _ =>
      cases hp

/-- Every answered request has one of these effects. -/
theorem efecto_of_atiende
    {cfg : Config} {g g' : Globals} {p : Peticion}
    (h : atiende cfg g p = some g') :
    Efecto cfg g p g' := by
  have hconsulta : p.esConsulta = true → Efecto cfg g p g' := by
    intro hp
    rcases atiende_consulta hp h with rfl | ⟨_, _, _, _, rfl⟩
    · exact Efecto.consulta _ _ rfl rfl
    · exact Efecto.consulta _ _ rfl rfl
  cases p with
  | processCreate pid size =>
      obtain rfl := Option.some.inj h
      exact Efecto.processCreate pid size
  | processExit pid =>
      obtain rfl := Option.some.inj h
      exact Efecto.processExit pid
  | threadCreate pid tid filePath =>
      obtain rfl := Option.some.inj h
      exact Efecto.threadCreate pid tid filePath
  | threadExit pid tid =>
      obtain rfl := Option.some.inj h
      exact Efecto.threadExit pid tid
  | executionContextUpdate pid tid r =>
      obtain rfl := Option.some.inj h
      exact Efecto.executionContextUpdate pid tid r
  | _ =>
      exact hconsulta rfl

end Memoria
end SinIdeas
