import SinIdeas.Lib.Runs
import SinIdeas.Memoria.Summary
import SinIdeas.Pairing

/-!
# What memoria answers, byte by byte

Every request arrives in a package, and `handle_client` answers on the same
connection: the CPU reads an operation code, a size and a payload, the kernel one
operation code. A session is a sequence of such exchanges; the CPU keeps its
connection and the kernel opens a new one for every request.
-/

namespace SinIdeas

open Lib

namespace Utils

/-- The operation code with a number read as an `int`. -/
def OpCode.ofInt (n : Int) : Option OpCode :=
  if 0 ≤ n then OpCode.todos[n.toNat]? else none

/-- A buffer in a package of its own: `create_package`, `add_to_package` and
`send_package`. -/
def enviarBuffer (op : OpCode) (b : Option Buffer) : Option (List UInt8) := do
  let buffer ← b
  let value ← copiaDe buffer.stream buffer.size
  Envio.enviar { operationCode := op, values := [value] }

/-- `receive_memory_response`; `none` while it waits for bytes that were not sent. -/
def receiveMemoryResponse (s : Conexion) : Option (List UInt8 × Conexion) := do
  let (_, s) ← receiveOperationCode s
  let ((size, buffer), s) ← receiveBuffer [] s
  if size = buffer.length then some (buffer, s) else none

/-- `wait_for_response`; `none` while it waits for the code. -/
def waitForResponse (s : Conexion) : Option (UInt32 × Conexion) := do
  let (got, s) ← s.recv 4
  (decode32 got).map (fun code => (code, s))

/-- The peer sends bytes. -/
def Conexion.llegan (s : Conexion) (l : List UInt8) : Conexion :=
  { s with pendientes := s.pendientes ++ l }

end Utils

namespace Memoria

open Utils Cpu

/-! ## Requests on the wire -/

/-- The requests of the CPU and of the kernel, as the records that are sent. -/
inductive Solicitud where
  | instructionRequest (r : Utils.InstructionRequest)
  | executionContext (r : Utils.DispatchRequest)
  | executionContextUpdate (c : ExecutionContext)
  | readMemRequest (r : Utils.ReadMemRequest)
  | writeMemRequest (r : Utils.WriteMemRequest)
  | processCreate (r : Utils.PcbRequest)
  | threadCreate (t : Utils.TcbEnviado)
  | processExit (r : Utils.PcbRequest)
  | threadExit (t : Utils.TcbEnviado)
  | dumpMemory (d : Utils.DumpMemory)
  deriving DecidableEq

namespace Solicitud

/-- The operation code of the package. -/
def operacion : Solicitud → Utils.OpCode
  | instructionRequest _ => .instructionRequest
  | executionContext _ => .executionContext
  | executionContextUpdate _ => .executionContextUpdate
  | readMemRequest _ => .readMemRequest
  | writeMemRequest _ => .writeMemRequest
  | processCreate _ => .processCreate
  | threadCreate _ => .threadCreate
  | processExit _ => .processExit
  | threadExit _ => .threadExit
  | dumpMemory _ => .dumpMemory

/-- The buffer in the package. -/
def buffer : Solicitud → Option Buffer
  | instructionRequest r => serializeInstructionRequest r
  | executionContext r => serializeDispatchRequest r
  | executionContextUpdate c => serializeContext c
  | readMemRequest r => serializeReadMemRequest r
  | writeMemRequest r => serializeWriteMemRequest r
  | processCreate r => serializePcbRequest r
  | threadCreate t => serializeTcb t
  | processExit r => serializePcbRequest r
  | threadExit t => serializeTcb t
  | dumpMemory d => serializeDumpMemory d

/-- What the requester sends. -/
def bytes (p : Solicitud) : Option (List UInt8) :=
  enviarBuffer p.operacion p.buffer

/-- The CPU asks for instructions, contexts and the user memory, the kernel for the
rest. -/
def DeCpu : Solicitud → Prop
  | instructionRequest _ => True
  | executionContext _ => True
  | executionContextUpdate _ => True
  | readMemRequest _ => True
  | writeMemRequest _ => True
  | _ => False

/-- The requests after which `handle_client` prints the summary of the partitions. -/
def resume : Solicitud → Bool
  | processCreate _ => true
  | threadCreate _ => true
  | processExit _ => true
  | threadExit _ => true
  | _ => false

instance decidableDeCpu : ∀ p, Decidable (DeCpu p)
  | instructionRequest _ => inferInstanceAs (Decidable True)
  | executionContext _ => inferInstanceAs (Decidable True)
  | executionContextUpdate _ => inferInstanceAs (Decidable True)
  | readMemRequest _ => inferInstanceAs (Decidable True)
  | writeMemRequest _ => inferInstanceAs (Decidable True)
  | processCreate _ => inferInstanceAs (Decidable False)
  | threadCreate _ => inferInstanceAs (Decidable False)
  | processExit _ => inferInstanceAs (Decidable False)
  | threadExit _ => inferInstanceAs (Decidable False)
  | dumpMemory _ => inferInstanceAs (Decidable False)

/-- A record that its sender can build: the path of a thread is a string with its
length, and the package fits an `int`. -/
def BienFormada : Solicitud → Prop
  | threadCreate t => ∃ ruta, (0 : UInt8) ∉ ruta ∧ t.filePath = some (ruta ++ [0]) ∧
      t.filePathLength.toNat = ruta.length + 1 ∧ 32 + t.filePathLength.toNat < 2 ^ 31
  | threadExit t => ∃ ruta, (0 : UInt8) ∉ ruta ∧ t.filePath = some (ruta ++ [0]) ∧
      t.filePathLength.toNat = ruta.length + 1 ∧ 32 + t.filePathLength.toNat < 2 ^ 31
  | _ => True

end Solicitud

/-- The deserializer that `handle_client` applies to the first value of the package. -/
def deserializador : Utils.OpCode → Option (Decoder Solicitud)
  | .dumpMemory => some (do let d ← deserializeDumpMemory; pure (.dumpMemory d))
  | .processCreate => some (do let r ← deserializePcbRequest; pure (.processCreate r))
  | .threadCreate => some (do let t ← deserializeTcb; pure (.threadCreate t))
  | .instructionRequest =>
      some (do let r ← deserializeInstructionRequest; pure (.instructionRequest r))
  | .executionContext => some (do let r ← deserializeDispatchRequest; pure (.executionContext r))
  | .executionContextUpdate =>
      some (do let c ← deserializeContext; pure (.executionContextUpdate c))
  | .readMemRequest => some (do let r ← deserializeReadMemRequest; pure (.readMemRequest r))
  | .writeMemRequest => some (do let r ← deserializeWriteMemRequest; pure (.writeMemRequest r))
  | .processExit => some (do let r ← deserializePcbRequest; pure (.processExit r))
  | .threadExit => some (do let t ← deserializeTcb; pure (.threadExit t))
  | _ => none

/-! ## The answers -/

/-- `enviar_respuesta_ante_peticion`. -/
def enviarRespuestaAntePeticion (code : UInt32) : List UInt8 :=
  encode32 code

/-- `send_instruction` and `send_response_to_cpu`: a string in a MESSAGE. -/
def sendInstruction (mensaje : List UInt8) : Option (List UInt8) := do
  let size := UInt32.ofNat (cadena mensaje).length
  let stream ← copiaDe (cadena mensaje) size
  sendPackage { operationCode := .message, size, stream }

/-- `send_execution_context`. -/
def sendExecutionContext (c : ExecutionContext) : Option (List UInt8) := do
  let buffer ← serializeContext c
  sendPackage { operationCode := .executionContext, size := buffer.size, stream := buffer.stream }

/-- `send_read_mem_data`. -/
def sendReadMemData (dataValue : UInt32) : Option (List UInt8) :=
  sendPackage { operationCode := .readMem, size := 4, stream := encode32 dataValue }

/-- The bytes of an answer; an update and a write are answered to the CPU with the
text "ok". -/
def bytesDe : Peticion → Respuesta → Option (List UInt8)
  | .executionContextUpdate _ _ _, _ => sendInstruction [111, 107]
  | .writeMemRequest _ _, _ => sendInstruction [111, 107]
  | _, .ok => some (enviarRespuestaAntePeticion Utils.OpCode.ok.code)
  | _, .error => some (enviarRespuestaAntePeticion Utils.OpCode.error.code)
  | _, .instruccion linea => sendInstruction (charBytes linea)
  | _, .contexto c => sendExecutionContext c
  | _, .dato valor => sendReadMemData valor

/-- One answered request: the new state and the bytes sent. -/
def responder (cfg : Config) (g : Globals) (p : Peticion) : Option (Globals × List UInt8) := do
  let (g, r) ← handleClient cfg g p
  let bytes ← bytesDe p r
  some (g, bytes)

/-- `file_path` as a string; `none` for `NULL` and for an array without an end. -/
def rutaDe : Option (List UInt8) → Option (List Char)
  | some ruta =>
      if (0 : UInt8) ∈ ruta then
        some ((ruta.takeWhile (fun b => b != 0)).map (fun b => Char.ofNat b.toNat))
      else
        none
  | none => none

/-- `obtener_memoria_proceso`: the bytes of a process, `some none` for `NULL`. The
first byte is that of a word; `none` for a copy outside the user memory. -/
def obtenerMemoriaProceso (g : Globals) (pid : UInt32) : Option (Option (List UInt8)) :=
  match buscarProcesoPorPid g pid with
  | none => some none
  | some pcb =>
      let memoriaUsada := pcb.limite - pcb.base
      let desde := (pcb.base / 4).toNat * 4
      if pcb.size < memoriaUsada then
        some none
      else if desde + memoriaUsada.toNat ≤ g.memoriaUsuario.length then
        some (some ((g.memoriaUsuario.drop desde).take memoriaUsada.toNat))
      else
        none

/-- `send_dump_memory`: the bytes sent to the file system. -/
def sendDumpMemory (context : Utils.DumpContext) : Option (List UInt8) :=
  enviarBuffer .dumpMemory (serializeDumpContext context)

/-- The case DUMP_MEMORY up to the package for the file system; `none` when the
process is not there, whose size is read all the same. -/
def pedirDump (g : Globals) (d : Utils.DumpMemory) : Option (List UInt8) := do
  let pcb ← buscarProcesoPorPid g d.pid
  let datos ← obtenerMemoriaProceso g d.pid
  sendDumpMemory
    { pid := d.pid, tid := d.tid, tamanioProceso := pcb.size, datos := datos.getD [] }

variable (cfg : Config) (fs : List UInt8 → UInt32)

/-- The `switch` of `handle_client` after the deserializer; `fs` is the code that the
file system answers to a package. -/
def atender (g : Globals) : Solicitud → Option (Globals × List UInt8)
  | .instructionRequest r => responder cfg g (.instructionRequest r.pid r.tid r.pc)
  | .executionContext r => responder cfg g (.executionContext r.pid r.tid)
  | .executionContextUpdate c =>
      responder cfg g (.executionContextUpdate c.pid c.tid c.registers)
  | .readMemRequest r => responder cfg g (.readMemRequest r.physicalAddress)
  | .writeMemRequest r =>
      responder cfg g (.writeMemRequest r.physicalAddress r.dataRegisterValue)
  | .processCreate r => responder cfg g (.processCreate r.pid r.size)
  | .processExit r => responder cfg g (.processExit r.pid)
  | .threadExit t => responder cfg g (.threadExit t.parentPid t.tid)
  | .threadCreate t =>
      -- The path is looked at when there is a process to give the thread to.
      if (buscarProcesoPorPid g t.parentPid).isSome then do
        let filePath ← rutaDe t.filePath
        responder cfg g (.threadCreate t.parentPid t.tid filePath)
      else
        responder cfg g (.threadCreate t.parentPid t.tid [])
  | .dumpMemory d => do
      let paquete ← pedirDump g d
      some (g, enviarRespuestaAntePeticion (fs paquete))

/-- What `handle_client` does with an operation code and the first value of the
package; an unknown operation is not answered. -/
def atenderPaquete (g : Globals) (op : Utils.OpCode) (buffer : List UInt8) :
    Option (Globals × List UInt8) :=
  match deserializador op with
  | some d => do
      let (p, _) ← d.run buffer
      atender cfg fs g p
  | none => some (g, [])

/-! ## Sessions -/

/-- A connection between memoria and a requester, by its two ends. -/
structure Canal where
  memoria : Conexion
  solicitante : Conexion
  deriving DecidableEq

/-- A connection on which nothing has been sent. -/
def Canal.nuevo : Canal :=
  { memoria := Conexion.abierta [], solicitante := Conexion.abierta [] }

/-- The receive code of the requester: `receive_operation_code` and `receive_buffer`
in the CPU, `wait_for_response` in the kernel. -/
def Solicitud.recibe (p : Solicitud) (s : Conexion) : Option Conexion :=
  if p.DeCpu then
    (receiveMemoryResponse s).map Prod.snd
  else
    (waitForResponse s).map Prod.snd

/-- One exchange: the request is sent, received and answered, and the requester reads
its answer. -/
def intercambio (p : Solicitud) (g : Globals) (k : Canal) : Option (Globals × Canal) := do
  let pedido ← p.bytes
  let (codOp, s) ← receiveOperationCode (k.memoria.llegan pedido)
  let (lista, s) ← receivePackage s
  let op ← Utils.OpCode.ofInt codOp
  let buffer ← lista[0]?
  let (g, respuesta) ← atenderPaquete cfg fs g op buffer
  let solicitante ← p.recibe (k.solicitante.llegan respuesta)
  some (g, { memoria := s, solicitante })

/-- Memoria, the connection of the CPU and those that the kernel opened. -/
structure Sesion where
  globals : Globals
  cpu : Canal
  kernel : List Canal

/-- Nothing has been asked yet. -/
def Sesion.inicio (g : Globals) : Sesion :=
  { globals := g, cpu := Canal.nuevo, kernel := [] }

/-- No connection has bytes that nobody read. -/
def Sesion.Limpia (s : Sesion) : Prop :=
  s.cpu = Canal.nuevo ∧ ∀ k ∈ s.kernel, k = Canal.nuevo

/-- The end of the case of a request: some print the summary of the partitions, and `none`
when it leaves its array. -/
def resumir (p : Solicitud) (g : Globals) : Option Globals :=
  if p.resume then do
    let _ ← printPartitionsSummary g.partitionList
    some g
  else
    some g

/-- A request on the connection it is sent on. -/
def turno (s : Sesion) (p : Solicitud) : Option Sesion :=
  if p.DeCpu then do
    let (g, k) ← intercambio cfg fs p s.globals s.cpu
    let g ← resumir p g
    some { s with globals := g, cpu := k }
  else do
    let (g, k) ← intercambio cfg fs p s.globals Canal.nuevo
    let g ← resumir p g
    some { s with globals := g, kernel := s.kernel ++ [k] }

/-- The process is there, its region is as long as its size and in the user memory,
and a dump of it fits a package; or it has size 0 and a region that is not empty. -/
def Volcable (g : Globals) (pcb : MemPcb) : Prop :=
  24 + pcb.size.toNat < 2 ^ 31 ∧
    (pcb.limite - pcb.base = pcb.size ∧
        (pcb.base / 4).toNat * 4 + pcb.size.toNat ≤ g.memoriaUsuario.length ∨
      pcb.size = 0 ∧ 0 < pcb.limite - pcb.base)

/-- The requests that memoria can answer in a state: a thread that is there for a
context, a line of its script for an instruction, an address of the user memory, a
process that can be dumped. -/
def Atendible (g : Globals) : Solicitud → Prop
  | .instructionRequest r => ∃ linea, obtenerLineaPseudocodigo cfg g r.pid r.tid r.pc = some linea ∧
      8 + (cadena (charBytes linea)).length % 2 ^ 32 < 2 ^ 31
  | .executionContext r => ∃ proceso, buscarProcesoPorPid g r.pid = some proceso ∧
      ∃ hilo ∈ proceso.threads, hilo.tid = r.tid
  | .readMemRequest r => r.physicalAddress.toNat + 4 ≤ g.memoriaUsuario.length
  | .writeMemRequest r => r.physicalAddress.toNat + 4 ≤ g.memoriaUsuario.length
  | .dumpMemory d => ∃ pcb, buscarProcesoPorPid g d.pid = some pcb ∧ Volcable g pcb
  | _ => True

/-- If the request prints a summary, the partitions that it leaves take little room. -/
def Resumible (g : Globals) (p : Solicitud) : Prop :=
  p.resume = true → ∀ g' respuesta, atender cfg fs g p = some (g', respuesta) →
    ResumenBreve g'.partitionList

end Memoria
end SinIdeas
