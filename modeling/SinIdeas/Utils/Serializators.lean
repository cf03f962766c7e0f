import SinIdeas.Lib.Cursor
import SinIdeas.Utils.Estructuras

/-!
# The serializators

Every message has a record, a function that lays its fields out in a buffer and
one that reads them back. A serializer computes the size of the stream by hand,
allocates it and copies the fields one after another; a deserializer walks the
stream with an `int offset`. `none` stands for a copy outside its memory.
-/

namespace SinIdeas
namespace Utils

open Lib

/-- `op_code`: the operation codes of the system. -/
inductive OpCode where
  | ok
  | error
  | message
  | disconnect
  | kernelInterruption
  | quantumInterruption
  | dispatch
  | io
  | threadJoin
  | mutexCreate
  | mutexLock
  | mutexUnlock
  | threadCancel
  | processCreate
  | threadCreate
  | dumpMemory
  | fetch
  | threadExit
  | processExit
  | executionContext
  | set
  | readMem
  | writeMem
  | sum
  | sub
  | jnz
  | log
  | instructionFromMemory
  | instructionRequest
  | executionContextUpdate
  | readMemRequest
  | writeMemRequest
  | segmentationFault
  deriving DecidableEq

/-- The enumerators in the order of their numbers. -/
def OpCode.todos : List OpCode :=
  [.ok, .error, .message, .disconnect, .kernelInterruption, .quantumInterruption, .dispatch,
    .io, .threadJoin, .mutexCreate, .mutexLock, .mutexUnlock, .threadCancel, .processCreate,
    .threadCreate, .dumpMemory, .fetch, .threadExit, .processExit, .executionContext, .set,
    .readMem, .writeMem, .sum, .sub, .jnz, .log, .instructionFromMemory, .instructionRequest,
    .executionContextUpdate, .readMemRequest, .writeMemRequest, .segmentationFault]

/-- The number of an operation code. -/
def OpCode.code (op : OpCode) : UInt32 :=
  UInt32.ofNat (OpCode.todos.idxOf op)

/-- The operation code with a number, if there is one. -/
def OpCode.ofCode (n : UInt32) : Option OpCode :=
  OpCode.todos[n.toNat]?

@[simp] theorem OpCode.ofCode_code (op : OpCode) : OpCode.ofCode op.code = some op := by
  cases op <;> rfl

/-! ## Buffers -/

/-- `t_buffer` after a serializer: its size field, the bytes of its stream and
how many bytes were copied into it. -/
structure Buffer where
  size : UInt32
  stream : List UInt8
  escritos : Nat

/-- Fill a stream of `capacidad` bytes with the fields of a record. -/
def serializarEn (capacidad : Nat) (size : UInt32) (campos : List (List UInt8)) :
    Option Buffer := do
  let b ← (Block.fresh capacidad).copyAll campos
  some { size, stream := b.content, escritos := b.written }

/-- What a serializer does once it has its `size_t size`: `buffer->size = size`,
`malloc(size)` and the copies. -/
def serializar (size : Nat) (campos : List (List UInt8)) : Option Buffer :=
  serializarEn size (UInt32.ofNat size) campos

/-- `memcpy` of `n` bytes from an array. -/
def copiaDe (datos : List UInt8) (n : UInt32) : Option (List UInt8) :=
  if n.toNat ≤ datos.length then some (datos.take n.toNat) else none

/-- The bytes of a C string up to the one that ends it, included. -/
def cadena (s : List UInt8) : List UInt8 :=
  s.takeWhile (fun b => b != 0) ++ [0]

/-! ## Syscalls -/

/-- `t_process_create`. -/
structure ProcessCreate where
  nombreArchivo : List UInt8
  tamanioNombre : UInt32
  tamanioProceso : UInt32
  prioridad : UInt32
  deriving DecidableEq

/-- `serialize_process_create`. -/
def serializeProcessCreate (p : ProcessCreate) : Option Buffer := do
  let nombre ← copiaDe p.nombreArchivo p.tamanioNombre
  serializar (4 + p.tamanioNombre.toNat + 4 + 4)
    [encode32 p.tamanioNombre, nombre, encode32 p.tamanioProceso, encode32 p.prioridad]

/-- `deserialize_process_create`. -/
def deserializeProcessCreate : Decoder ProcessCreate := do
  let tamanioNombre ← Decoder.word
  let nombreArchivo ← Decoder.bytes tamanioNombre.toNat
  let tamanioProceso ← Decoder.word
  let prioridad ← Decoder.word
  pure { nombreArchivo, tamanioNombre, tamanioProceso, prioridad }

/-- `t_thread_create`. -/
structure ThreadCreate where
  nombreArchivo : List UInt8
  tamanioNombre : UInt32
  prioridad : UInt32
  deriving DecidableEq

/-- `serialize_thread_create`. -/
def serializeThreadCreate (t : ThreadCreate) : Option Buffer := do
  let nombre ← copiaDe t.nombreArchivo t.tamanioNombre
  serializar (4 + t.tamanioNombre.toNat + 4)
    [encode32 t.tamanioNombre, nombre, encode32 t.prioridad]

/-- `deserialize_thread_create`. -/
def deserializeThreadCreate : Decoder ThreadCreate := do
  let tamanioNombre ← Decoder.word
  let nombreArchivo ← Decoder.bytes tamanioNombre.toNat
  let prioridad ← Decoder.word
  pure { nombreArchivo, tamanioNombre, prioridad }

/-- `t_mutex_operation`. -/
structure MutexOperation where
  nombreSemaforo : List UInt8
  tamanioNombre : UInt32
  tid : UInt32
  deriving DecidableEq

/-- `serialize_mutex_operation`. -/
def serializeMutexOperation (m : MutexOperation) : Option Buffer := do
  let nombre ← copiaDe m.nombreSemaforo m.tamanioNombre
  serializar (4 + m.tamanioNombre.toNat + 4)
    [encode32 m.tamanioNombre, nombre, encode32 m.tid]

/-- `deserialize_mutex_operation`. -/
def deserializeMutexOperation : Decoder MutexOperation := do
  let tamanioNombre ← Decoder.word
  let nombreSemaforo ← Decoder.bytes tamanioNombre.toNat
  let tid ← Decoder.word
  pure { nombreSemaforo, tamanioNombre, tid }

/-- `t_dump_memory`. -/
structure DumpMemory where
  pid : UInt32
  tid : UInt32
  deriving DecidableEq

/-- `serialize_dump_memory`. -/
def serializeDumpMemory (d : DumpMemory) : Option Buffer :=
  serializar (4 + 4) [encode32 d.pid, encode32 d.tid]

/-- `deserialize_dump_memory`. -/
def deserializeDumpMemory : Decoder DumpMemory := do
  let pid ← Decoder.word
  let tid ← Decoder.word
  pure { pid, tid }

/-- `t_syscall_io`. -/
structure SyscallIo where
  milisegundos : UInt32
  deriving DecidableEq

/-- `serialize_syscall_io`. -/
def serializeSyscallIo (s : SyscallIo) : Option Buffer :=
  serializar 4 [encode32 s.milisegundos]

/-- `deserialize_syscall_io`. -/
def deserializeSyscallIo : Decoder SyscallIo := do
  let milisegundos ← Decoder.word
  pure { milisegundos }

/-- `t_thread_operation`. -/
structure ThreadOperation where
  tid : UInt32
  deriving DecidableEq

/-- `serialize_thread_operation`. -/
def serializeThreadOperation (t : ThreadOperation) : Option Buffer :=
  serializar 4 [encode32 t.tid]

/-- `deserialize_thread_operation`; the offset it leaves behind is not used. -/
def deserializeThreadOperation : Decoder ThreadOperation := do
  let tid ← Decoder.word
  pure { tid }

/-- `t_process_exit`. -/
structure ProcessExit where
  pid : UInt32
  deriving DecidableEq

/-- `serialize_process_exit`. -/
def serializeProcessExit (p : ProcessExit) : Option Buffer :=
  serializar 4 [encode32 p.pid]

/-- `deserialize_process_exit`; the offset it leaves behind is not used. -/
def deserializeProcessExit : Decoder ProcessExit := do
  let pid ← Decoder.word
  pure { pid }

/-! ## Requests between the modules -/

/-- `t_dispatch_request`. -/
structure DispatchRequest where
  tid : UInt32
  pid : UInt32
  deriving DecidableEq

/-- `serialize_dispatch_request`. -/
def serializeDispatchRequest (r : DispatchRequest) : Option Buffer :=
  serializar (4 * 2) [encode32 r.tid, encode32 r.pid]

/-- `deserialize_dispatch_request`. -/
def deserializeDispatchRequest : Decoder DispatchRequest := do
  let tid ← Decoder.word
  let pid ← Decoder.word
  pure { tid, pid }

/-- `t_instruction_request`. -/
structure InstructionRequest where
  tid : UInt32
  pid : UInt32
  pc : UInt32
  deriving DecidableEq

/-- `serialize_instruction_request`. -/
def serializeInstructionRequest (r : InstructionRequest) : Option Buffer :=
  serializar (4 * 3) [encode32 r.tid, encode32 r.pc, encode32 r.pid]

/-- `deserialize_instruction_request`. -/
def deserializeInstructionRequest : Decoder InstructionRequest := do
  let tid ← Decoder.word
  let pc ← Decoder.word
  let pid ← Decoder.word
  pure { tid, pid, pc }

/-- `t_read_mem_request`. -/
structure ReadMemRequest where
  physicalAddress : UInt32
  pid : UInt32
  tid : UInt32
  deriving DecidableEq

/-- `serialize_read_mem_request`. -/
def serializeReadMemRequest (r : ReadMemRequest) : Option Buffer :=
  serializar (4 * 3) [encode32 r.physicalAddress, encode32 r.pid, encode32 r.tid]

/-- `deserialize_read_mem_request`. -/
def deserializeReadMemRequest : Decoder ReadMemRequest := do
  let physicalAddress ← Decoder.word
  let pid ← Decoder.word
  let tid ← Decoder.word
  pure { physicalAddress, pid, tid }

/-- `t_write_mem_request`. -/
structure WriteMemRequest where
  physicalAddress : UInt32
  pid : UInt32
  tid : UInt32
  dataRegisterValue : UInt32
  deriving DecidableEq

/-- `serialize_write_mem_request`. -/
def serializeWriteMemRequest (r : WriteMemRequest) : Option Buffer :=
  serializar (4 * 4)
    [encode32 r.physicalAddress, encode32 r.pid, encode32 r.tid, encode32 r.dataRegisterValue]

/-- `deserialize_write_mem_request`. -/
def deserializeWriteMemRequest : Decoder WriteMemRequest := do
  let physicalAddress ← Decoder.word
  let pid ← Decoder.word
  let tid ← Decoder.word
  let dataRegisterValue ← Decoder.word
  pure { physicalAddress, pid, tid, dataRegisterValue }

/-- `t_pcb_request`. -/
structure PcbRequest where
  pid : UInt32
  size : UInt32
  deriving DecidableEq

/-- `serialize_pcb_request`. -/
def serializePcbRequest (r : PcbRequest) : Option Buffer :=
  serializar (4 + 4) [encode32 r.pid, encode32 r.size]

/-- `deserialize_pcb_request`. -/
def deserializePcbRequest : Decoder PcbRequest := do
  let pid ← Decoder.word
  let size ← Decoder.word
  pure { pid, size }

/-- `t_seg_fault`. -/
structure SegFault where
  tid : UInt32
  pid : UInt32
  code : OpCode
  deriving DecidableEq

/-- `serialize_seg_fault`. -/
def serializeSegFault (f : SegFault) : Option Buffer :=
  serializar (4 * 2 + 4) [encode32 f.tid, encode32 f.pid, encode32 f.code.code]

/-- `deserialize_seg_fault`. -/
def deserializeSegFault : Decoder SegFault := do
  let tid ← Decoder.word
  let pid ← Decoder.word
  let code ← Decoder.word
  let code ← Decoder.ofOption (OpCode.ofCode code)
  pure { tid, pid, code }

/-! ## Threads, messages, contexts and instructions -/

/-- `t_tcb` on the wire; the path is a pointer that may be `NULL`. -/
structure TcbEnviado where
  tid : UInt32
  parentPid : UInt32
  priority : UInt32
  state : State
  filePath : Option (List UInt8)
  filePathLength : UInt32
  deriving DecidableEq

/-- `serialize_tcb`. -/
def serializeTcb (t : TcbEnviado) : Option Buffer := do
  let ruta ← copiaDe (t.filePath.getD []) t.filePathLength
  serializar (4 * 4 + 4 + t.filePathLength.toNat)
    [encode32 t.tid, encode32 t.parentPid, encode32 t.priority, encode32 t.state.code,
      encode32 t.filePathLength, ruta]

/-- `deserialize_tcb`. -/
def deserializeTcb : Decoder TcbEnviado := do
  let tid ← Decoder.word
  let parentPid ← Decoder.word
  let priority ← Decoder.word
  let state ← Decoder.word
  let state ← Decoder.ofOption (State.ofCode state)
  let filePathLength ← Decoder.word
  if 0 < filePathLength then do
    let ruta ← Decoder.bytes filePathLength.toNat
    pure { tid, parentPid, priority, state, filePath := some ruta, filePathLength }
  else
    pure { tid, parentPid, priority, state, filePath := none, filePathLength }

/-- `t_message`. -/
structure Message where
  length : UInt32
  message : List UInt8
  deriving DecidableEq

/-- `serialize_message`. -/
def serializeMessage (m : Message) : Option Buffer := do
  let texto ← copiaDe m.message m.length
  serializar (4 + m.length.toNat) [encode32 m.length, texto]

/-- `deserialize_message`. -/
def deserializeMessage : Decoder Message := do
  let length ← Decoder.word
  let message ← Decoder.bytes length.toNat
  pure { length, message }

/-- The fields of `serialize_execution_context`, in order; the last one is the
whole `t_register`. -/
def serializeContext (e : ExecutionContext) : Option Buffer :=
  serializar (4 * 3 + 4 + 44)
    [encode32 e.tid, encode32 e.pid, encode32 e.estado.code, encode32 e.tamanioProceso,
      e.registers.bytes]

/-- `deserialize_execution_context` over the stream it is given. -/
def deserializeContext : Decoder ExecutionContext := do
  let tid ← Decoder.word
  let pid ← Decoder.word
  let estado ← Decoder.word
  let estado ← Decoder.ofOption (State.ofCode estado)
  let tamanioProceso ← Decoder.word
  let registers ← Decoder.bytes 44
  let registers ← Decoder.ofOption (Register.ofBytes registers)
  pure { tid, pid, estado, registers, tamanioProceso }

/-- `t_dump_context`. -/
structure DumpContext where
  pid : UInt32
  tid : UInt32
  tamanioProceso : UInt32
  datos : List UInt8
  deriving DecidableEq

/-- `serialize_dump_context`. The size is added up in `buffer->size` itself, so
the stream has as many bytes as that 32-bit field says. -/
def serializeDumpContext (d : DumpContext) : Option Buffer := do
  let size := 4 + 4 + 4 + d.tamanioProceso
  let datos ← copiaDe d.datos d.tamanioProceso
  serializarEn size.toNat size
    [encode32 d.pid, encode32 d.tid, encode32 d.tamanioProceso, datos]

/-- `deserialize_dump_context`; the offset it leaves behind is not used. -/
def deserializeDumpContext : Decoder DumpContext := do
  let pid ← Decoder.word
  let tid ← Decoder.word
  let tamanioProceso ← Decoder.word
  let datos ← Decoder.bytes tamanioProceso.toNat
  pure { pid, tid, tamanioProceso, datos }

/-- `t_instruction`. -/
structure Instruction where
  name : OpCode
  paramsCount : UInt32
  params : List (List UInt8)
  deriving DecidableEq

/-- The parameters the loops of `serialize_instruction` walk over; `list_get`
past the end of the list gives no string. -/
def Instruction.recorridos (i : Instruction) : Option (List (List UInt8)) :=
  if i.paramsCount.toNat ≤ i.params.length then
    some (i.params.take i.paramsCount.toNat)
  else
    none

/-- `serialize_instruction`. -/
def serializeInstruction (i : Instruction) : Option Buffer := do
  let params ← i.recorridos
  serializar (4 + 4 + (params.map (fun p => (cadena p).length)).sum)
    (encode32 i.name.code :: encode32 i.paramsCount :: params.map cadena)

/-- `deserialize_instruction`. -/
def deserializeInstruction : Decoder Instruction := do
  let name ← Decoder.word
  let name ← Decoder.ofOption (OpCode.ofCode name)
  let paramsCount ← Decoder.word
  let params ← Decoder.times paramsCount.toNat Decoder.cstring
  pure { name, paramsCount, params }

end Utils
end SinIdeas
