import SinIdeas.Cpu.Cycle
import SinIdeas.Utils.Paquetes
import SinIdeas.Utils.RoundTrips

/-!
# The CPU and the kernel on the dispatch connection

The CPU gives a thread back with one package: it picks an operation code and the
record that it serializes. The kernel receives the code and a buffer and picks
the deserializer from the code. This module says for which messages the two
choices fit together.
-/

namespace SinIdeas

open Lib Utils

/-! ## What the CPU sends -/

namespace Cpu

/-- The bytes of a string, one for each `char`. -/
def charBytes (s : List Char) : List UInt8 :=
  s.map (fun ch => UInt8.ofNat ch.toNat)

/-- `create_syscall_process_create`. -/
def createSyscallProcessCreate (nombreArchivo : List UInt8)
    (tamanioProceso prioridad : UInt32) : Utils.ProcessCreate :=
  { nombreArchivo := cadena nombreArchivo
    tamanioNombre := UInt32.ofNat (cadena nombreArchivo).length
    tamanioProceso, prioridad }

/-- `create_syscall_thread_create`. -/
def createSyscallThreadCreate (nombreArchivo : List UInt8) (prioridad : UInt32) :
    Utils.ThreadCreate :=
  { nombreArchivo := cadena nombreArchivo
    tamanioNombre := UInt32.ofNat (cadena nombreArchivo).length
    prioridad }

/-- `create_syscall_mutex_operation`. -/
def createSyscallMutexOperation (nombreSemaforo : List UInt8) (tid : UInt32) :
    Utils.MutexOperation :=
  { nombreSemaforo := cadena nombreSemaforo
    tamanioNombre := UInt32.ofNat (cadena nombreSemaforo).length
    tid }

/-- What every `crear_enviar` function does with the buffer of its record; nothing
is sent for an empty one. -/
def crearEnviar (op : Utils.OpCode) (b : Option Buffer) : Option (List UInt8) := do
  let buffer ← b
  if buffer.size = 0 then
    none
  else
    sendPackage { operationCode := op, size := buffer.size, stream := buffer.stream }

/-- `crear_enviar_process_create`. -/
def crearEnviarProcessCreate (nombreArchivo : List UInt8)
    (tamanioProceso prioridad : UInt32) : Option (List UInt8) :=
  crearEnviar .processCreate
    (serializeProcessCreate (createSyscallProcessCreate nombreArchivo tamanioProceso prioridad))

/-- `crear_enviar_process_exit`. -/
def crearEnviarProcessExit (pid : UInt32) : Option (List UInt8) :=
  crearEnviar .processExit (serializeProcessExit { pid })

/-- `crear_enviar_thread_create`. -/
def crearEnviarThreadCreate (nombreArchivo : List UInt8) (prioridad : UInt32) :
    Option (List UInt8) :=
  crearEnviar .threadCreate
    (serializeThreadCreate (createSyscallThreadCreate nombreArchivo prioridad))

/-- `crear_enviar_thread_operation`. -/
def crearEnviarThreadOperation (operation : Utils.OpCode) (tid : UInt32) :
    Option (List UInt8) :=
  crearEnviar operation (serializeThreadOperation { tid })

/-- `crear_enviar_mutex_operation`. -/
def crearEnviarMutexOperation (operation : Utils.OpCode) (nombreSemaforo : List UInt8)
    (tid : UInt32) : Option (List UInt8) :=
  crearEnviar operation
    (serializeMutexOperation (createSyscallMutexOperation nombreSemaforo tid))

/-- `crear_enviar_dump_memory`. -/
def crearEnviarDumpMemory (pid tid : UInt32) : Option (List UInt8) :=
  crearEnviar .dumpMemory (serializeDumpMemory { pid, tid })

/-- `crear_enviar_syscall_io`. -/
def crearEnviarSyscallIo (milisegundos : UInt32) : Option (List UInt8) :=
  crearEnviar .io (serializeSyscallIo { milisegundos })

/-- The package of `send_dispatch_return`: the request of a dispatch under any code. -/
def paqueteDispatchReturn (tid pid : UInt32) (code : Utils.OpCode) : Option (List UInt8) := do
  let buffer ← serializeDispatchRequest { tid, pid }
  sendPackage { operationCode := code, size := buffer.size, stream := buffer.stream }

/-- The operation code of a message. -/
def operacionDe {ν : Type} : Mensaje ν → Utils.OpCode
  | .dumpMemory _ _ => .dumpMemory
  | .io _ => .io
  | .processCreate _ _ _ => .processCreate
  | .threadCreate _ _ => .threadCreate
  | .threadJoin _ => .threadJoin
  | .threadCancel _ => .threadCancel
  | .mutexCreate _ _ => .mutexCreate
  | .mutexLock _ _ => .mutexLock
  | .mutexUnlock _ _ => .mutexUnlock
  | .threadExit _ => .threadExit
  | .processExit _ => .processExit
  | .segmentationFault _ _ => .segmentationFault
  | .kernelInterruption _ _ => .kernelInterruption

/-- The bytes the CPU sends for a message. -/
def bytesEnviados : Mensaje UInt32 → Option (List UInt8)
  | .dumpMemory pid tid => crearEnviarDumpMemory pid tid
  | .io milisegundos => crearEnviarSyscallIo milisegundos
  | .processCreate path size priority =>
      crearEnviarProcessCreate (charBytes path) size priority
  | .threadCreate path priority => crearEnviarThreadCreate (charBytes path) priority
  | .threadJoin tid => crearEnviarThreadOperation .threadJoin tid
  | .threadCancel tid => crearEnviarThreadOperation .threadCancel tid
  | .mutexCreate name tid => crearEnviarMutexOperation .mutexCreate (charBytes name) tid
  | .mutexLock name tid => crearEnviarMutexOperation .mutexLock (charBytes name) tid
  | .mutexUnlock name tid => crearEnviarMutexOperation .mutexUnlock (charBytes name) tid
  | .threadExit tid => crearEnviarThreadOperation .threadExit tid
  | .processExit pid => crearEnviarProcessExit pid
  | .segmentationFault tid pid => paqueteDispatchReturn tid pid .segmentationFault
  | .kernelInterruption tid pid => paqueteDispatchReturn tid pid .kernelInterruption

/-- The messages that the CPU can send while it runs the thread of the context. -/
def PuedeEnviar (c : ExecutionContext) (m : Mensaje UInt32) : Prop :=
  (∃ instruction, decode instruction c = some (.syscall m)) ∨
    m = .segmentationFault c.tid c.pid ∨ m = .kernelInterruption c.tid c.pid

end Cpu

/-! ## What the kernel reads -/

namespace Kernel

/-- A record that the kernel has deserialized. -/
inductive Recibido where
  | processCreate (v : Utils.ProcessCreate)
  | processExit (v : Utils.ProcessExit)
  | threadCreate (v : Utils.ThreadCreate)
  | threadOperation (v : Utils.ThreadOperation)
  | mutexOperation (v : Utils.MutexOperation)
  | dumpMemory (v : Utils.DumpMemory)
  | syscallIo (v : Utils.SyscallIo)
  | segFault (v : Utils.SegFault)
  deriving DecidableEq

/-- The operation code and the buffer of a message; the size of the buffer is not
initialized. -/
def recibeMensaje (s : Conexion) : Option ((Int × List UInt8) × Conexion) := do
  let (codOp, s) ← receiveOperationCode s
  let ((_, buffer), s) ← receiveBuffer [] s
  some ((codOp, buffer), s)

/-- The deserializer that the `switch` applies to the buffer; the case of an
interruption does not look at it. -/
def deserializador : Utils.OpCode → Option (Decoder Recibido)
  | .processCreate => some (do let v ← deserializeProcessCreate; pure (.processCreate v))
  | .processExit => some (do let v ← deserializeProcessExit; pure (.processExit v))
  | .threadCreate => some (do let v ← deserializeThreadCreate; pure (.threadCreate v))
  | .threadJoin => some (do let v ← deserializeThreadOperation; pure (.threadOperation v))
  | .threadCancel => some (do let v ← deserializeThreadOperation; pure (.threadOperation v))
  | .threadExit => some (do let v ← deserializeThreadOperation; pure (.threadOperation v))
  | .mutexCreate => some (do let v ← deserializeMutexOperation; pure (.mutexOperation v))
  | .mutexLock => some (do let v ← deserializeMutexOperation; pure (.mutexOperation v))
  | .mutexUnlock => some (do let v ← deserializeMutexOperation; pure (.mutexOperation v))
  | .dumpMemory => some (do let v ← deserializeDumpMemory; pure (.dumpMemory v))
  | .io => some (do let v ← deserializeSyscallIo; pure (.syscallIo v))
  | .segmentationFault => some (do let v ← deserializeSegFault; pure (.segFault v))
  | _ => none

end Kernel

open Cpu Kernel

/-- What the CPU means to say: the arguments of the instruction and the thread that
runs. -/
def querido (c : ExecutionContext) : Mensaje UInt32 → Option Recibido
  | .dumpMemory _ _ => some (.dumpMemory { pid := c.pid, tid := c.tid })
  | .io milisegundos => some (.syscallIo { milisegundos })
  | .processCreate path size priority =>
      some (.processCreate (createSyscallProcessCreate (charBytes path) size priority))
  | .threadCreate path priority =>
      some (.threadCreate (createSyscallThreadCreate (charBytes path) priority))
  | .threadJoin tid => some (.threadOperation { tid })
  | .threadCancel tid => some (.threadOperation { tid })
  | .mutexCreate name _ =>
      some (.mutexOperation (createSyscallMutexOperation (charBytes name) c.tid))
  | .mutexLock name _ =>
      some (.mutexOperation (createSyscallMutexOperation (charBytes name) c.tid))
  | .mutexUnlock name _ =>
      some (.mutexOperation (createSyscallMutexOperation (charBytes name) c.tid))
  | .threadExit _ => some (.threadOperation { tid := c.tid })
  | .processExit _ => some (.processExit { pid := c.pid })
  | .segmentationFault _ _ =>
      some (.segFault { tid := c.tid, pid := c.pid, code := .segmentationFault })
  | .kernelInterruption _ _ => none

/-- The bytes arrive under the operation code, the decoder reads all of the buffer
and nothing after it, and its value is `w`. -/
def Llega {α : Type} (op : Utils.OpCode) (enviado : Option (List UInt8)) (d : Decoder α)
    (w : α) : Prop :=
  ∃ bytes buffer, enviado = some bytes ∧
    recibeMensaje (Conexion.abierta bytes) =
      some (((op.code.toNat : Int), buffer), Conexion.abierta []) ∧
    d.run buffer = some (w, List.range buffer.length)

/-- The kernel understands the message of the CPU: it receives the operation code and
the whole payload, and its deserializer for that code, if it has one, reads all of the
payload, nothing after it, and what was meant. -/
def Acuerdan (c : ExecutionContext) (m : Mensaje UInt32) : Prop :=
  ∃ bytes buffer, bytesEnviados m = some bytes ∧
    recibeMensaje (Conexion.abierta bytes) =
      some ((((operacionDe m).code.toNat : Int), buffer), Conexion.abierta []) ∧
    ∀ d, deserializador (operacionDe m) = some d →
      ∃ w, querido c m = some w ∧ d.run buffer = some (w, List.range buffer.length)

/-- Not a SEGMENTATION_FAULT; a PROCESS_EXIT of a thread whose TID is its PID; a name
that leaves room for the rest of the package in an `int`. -/
def SinCruce (c : ExecutionContext) : Mensaje UInt32 → Prop
  | .segmentationFault _ _ => False
  | .processExit _ => c.tid = c.pid
  | .processCreate path _ _ => 20 + (cadena (charBytes path)).length < 2 ^ 31
  | .threadCreate path _ => 16 + (cadena (charBytes path)).length < 2 ^ 31
  | .mutexCreate name _ => 16 + (cadena (charBytes name)).length < 2 ^ 31
  | .mutexLock name _ => 16 + (cadena (charBytes name)).length < 2 ^ 31
  | .mutexUnlock name _ => 16 + (cadena (charBytes name)).length < 2 ^ 31
  | _ => True

section Arrival

variable {α β : Type} {op : Utils.OpCode} {d : Decoder α} {w : α} {size : Nat}
  {campos : List (List UInt8)}

/-- A package on the wire is received whole. -/
theorem recibeMensaje_eq
    (op : Utils.OpCode) {n : UInt32} {stream : List UInt8}
    (hn : n.toNat = stream.length) (hsmall : stream.length < 2 ^ 31) :
    recibeMensaje (Conexion.abierta (encode32 op.code ++ (encode32 n ++ stream))) =
      some (((op.code.toNat : Int), stream), Conexion.abierta []) := by
  have hbuffer := receiveBuffer_eq (c := false) [] stream [] hn hsmall
  rw [List.append_nil] at hbuffer
  rw [recibeMensaje, receiveOperationCode_eq, Option.bind_eq_bind, Option.bind_some]
  show (receiveBuffer [] (Conexion.abierta (encode32 n ++ stream)) >>= _) = _
  rw [hbuffer, Option.bind_eq_bind, Option.bind_some]

/-- A decoder may give its value another form. -/
theorem llega_map_iff
    {enviado : Option (List UInt8)} {g : α → β}
    (hg : Function.Injective g) :
    Llega op enviado (do let v ← d; pure (g v)) (g w) ↔ Llega op enviado d w := by
  unfold Llega
  simp only [Decoder.run_map, Option.map_eq_some_iff, Prod.mk.injEq, Prod.exists, hg.eq_iff]
  constructor
  · rintro ⟨bytes, buffer, hsent, hreceived, v, visited, hrun, rfl, rfl⟩
    exact ⟨bytes, buffer, hsent, hreceived, hrun⟩
  · rintro ⟨bytes, buffer, hsent, hreceived, hrun⟩
    exact ⟨bytes, buffer, hsent, hreceived, w, _, hrun, rfl, rfl⟩

/-- The package of a buffer with all its bytes arrives, and the decoder works on them. -/
theorem llega_of_run
    {n : UInt32}
    (hn : n.toNat = campos.flatten.length) (hsmall : 8 + campos.flatten.length < 2 ^ 31)
    (hrun : d.run campos.flatten = some (w, List.range campos.flatten.length)) :
    Llega op (sendPackage { operationCode := op, size := n, stream := campos.flatten }) d w := by
  have hint : campos.flatten.length < 2 ^ 31 := by
    omega
  exact ⟨_, campos.flatten, sendPackage_eq hn hsmall, recibeMensaje_eq op hn hint, hrun⟩

/-- The buffer that a serializer leaves when the size fits. -/
theorem serializar_eq
    (hsize : campos.flatten.length = size) (hsmall : size < 2 ^ 32) :
    ∃ b, serializar size campos = some b ∧ b.stream = campos.flatten ∧ b.size.toNat = size := by
  obtain ⟨b, hb, hcontent, _⟩ := Block.copyAll_fresh size campos hsize.le (by omega)
  refine ⟨{ size := UInt32.ofNat size, stream := b.content, escritos := b.written },
    ?_, hcontent, UInt32.toNat_ofNat_of_lt' hsmall⟩
  rw [serializar, serializarEn, hb]
  rfl

/-- A record that fits is sent, and arrives if its decoder reads it. -/
theorem llega_crearEnviar
    (hsize : campos.flatten.length = size) (hpos : 0 < size) (hsmall : 8 + size < 2 ^ 31)
    (hd : Decodes d 0 campos.flatten w) :
    Llega op (crearEnviar op (serializar size campos)) d w := by
  obtain ⟨b, hb, hstream, hbsize⟩ := serializar_eq hsize (by omega)
  have hne : b.size ≠ 0 := by
    intro hzero
    rw [hzero] at hbsize
    have hnone : (0 : UInt32).toNat = 0 := rfl
    omega
  rw [crearEnviar, hb, Option.bind_eq_bind, Option.bind_some, if_neg hne, hstream]
  have hrun := hd.run []
  rw [List.append_nil] at hrun
  exact llega_of_run (by omega) (by omega) hrun

/-- What arrives was sent in a package that fits an `int`, and the buffer is as long as
the size field of the serializer. -/
theorem llega_crearEnviar_cases
    {b : Option Buffer}
    (h : Llega op (crearEnviar op b) d w) :
    ∃ buffer stream, b = some buffer ∧ 8 + buffer.size.toNat < 2 ^ 31 ∧
      stream = buffer.stream.take buffer.size.toNat ∧
      stream.length = buffer.size.toNat ∧
      d.run stream = some (w, List.range stream.length) := by
  obtain ⟨bytes, received, hsent, hreceived, hrun⟩ := h
  obtain ⟨buffer, hb, hsent⟩ := Option.bind_eq_some_iff.mp hsent
  split_ifs at hsent
  obtain ⟨stream, hlength, hsmall, htake, rfl⟩ := sendPackage_cases hsent
  rw [recibeMensaje_eq op hlength.symm (by omega)] at hreceived
  simp only [Option.some.injEq, Prod.mk.injEq] at hreceived
  obtain ⟨⟨-, rfl⟩, -⟩ := hreceived
  exact ⟨buffer, stream, hb, hsmall, htake, hlength, hrun⟩

end Arrival

section Names

variable {α : Type} {op : Utils.OpCode}

/-- What a successful `deserialize_process_create` has read. -/
theorem visited_processCreate
    {mem : List UInt8} {v : Utils.ProcessCreate} {visited : List Nat}
    (h : deserializeProcessCreate.run mem = some (v, visited)) :
    visited.length = 12 + v.tamanioNombre.toNat ∧
      v.nombreArchivo.length = v.tamanioNombre.toNat := by
  obtain ⟨⟨w, r⟩, hrun, hout⟩ := Option.map_eq_some_iff.mp h
  obtain ⟨⟨tamanio, r₁⟩, hfirst, hrun⟩ := Option.bind_eq_some_iff.mp hrun
  obtain ⟨⟨nombre, r₂⟩, hname, hrun⟩ := Option.bind_eq_some_iff.mp hrun
  obtain ⟨⟨proceso, r₃⟩, hsecond, hrun⟩ := Option.bind_eq_some_iff.mp hrun
  obtain ⟨⟨prioridad, r₄⟩, hthird, hrun⟩ := Option.bind_eq_some_iff.mp hrun
  cases hrun
  cases hout
  have h₁ := Decoder.word_visited hfirst
  have h₂ := Decoder.bytes_visited hname
  have h₃ := Decoder.word_visited hsecond
  have h₄ := Decoder.word_visited hthird
  simp only [List.length_nil] at h₁ h₂ h₃ h₄ ⊢
  exact ⟨by omega, Decoder.bytes_length hname⟩

/-- A PROCESS_CREATE arrives unless its package is longer than an `int` can say. -/
theorem llega_processCreate_iff
    (nombre : List UInt8) (tamanio prioridad : UInt32) :
    Llega .processCreate (crearEnviarProcessCreate nombre tamanio prioridad)
        deserializeProcessCreate (createSyscallProcessCreate nombre tamanio prioridad) ↔
      20 + (cadena nombre).length < 2 ^ 31 := by
  constructor
  · intro hllega
    obtain ⟨buffer, stream, -, hsmall, -, hlength, hrun⟩ := llega_crearEnviar_cases hllega
    obtain ⟨hvisited, hname⟩ := visited_processCreate hrun
    rw [List.length_range] at hvisited
    simp only [createSyscallProcessCreate] at hvisited hname
    omega
  · intro hfits
    have hlen : (createSyscallProcessCreate nombre tamanio prioridad).tamanioNombre.toNat =
        (cadena nombre).length :=
      UInt32.toNat_ofNat_of_lt' (by rw [UInt32.size]; omega)
    rw [crearEnviarProcessCreate, serializeProcessCreate_eq hlen]
    exact llega_crearEnviar (processCreate_size hlen) (by omega) (by omega)
      (decodes_processCreate hlen (by omega))

/-- A record with a name and a word arrives unless its package is longer than an `int` can
say. -/
theorem llega_conNombre_iff
    {b : Option Buffer} {g : UInt32 → List UInt8 → UInt32 → α} (nombre : List UInt8)
    (palabra tamanio : UInt32)
    (htamanio : tamanio = UInt32.ofNat (cadena nombre).length)
    (hg : ∀ t n w, g tamanio (cadena nombre) palabra = g t n w → tamanio = t ∧ cadena nombre = n)
    (hb : tamanio.toNat = (cadena nombre).length →
      b = serializar (4 + tamanio.toNat + 4)
        [encode32 tamanio, cadena nombre, encode32 palabra]) :
    Llega op (crearEnviar op b) (conNombre g) (g tamanio (cadena nombre) palabra) ↔
      16 + (cadena nombre).length < 2 ^ 31 := by
  constructor
  · intro hllega
    obtain ⟨buffer, stream, -, hsmall, -, hlength, hrun⟩ := llega_crearEnviar_cases hllega
    obtain ⟨t, n, w, hv, hvisited, hname⟩ := visited_conNombre hrun
    obtain ⟨rfl, rfl⟩ := hg t n w hv
    rw [List.length_range] at hvisited
    omega
  · intro hfits
    have hlen : tamanio.toNat = (cadena nombre).length := by
      rw [htamanio]
      exact UInt32.toNat_ofNat_of_lt' (by rw [UInt32.size]; omega)
    rw [hb hlen]
    exact llega_crearEnviar (conNombre_size hlen) (by omega) (by omega)
      (decodes_conNombre hlen (by omega))

theorem llega_threadCreate_iff
    (nombre : List UInt8) (prioridad : UInt32) :
    Llega .threadCreate (crearEnviarThreadCreate nombre prioridad)
        deserializeThreadCreate (createSyscallThreadCreate nombre prioridad) ↔
      16 + (cadena nombre).length < 2 ^ 31 := by
  refine llega_conNombre_iff (g := fun t n w => Utils.ThreadCreate.mk n t w) nombre prioridad _
    rfl ?_ (fun hlen => serializeThreadCreate_eq hlen)
  rintro t n w heq
  cases heq
  exact ⟨rfl, rfl⟩

theorem llega_mutexOperation_iff
    (nombre : List UInt8) (tid : UInt32) :
    Llega op (crearEnviarMutexOperation op nombre tid)
        deserializeMutexOperation (createSyscallMutexOperation nombre tid) ↔
      16 + (cadena nombre).length < 2 ^ 31 := by
  refine llega_conNombre_iff (g := fun t n w => Utils.MutexOperation.mk n t w) nombre tid _
    rfl ?_ (fun hlen => serializeMutexOperation_eq hlen)
  rintro t n w heq
  cases heq
  exact ⟨rfl, rfl⟩

end Names

/-! ## The two sides together -/

section Pairs

variable {c : ExecutionContext} {m : Mensaje UInt32}

/-- The ids in a message are those of the thread that runs; PROCESS_EXIT has its TID. -/
def Propios (c : ExecutionContext) : Mensaje UInt32 → Prop
  | .dumpMemory pid tid => pid = c.pid ∧ tid = c.tid
  | .mutexCreate _ tid => tid = c.tid
  | .mutexLock _ tid => tid = c.tid
  | .mutexUnlock _ tid => tid = c.tid
  | .threadExit tid => tid = c.tid
  | .processExit pid => pid = c.tid
  | .segmentationFault tid pid => tid = c.tid ∧ pid = c.pid
  | .kernelInterruption tid pid => tid = c.tid ∧ pid = c.pid
  | _ => True

theorem propios_of_decode
    {instruction : Cpu.Instruction}
    (h : decode instruction c = some (.syscall m)) :
    Propios c m := by
  cases hname : instruction.name <;>
    simp only [decode, hname, Option.bind_eq_bind, Option.bind_eq_some_iff, Option.some.injEq,
      Accion.syscall.injEq, reduceCtorEq, and_false, exists_false] at h
  case dumpMemory =>
    subst h
    exact ⟨rfl, rfl⟩
  case threadExit | processExit =>
    subst h
    exact rfl
  case io | threadJoin | threadCancel =>
    obtain ⟨_, _, rfl⟩ := h
    trivial
  case mutexCreate | mutexLock | mutexUnlock =>
    obtain ⟨_, _, rfl⟩ := h
    exact rfl
  case threadCreate =>
    obtain ⟨_, _, _, _, rfl⟩ := h
    trivial
  case processCreate =>
    obtain ⟨_, _, _, _, _, _, rfl⟩ := h
    trivial

theorem propios_of_puedeEnviar
    (h : PuedeEnviar c m) :
    Propios c m := by
  rcases h with ⟨instruction, h⟩ | rfl | rfl
  · exact propios_of_decode h
  · exact ⟨rfl, rfl⟩
  · exact ⟨rfl, rfl⟩

/-- The two sides agree when the record arrives as the kernel deserializes it. -/
theorem acuerdan_iff_llega
    {α : Type} {d : Decoder α} {g : α → Recibido} {w : α}
    (hd : deserializador (operacionDe m) = some (do let v ← d; pure (g v)))
    (hw : querido c m = some (g w)) (hg : Function.Injective g) :
    Acuerdan c m ↔ Llega (operacionDe m) (bytesEnviados m) d w := by
  rw [← llega_map_iff hg]
  unfold Acuerdan Llega
  constructor
  · rintro ⟨bytes, buffer, hsent, hreceived, hall⟩
    obtain ⟨w', hw', hrun⟩ := hall _ hd
    rw [hw, Option.some.injEq] at hw'
    exact ⟨bytes, buffer, hsent, hreceived, hw' ▸ hrun⟩
  · rintro ⟨bytes, buffer, hsent, hreceived, hrun⟩
    refine ⟨bytes, buffer, hsent, hreceived, ?_⟩
    intro d' hd'
    rw [hd, Option.some.injEq] at hd'
    exact ⟨g w, hw, hd' ▸ hrun⟩

/-- The package of `send_dispatch_return`: eight bytes under the code it is given. -/
theorem paqueteDispatchReturn_eq
    (tid pid : UInt32) (code : Utils.OpCode) :
    ∃ bytes, paqueteDispatchReturn tid pid code = some bytes ∧
      recibeMensaje (Conexion.abierta bytes) =
        some (((code.code.toNat : Int), [encode32 tid, encode32 pid].flatten),
          Conexion.abierta []) := by
  have hlength : [encode32 tid, encode32 pid].flatten.length = 4 * 2 := by
    simp
  obtain ⟨b, hb, hstream, hsize⟩ := serializar_eq hlength (by decide)
  have hn : b.size.toNat = [encode32 tid, encode32 pid].flatten.length := by
    rw [hsize, hlength]
  refine ⟨_, ?_, recibeMensaje_eq code hn (by omega)⟩
  rw [paqueteDispatchReturn, serializeDispatchRequest, hb, Option.bind_eq_bind,
    Option.bind_some, hstream]
  exact sendPackage_eq hn (by simp only [hlength]; decide)

/-- `deserialize_seg_fault` looks for a third word after the eight bytes. -/
theorem run_segFault_none
    (tid pid : UInt32) :
    deserializeSegFault.run [encode32 tid, encode32 pid].flatten = none := by
  apply Stuck.run
  apply Stuck.word_bind (by decide)
  apply Stuck.word_bind (by decide)
  apply Stuck.bind_left
  exact Stuck.word_short (by decide) (by decide)

theorem not_llega_segmentationFault
    (tid pid : UInt32) (w : Utils.SegFault) :
    ¬ Llega .segmentationFault (paqueteDispatchReturn tid pid .segmentationFault)
        deserializeSegFault w := by
  rintro ⟨bytes, buffer, hsent, hreceived, hrun⟩
  obtain ⟨bytes', hbytes', hpackage⟩ := paqueteDispatchReturn_eq tid pid .segmentationFault
  obtain rfl : bytes' = bytes := by
    rw [hbytes'] at hsent
    exact Option.some.inj hsent
  rw [hpackage] at hreceived
  simp only [Option.some.injEq, Prod.mk.injEq] at hreceived
  obtain ⟨⟨-, rfl⟩, -⟩ := hreceived
  rw [run_segFault_none] at hrun
  cases hrun

theorem llega_threadOperation
    (op : Utils.OpCode) (tid : UInt32) :
    Llega op (crearEnviarThreadOperation op tid) deserializeThreadOperation { tid } :=
  llega_crearEnviar (by simp) (by decide) (by decide) (decodes_threadOperation { tid })

/-- What arrives of a PROCESS_EXIT is the id that was sent. -/
theorem llega_processExit_iff
    (pid pid' : UInt32) :
    Llega .processExit (crearEnviarProcessExit pid) deserializeProcessExit { pid := pid' } ↔
      pid = pid' := by
  have hsent : Llega .processExit (crearEnviarProcessExit pid) deserializeProcessExit { pid } :=
    llega_crearEnviar (by simp) (by decide) (by decide) (decodes_processExit { pid })
  constructor
  · rintro ⟨bytes, buffer, hbytes, hreceived, hrun⟩
    obtain ⟨bytes', buffer', hbytes', hreceived', hrun'⟩ := hsent
    obtain rfl : bytes' = bytes := by
      rw [hbytes'] at hbytes
      exact Option.some.inj hbytes
    rw [hreceived'] at hreceived
    simp only [Option.some.injEq, Prod.mk.injEq] at hreceived
    obtain ⟨⟨-, rfl⟩, -⟩ := hreceived
    rw [hrun'] at hrun
    simp only [Option.some.injEq, Prod.mk.injEq, Utils.ProcessExit.mk.injEq] at hrun
    exact hrun.1
  · rintro rfl
    exact hsent

/-- For which messages the kernel reads what the CPU meant: the payload of a
SEGMENTATION_FAULT is too short for its deserializer, and a PROCESS_EXIT carries the
TID in the place of the PID. -/
theorem cpu_and_kernel_agree_iff
    (c : ExecutionContext) (m : Mensaje UInt32)
    (h : PuedeEnviar c m) :
    Acuerdan c m ↔ SinCruce c m := by
  have hids := propios_of_puedeEnviar h
  cases m with
  | dumpMemory pid tid =>
      obtain ⟨rfl, rfl⟩ := hids
      rw [acuerdan_iff_llega (g := Recibido.dumpMemory) rfl rfl (fun _ _ => Recibido.dumpMemory.inj)]
      exact iff_of_true
        (llega_crearEnviar (by simp) (by decide) (by decide) (decodes_dumpMemory _)) trivial
  | io milisegundos =>
      rw [acuerdan_iff_llega (g := Recibido.syscallIo) rfl rfl (fun _ _ => Recibido.syscallIo.inj)]
      exact iff_of_true
        (llega_crearEnviar (by simp) (by decide) (by decide) (decodes_syscallIo _)) trivial
  | processCreate path size priority =>
      rw [acuerdan_iff_llega (g := Recibido.processCreate) rfl rfl
        (fun _ _ => Recibido.processCreate.inj)]
      exact llega_processCreate_iff (charBytes path) size priority
  | threadCreate path priority =>
      rw [acuerdan_iff_llega (g := Recibido.threadCreate) rfl rfl
        (fun _ _ => Recibido.threadCreate.inj)]
      exact llega_threadCreate_iff (charBytes path) priority
  | threadJoin tid =>
      rw [acuerdan_iff_llega (g := Recibido.threadOperation) rfl rfl
        (fun _ _ => Recibido.threadOperation.inj)]
      exact iff_of_true (llega_threadOperation _ tid) trivial
  | threadCancel tid =>
      rw [acuerdan_iff_llega (g := Recibido.threadOperation) rfl rfl
        (fun _ _ => Recibido.threadOperation.inj)]
      exact iff_of_true (llega_threadOperation _ tid) trivial
  | mutexCreate name tid =>
      obtain rfl : tid = c.tid := hids
      rw [acuerdan_iff_llega (g := Recibido.mutexOperation) rfl rfl
        (fun _ _ => Recibido.mutexOperation.inj)]
      exact llega_mutexOperation_iff (charBytes name) c.tid
  | mutexLock name tid =>
      obtain rfl : tid = c.tid := hids
      rw [acuerdan_iff_llega (g := Recibido.mutexOperation) rfl rfl
        (fun _ _ => Recibido.mutexOperation.inj)]
      exact llega_mutexOperation_iff (charBytes name) c.tid
  | mutexUnlock name tid =>
      obtain rfl : tid = c.tid := hids
      rw [acuerdan_iff_llega (g := Recibido.mutexOperation) rfl rfl
        (fun _ _ => Recibido.mutexOperation.inj)]
      exact llega_mutexOperation_iff (charBytes name) c.tid
  | threadExit tid =>
      obtain rfl : tid = c.tid := hids
      rw [acuerdan_iff_llega (g := Recibido.threadOperation) rfl rfl
        (fun _ _ => Recibido.threadOperation.inj)]
      exact iff_of_true (llega_threadOperation _ c.tid) trivial
  | processExit pid =>
      obtain rfl : pid = c.tid := hids
      rw [acuerdan_iff_llega (g := Recibido.processExit) rfl rfl
        (fun _ _ => Recibido.processExit.inj)]
      exact llega_processExit_iff c.tid c.pid
  | segmentationFault tid pid =>
      rw [acuerdan_iff_llega (g := Recibido.segFault) rfl rfl (fun _ _ => Recibido.segFault.inj)]
      exact iff_of_false (not_llega_segmentationFault tid pid _) id
  | kernelInterruption tid pid =>
      obtain ⟨bytes, hbytes, hpackage⟩ := paqueteDispatchReturn_eq tid pid .kernelInterruption
      refine iff_of_true ⟨bytes, _, hbytes, hpackage, ?_⟩ trivial
      intro d hd
      cases hd

/-- Thread 1 of process 2, before its first instruction. -/
def contextoDelHilo : ExecutionContext :=
  { tid := 1
    pid := 2
    estado := .running
    registers :=
      { pc := 0, ax := 0, bx := 0, cx := 0, dx := 0, ex := 0, fx := 0, gx := 0, hx := 0
        limite := 16, base := 0 }
    tamanioProceso := 16 }

theorem cpu_and_kernel_agree_iff_mutex :
    PuedeEnviar contextoDelHilo (.mutexLock ['R', '1'] 1) ∧
      Acuerdan contextoDelHilo (.mutexLock ['R', '1'] 1) := by
  have henvia : PuedeEnviar contextoDelHilo (.mutexLock ['R', '1'] 1) :=
    Or.inl ⟨{ name := .mutexLock, params := [['R', '1']] }, by decide⟩
  refine ⟨henvia, (cpu_and_kernel_agree_iff _ _ henvia).mpr ?_⟩
  simp only [SinCruce]
  decide

/-- A fault sends eight bytes and the kernel goes on to read the next four. -/
theorem segmentation_fault_is_not_read_as_sent :
    PuedeEnviar contextoDelHilo (.segmentationFault 1 2) ∧
      ¬ Acuerdan contextoDelHilo (.segmentationFault 1 2) := by
  refine ⟨Or.inr (Or.inl rfl), ?_⟩
  rw [acuerdan_iff_llega (g := Recibido.segFault) rfl rfl (fun _ _ => Recibido.segFault.inj)]
  exact not_llega_segmentationFault 1 2 _

end Pairs

end SinIdeas
