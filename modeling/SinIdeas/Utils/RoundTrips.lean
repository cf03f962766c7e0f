import Mathlib.Data.List.TakeWhile
import SinIdeas.Utils.Serializators

/-!
# Round trips of the serializators

A record comes back from its buffer as long as the hand-made sizes and offsets
hold: the size of the stream has to fit `buffer->size`, and every field after
which the deserializer goes on reading has to end below the largest `int`. Both
only matter for the records with an array or strings of their own.
-/

namespace SinIdeas
namespace Utils

open Lib

/-- The buffer left by a serializer comes back as `w`: its size is the number of
bytes written, and the deserializer reads exactly those bytes, whatever
follows. -/
def Vuelve {α : Type} (b : Option Buffer) (d : Decoder α) (w : α) : Prop :=
  ∃ buffer, b = some buffer ∧
    buffer.size.toNat = buffer.escritos ∧
    ∀ resto, d.run (buffer.stream ++ resto) = some (w, List.range buffer.size.toNat)

section Buffers

variable {α : Type} {size : Nat} {campos : List (List UInt8)} {d : Decoder α} {w : α}

theorem vuelve_serializarEn
    {capacidad : Nat} {n : UInt32}
    (hcapacidad : campos.flatten.length ≤ capacidad)
    (hsize : campos.flatten.length = n.toNat)
    (hd : Decodes d 0 campos.flatten w) :
    Vuelve (serializarEn capacidad n campos) d w := by
  obtain ⟨b, hb, hcontent, hwritten⟩ :=
    Block.copyAll_fresh _ campos hcapacidad (by rw [hsize]; exact n.toNat_lt)
  refine ⟨{ size := n, stream := b.content, escritos := b.written }, ?_, ?_, ?_⟩
  · rw [serializarEn, hb]
    rfl
  · rw [hwritten, hsize]
  · intro resto
    rw [hcontent, ← hsize]
    exact hd.run resto

theorem vuelve_serializar
    (hsize : campos.flatten.length = size) (hsmall : size < 2 ^ 32)
    (hd : Decodes d 0 campos.flatten w) :
    Vuelve (serializar size campos) d w := by
  have hword : (UInt32.ofNat size).toNat = size := by
    simp only [UInt32.toNat_ofNat']
    omega
  exact vuelve_serializarEn hsize.le (by rw [hsize, hword]) hd

/-- A stream too long for `buffer->size`. -/
theorem not_vuelve_of_size
    {capacidad : Nat} {n : UInt32}
    (hbig : 2 ^ 32 ≤ campos.flatten.length) :
    ¬ Vuelve (serializarEn capacidad n campos) d w := by
  rintro ⟨buffer, hb, hsize, -⟩
  obtain ⟨b, hcopied, hbuffer⟩ := Option.bind_eq_some_iff.mp hb
  have hwritten := Block.written_copyAll campos hcopied
  obtain rfl := Option.some.inj hbuffer
  simp only [Block.fresh, Nat.zero_add] at hwritten
  have hn := n.toNat_lt
  simp only at hsize
  omega

/-- A deserializer that leaves the stream. -/
theorem not_vuelve_of_stuck
    (hsize : campos.flatten.length = size) (hsmall : size < 2 ^ 32)
    (hd : Stuck d 0 campos.flatten) :
    ¬ Vuelve (serializar size campos) d w := by
  rintro ⟨buffer, hb, -, hrun⟩
  obtain ⟨b, hcopied, hcontent, -⟩ :=
    Block.copyAll_fresh _ campos hsize.le (by omega)
  have hbuffer : buffer.stream = campos.flatten := by
    rw [serializar, serializarEn, hcopied] at hb
    obtain rfl := Option.some.inj hb
    exact hcontent
  have hnone := hd.run
  have hsome := hrun []
  rw [List.append_nil, hbuffer, hnone] at hsome
  cases hsome

end Buffers

@[simp] theorem copiaDe_length
    {datos : List UInt8} {n : UInt32}
    (h : n.toNat = datos.length) :
    copiaDe datos n = some datos := by
  rw [copiaDe, if_pos (by omega), h, List.take_length]

/-! ## Records of words -/

theorem decodes_dumpMemory
    (v : DumpMemory) :
    Decodes deserializeDumpMemory 0 [encode32 v.pid, encode32 v.tid].flatten v := by
  apply Decodes.word_bind (by decide)
  apply Decodes.word_bind (by decide)
  exact Decodes.pure _ _

theorem decodes_syscallIo
    (v : SyscallIo) :
    Decodes deserializeSyscallIo 0 [encode32 v.milisegundos].flatten v := by
  apply Decodes.word_bind (by decide)
  exact Decodes.pure _ _

theorem decodes_threadOperation
    (v : ThreadOperation) :
    Decodes deserializeThreadOperation 0 [encode32 v.tid].flatten v := by
  apply Decodes.word_bind (by decide)
  exact Decodes.pure _ _

theorem decodes_processExit
    (v : ProcessExit) :
    Decodes deserializeProcessExit 0 [encode32 v.pid].flatten v := by
  apply Decodes.word_bind (by decide)
  exact Decodes.pure _ _

theorem decodes_dispatchRequest
    (v : DispatchRequest) :
    Decodes deserializeDispatchRequest 0 [encode32 v.tid, encode32 v.pid].flatten v := by
  apply Decodes.word_bind (by decide)
  apply Decodes.word_bind (by decide)
  exact Decodes.pure _ _

theorem decodes_instructionRequest
    (v : InstructionRequest) :
    Decodes deserializeInstructionRequest 0
      [encode32 v.tid, encode32 v.pc, encode32 v.pid].flatten v := by
  apply Decodes.word_bind (by decide)
  apply Decodes.word_bind (by decide)
  apply Decodes.word_bind (by decide)
  exact Decodes.pure _ _

theorem decodes_readMemRequest
    (v : ReadMemRequest) :
    Decodes deserializeReadMemRequest 0
      [encode32 v.physicalAddress, encode32 v.pid, encode32 v.tid].flatten v := by
  apply Decodes.word_bind (by decide)
  apply Decodes.word_bind (by decide)
  apply Decodes.word_bind (by decide)
  exact Decodes.pure _ _

theorem decodes_writeMemRequest
    (v : WriteMemRequest) :
    Decodes deserializeWriteMemRequest 0
      [encode32 v.physicalAddress, encode32 v.pid, encode32 v.tid,
        encode32 v.dataRegisterValue].flatten v := by
  apply Decodes.word_bind (by decide)
  apply Decodes.word_bind (by decide)
  apply Decodes.word_bind (by decide)
  apply Decodes.word_bind (by decide)
  exact Decodes.pure _ _

theorem decodes_pcbRequest
    (v : PcbRequest) :
    Decodes deserializePcbRequest 0 [encode32 v.pid, encode32 v.size].flatten v := by
  apply Decodes.word_bind (by decide)
  apply Decodes.word_bind (by decide)
  exact Decodes.pure _ _

theorem decodes_segFault
    (v : SegFault) :
    Decodes deserializeSegFault 0
      [encode32 v.tid, encode32 v.pid, encode32 v.code.code].flatten v := by
  apply Decodes.word_bind (by decide)
  apply Decodes.word_bind (by decide)
  apply Decodes.word_bind (by decide)
  apply Decodes.ofOption_bind (OpCode.ofCode_code v.code)
  exact Decodes.pure _ _

@[simp] theorem length_registerBytes (r : Register) : r.bytes.length = 44 := by
  simp [Register.bytes]

theorem decodes_context
    (v : ExecutionContext) :
    Decodes deserializeContext 0
      [encode32 v.tid, encode32 v.pid, encode32 v.estado.code, encode32 v.tamanioProceso,
        v.registers.bytes].flatten v := by
  apply Decodes.word_bind (by decide)
  apply Decodes.word_bind (by decide)
  apply Decodes.word_bind (by decide)
  apply Decodes.ofOption_bind (State.ofCode_code v.estado)
  apply Decodes.word_bind (by decide)
  apply Decodes.bytes_bind (by decide) (length_registerBytes v.registers)
  apply Decodes.ofOption_bind (Register.ofBytes_bytes v.registers)
  exact Decodes.pure _ _

/-- The bytes of a context are the ones memoria and the CPU exchange. -/
theorem serializeContext_eq
    (v : ExecutionContext) :
    serializeContext v =
      some { size := 60, stream := serializeExecutionContext v, escritos := 60 } := by
  obtain ⟨b, hb, hcontent, hwritten⟩ := Block.copyAll_fresh 60
    [encode32 v.tid, encode32 v.pid, encode32 v.estado.code, encode32 v.tamanioProceso,
      v.registers.bytes] (by simp) (by simp)
  have hstream : b.content = serializeExecutionContext v := by
    rw [hcontent]
    simp [serializeExecutionContext]
  have hsize : b.written = 60 := by
    rw [hwritten]
    simp
  simp only [serializeContext, serializar, serializarEn]
  rw [hb, Option.bind_eq_bind, Option.bind_some, hstream, hsize]
  rfl

/-! ## Records with an array -/

theorem decodes_processCreate
    {v : ProcessCreate}
    (hlen : v.tamanioNombre.toNat = v.nombreArchivo.length)
    (hfits : 8 + v.tamanioNombre.toNat < 2 ^ 31) :
    Decodes deserializeProcessCreate 0
      [encode32 v.tamanioNombre, v.nombreArchivo, encode32 v.tamanioProceso,
        encode32 v.prioridad].flatten v := by
  apply Decodes.word_bind (by decide)
  apply Decodes.bytes_bind (by decide) hlen.symm
  apply Decodes.word_bind (by omega)
  apply Decodes.word_bind (by omega)
  exact Decodes.pure _ _

/-- One of the two words after the name starts past the largest `int`. -/
theorem stuck_processCreate
    {v : ProcessCreate}
    (hlen : v.tamanioNombre.toNat = v.nombreArchivo.length)
    (hlong : 2 ^ 31 ≤ 8 + v.tamanioNombre.toNat)
    (hsmall : 12 + v.tamanioNombre.toNat < 2 ^ 32) :
    Stuck deserializeProcessCreate 0
      [encode32 v.tamanioNombre, v.nombreArchivo, encode32 v.tamanioProceso,
        encode32 v.prioridad].flatten := by
  apply Stuck.word_bind (by decide)
  apply Stuck.bytes_bind (by decide) hlen.symm
  by_cases hfirst : 4 + v.tamanioNombre.toNat < 2 ^ 31
  · apply Stuck.word_bind (by omega)
    apply Stuck.bind_left
    exact Stuck.word (by omega) (by omega) _
  · apply Stuck.bind_left
    exact Stuck.word (by omega) (by omega) _

/-- What `deserialize_thread_create` and `deserialize_mutex_operation` read: a size, a name
of that size and a word. -/
def conNombre {α : Type} (g : UInt32 → List UInt8 → UInt32 → α) : Decoder α := do
  let tamanioNombre ← Decoder.word
  let nombre ← Decoder.bytes tamanioNombre.toNat
  let palabra ← Decoder.word
  pure (g tamanioNombre nombre palabra)

section Names

variable {α : Type} {g : UInt32 → List UInt8 → UInt32 → α} {tamanioNombre palabra : UInt32}
  {nombre : List UInt8}

theorem decodes_conNombre
    (hlen : tamanioNombre.toNat = nombre.length)
    (hfits : 4 + tamanioNombre.toNat < 2 ^ 31) :
    Decodes (conNombre g) 0 [encode32 tamanioNombre, nombre, encode32 palabra].flatten
      (g tamanioNombre nombre palabra) := by
  apply Decodes.word_bind (by decide)
  apply Decodes.bytes_bind (by decide) hlen.symm
  apply Decodes.word_bind (by omega)
  exact Decodes.pure _ _

/-- The word after the name starts past the largest `int`. -/
theorem stuck_conNombre
    (hlen : tamanioNombre.toNat = nombre.length)
    (hlong : 2 ^ 31 ≤ 4 + tamanioNombre.toNat)
    (hsmall : 8 + tamanioNombre.toNat < 2 ^ 32) :
    Stuck (conNombre g) 0 [encode32 tamanioNombre, nombre, encode32 palabra].flatten := by
  apply Stuck.word_bind (by decide)
  apply Stuck.bytes_bind (by decide) hlen.symm
  apply Stuck.bind_left
  exact Stuck.word (by omega) (by omega) _

theorem conNombre_size
    (hlen : tamanioNombre.toNat = nombre.length) :
    [encode32 tamanioNombre, nombre, encode32 palabra].flatten.length =
      4 + tamanioNombre.toNat + 4 := by
  simp [hlen]
  omega

theorem conNombre_vuelve_iff
    (hlen : tamanioNombre.toNat = nombre.length) :
    Vuelve (serializar (4 + tamanioNombre.toNat + 4)
        [encode32 tamanioNombre, nombre, encode32 palabra]) (conNombre g)
        (g tamanioNombre nombre palabra) ↔
      4 + tamanioNombre.toNat < 2 ^ 31 := by
  have hsize : [encode32 tamanioNombre, nombre, encode32 palabra].flatten.length =
      4 + tamanioNombre.toNat + 4 := conNombre_size hlen
  constructor
  · intro hvuelve
    by_contra hlong
    by_cases hsmall : 8 + tamanioNombre.toNat < 2 ^ 32
    · exact not_vuelve_of_stuck hsize (by omega)
        (stuck_conNombre hlen (by omega) hsmall) hvuelve
    · exact not_vuelve_of_size (by omega) hvuelve
  · intro hfits
    exact vuelve_serializar hsize (by omega) (decodes_conNombre hlen hfits)

/-- What a run that ends well has read. -/
theorem visited_conNombre
    {mem : List UInt8} {v : α} {visited : List Nat}
    (h : (conNombre g).run mem = some (v, visited)) :
    ∃ tamanioNombre nombre palabra, v = g tamanioNombre nombre palabra ∧
      visited.length = 8 + tamanioNombre.toNat ∧ nombre.length = tamanioNombre.toNat := by
  obtain ⟨⟨w, r⟩, hrun, hout⟩ := Option.map_eq_some_iff.mp h
  obtain ⟨⟨tamanio, r₁⟩, hfirst, hrun⟩ := Option.bind_eq_some_iff.mp hrun
  obtain ⟨⟨nombre, r₂⟩, hname, hrun⟩ := Option.bind_eq_some_iff.mp hrun
  obtain ⟨⟨palabra, r₃⟩, hsecond, hrun⟩ := Option.bind_eq_some_iff.mp hrun
  cases hrun
  cases hout
  have h₁ := Decoder.word_visited hfirst
  have h₂ := Decoder.bytes_visited hname
  have h₃ := Decoder.word_visited hsecond
  simp only [List.length_nil] at h₁ h₂ h₃ ⊢
  exact ⟨tamanio, nombre, palabra, rfl, by omega, Decoder.bytes_length hname⟩

end Names

theorem decodes_message
    {v : Message}
    (hlen : v.length.toNat = v.message.length) :
    Decodes deserializeMessage 0 [encode32 v.length, v.message].flatten v := by
  apply Decodes.word_bind (by decide)
  apply Decodes.bytes_bind (by decide) hlen.symm
  exact Decodes.pure _ _

theorem decodes_dumpContext
    {v : DumpContext}
    (hlen : v.tamanioProceso.toNat = v.datos.length) :
    Decodes deserializeDumpContext 0
      [encode32 v.pid, encode32 v.tid, encode32 v.tamanioProceso, v.datos].flatten v := by
  apply Decodes.word_bind (by decide)
  apply Decodes.word_bind (by decide)
  apply Decodes.word_bind (by decide)
  apply Decodes.bytes_bind (by decide) hlen.symm
  exact Decodes.pure _ _

/-- A thread as it comes back: a path of length 0 is no path. -/
def TcbEnviado.recibido (t : TcbEnviado) : TcbEnviado :=
  { t with filePath := if 0 < t.filePathLength then t.filePath else none }

theorem decodes_tcb
    {v : TcbEnviado}
    (hlen : v.filePathLength.toNat = (v.filePath.getD []).length) :
    Decodes deserializeTcb 0
      [encode32 v.tid, encode32 v.parentPid, encode32 v.priority, encode32 v.state.code,
        encode32 v.filePathLength, v.filePath.getD []].flatten v.recibido := by
  apply Decodes.word_bind (by decide)
  apply Decodes.word_bind (by decide)
  apply Decodes.word_bind (by decide)
  apply Decodes.word_bind (by decide)
  apply Decodes.ofOption_bind (State.ofCode_code v.state)
  apply Decodes.word_bind (by decide)
  by_cases hpath : 0 < v.filePathLength
  · have hpos : 0 < (v.filePath.getD []).length := by
      rw [← hlen]
      exact UInt32.lt_iff_toNat_lt.mp hpath
    have hsome : v.filePath = some (v.filePath.getD []) := by
      cases h : v.filePath with
      | none =>
          simp [h] at hpos
      | some ruta =>
          rfl
    simp only [hpath, if_true]
    apply Decodes.bytes_bind (by decide) hlen.symm
    have hrecibido : v.recibido = { v with filePath := some (v.filePath.getD []) } := by
      rw [TcbEnviado.recibido, if_pos hpath, ← hsome]
    rw [hrecibido]
    exact Decodes.pure _ _
  · have hempty : v.filePath.getD [] = [] := by
      have hzero : ¬ 0 < v.filePathLength.toNat := fun h => hpath (UInt32.lt_iff_toNat_lt.mpr h)
      rw [hlen] at hzero
      exact List.length_eq_zero_iff.mp (by omega)
    have hrecibido : v.recibido = { v with filePath := none } := by
      rw [TcbEnviado.recibido, if_neg hpath]
    simp only [hpath, if_false, hempty, hrecibido]
    exact Decodes.pure _ _

/-! ## Instructions -/

/-- The bytes of a list of parameters, each with the byte that ends it. -/
def tamanioParams (params : List (List UInt8)) : Nat :=
  (params.map (fun p => p.length + 1)).sum

theorem cadena_of_notMem
    {p : List UInt8}
    (h : (0 : UInt8) ∉ p) :
    cadena p = p ++ [0] := by
  have hall : p.takeWhile (fun b => b != 0) = p := by
    rw [List.takeWhile_eq_self_iff]
    intro b hb
    simpa using fun hzero : b = 0 => h (hzero ▸ hb)
  rw [cadena, hall]

theorem length_flatMap_cadena
    {params : List (List UInt8)}
    (h : ∀ p ∈ params, (0 : UInt8) ∉ p) :
    (params.flatMap cadena).length = tamanioParams params := by
  induction params with
  | nil =>
      rfl
  | cons p params ih =>
      have hrest := ih (fun q hq => h q (by simp [hq]))
      rw [List.flatMap_cons, List.length_append, hrest, cadena_of_notMem (h p (by simp))]
      simp [tamanioParams]

theorem decodes_cadena
    {params : List (List UInt8)}
    (h : ∀ p ∈ params, (0 : UInt8) ∉ p) :
    ∀ p ∈ params, ∀ start < 2 ^ 31, Decodes Decoder.cstring start (cadena p) p := by
  intro p hp start hstart
  rw [cadena_of_notMem (h p hp)]
  exact Decodes.cstring hstart (h p hp)

section Params

variable {v : Instruction}

theorem flatten_instruction :
    (encode32 v.name.code :: encode32 v.paramsCount :: v.params.map cadena).flatten =
      encode32 v.name.code ++ (encode32 v.paramsCount ++ (v.params.flatMap cadena ++ [])) := by
  simp [List.flatMap]

theorem starts_iff
    (hnul : ∀ p ∈ v.params, (0 : UInt8) ∉ p) :
    (∀ a p b, v.params = a ++ p :: b → 8 + (a.flatMap cadena).length < 2 ^ 31) ↔
      ∀ a p b, v.params = a ++ p :: b → 8 + tamanioParams a < 2 ^ 31 := by
  have hlength : ∀ a p b, v.params = a ++ p :: b →
      (a.flatMap cadena).length = tamanioParams a := by
    intro a p b hsplit
    apply length_flatMap_cadena
    intro q hq
    exact hnul q (by simp [hsplit, hq])
  constructor
  · intro h a p b hsplit
    rw [← hlength a p b hsplit]
    exact h a p b hsplit
  · intro h a p b hsplit
    rw [hlength a p b hsplit]
    exact h a p b hsplit

theorem decodes_instruction
    (hcount : v.paramsCount.toNat = v.params.length)
    (hnul : ∀ p ∈ v.params, (0 : UInt8) ∉ p)
    (hstarts : ∀ a p b, v.params = a ++ p :: b → 8 + tamanioParams a < 2 ^ 31) :
    Decodes deserializeInstruction 0
      (encode32 v.name.code :: encode32 v.paramsCount :: v.params.map cadena).flatten v := by
  rw [flatten_instruction]
  apply Decodes.word_bind (by decide)
  apply Decodes.ofOption_bind (OpCode.ofCode_code v.name)
  apply Decodes.word_bind (by decide)
  have hloop := Decodes.times v.params 8 (decodes_cadena hnul) ((starts_iff hnul).mpr hstarts)
  rw [← hcount] at hloop
  exact hloop.bind (Decodes.pure _ _)

theorem stuck_instruction
    (hcount : v.paramsCount.toNat = v.params.length)
    (hnul : ∀ p ∈ v.params, (0 : UInt8) ∉ p)
    (hsmall : 8 + tamanioParams v.params < 2 ^ 32)
    (hstarts : ¬ ∀ a p b, v.params = a ++ p :: b → 8 + tamanioParams a < 2 ^ 31) :
    Stuck deserializeInstruction 0
      (encode32 v.name.code :: encode32 v.paramsCount :: v.params.map cadena).flatten := by
  rw [flatten_instruction, List.append_nil]
  apply Stuck.word_bind (by decide)
  apply Stuck.ofOption_bind (OpCode.ofCode_code v.name)
  apply Stuck.word_bind (by decide)
  apply Stuck.bind_left
  rw [hcount]
  apply Stuck.times v.params 8 (decodes_cadena hnul)
  · intro start l hlow hhigh
    exact Stuck.cstring hlow hhigh l
  · rw [length_flatMap_cadena hnul]
    exact hsmall
  · rwa [starts_iff hnul]

end Params

/-! ## All the messages -/

/-- A value of one of the message types. -/
inductive Valor where
  | processCreate (v : ProcessCreate)
  | threadCreate (v : ThreadCreate)
  | mutexOperation (v : MutexOperation)
  | dumpMemory (v : DumpMemory)
  | syscallIo (v : SyscallIo)
  | threadOperation (v : ThreadOperation)
  | processExit (v : ProcessExit)
  | dispatchRequest (v : DispatchRequest)
  | instructionRequest (v : InstructionRequest)
  | readMemRequest (v : ReadMemRequest)
  | writeMemRequest (v : WriteMemRequest)
  | pcbRequest (v : PcbRequest)
  | segFault (v : SegFault)
  | tcb (v : TcbEnviado)
  | message (v : Message)
  | executionContext (v : ExecutionContext)
  | dumpContext (v : DumpContext)
  | instruction (v : Instruction)

namespace Valor

/-- The length fields match the data, and no parameter holds a byte 0. -/
def Coherente : Valor → Prop
  | processCreate v => v.tamanioNombre.toNat = v.nombreArchivo.length
  | threadCreate v => v.tamanioNombre.toNat = v.nombreArchivo.length
  | mutexOperation v => v.tamanioNombre.toNat = v.nombreSemaforo.length
  | tcb v => v.filePathLength.toNat = (v.filePath.getD []).length
  | message v => v.length.toNat = v.message.length
  | dumpContext v => v.tamanioProceso.toNat = v.datos.length
  | instruction v =>
      v.paramsCount.toNat = v.params.length ∧ ∀ p ∈ v.params, (0 : UInt8) ∉ p
  | _ => True

/-- The stream fits `buffer->size`, and every field the deserializer starts
after an array starts below the largest `int`. -/
def Cabe : Valor → Prop
  | processCreate v => 8 + v.tamanioNombre.toNat < 2 ^ 31
  | threadCreate v => 4 + v.tamanioNombre.toNat < 2 ^ 31
  | mutexOperation v => 4 + v.tamanioNombre.toNat < 2 ^ 31
  | tcb v => 20 + v.filePathLength.toNat < 2 ^ 32
  | message v => 4 + v.length.toNat < 2 ^ 32
  | dumpContext v => 12 + v.tamanioProceso.toNat < 2 ^ 32
  | instruction v =>
      8 + tamanioParams v.params < 2 ^ 32 ∧
        ∀ a p b, v.params = a ++ p :: b → 8 + tamanioParams a < 2 ^ 31
  | _ => True

/-- The value survives its serializer and its deserializer. -/
def RoundTrips : Valor → Prop
  | processCreate v => Vuelve (serializeProcessCreate v) deserializeProcessCreate v
  | threadCreate v => Vuelve (serializeThreadCreate v) deserializeThreadCreate v
  | mutexOperation v => Vuelve (serializeMutexOperation v) deserializeMutexOperation v
  | dumpMemory v => Vuelve (serializeDumpMemory v) deserializeDumpMemory v
  | syscallIo v => Vuelve (serializeSyscallIo v) deserializeSyscallIo v
  | threadOperation v => Vuelve (serializeThreadOperation v) deserializeThreadOperation v
  | processExit v => Vuelve (serializeProcessExit v) deserializeProcessExit v
  | dispatchRequest v => Vuelve (serializeDispatchRequest v) deserializeDispatchRequest v
  | instructionRequest v =>
      Vuelve (serializeInstructionRequest v) deserializeInstructionRequest v
  | readMemRequest v => Vuelve (serializeReadMemRequest v) deserializeReadMemRequest v
  | writeMemRequest v => Vuelve (serializeWriteMemRequest v) deserializeWriteMemRequest v
  | pcbRequest v => Vuelve (serializePcbRequest v) deserializePcbRequest v
  | segFault v => Vuelve (serializeSegFault v) deserializeSegFault v
  | tcb v => Vuelve (serializeTcb v) deserializeTcb v.recibido
  | message v => Vuelve (serializeMessage v) deserializeMessage v
  | executionContext v => Vuelve (serializeContext v) deserializeContext v
  | dumpContext v => Vuelve (serializeDumpContext v) deserializeDumpContext v
  | instruction v => Vuelve (serializeInstruction v) deserializeInstruction v

end Valor

theorem serializeProcessCreate_eq
    {v : ProcessCreate}
    (hlen : v.tamanioNombre.toNat = v.nombreArchivo.length) :
    serializeProcessCreate v = serializar (4 + v.tamanioNombre.toNat + 4 + 4)
      [encode32 v.tamanioNombre, v.nombreArchivo, encode32 v.tamanioProceso,
        encode32 v.prioridad] := by
  rw [serializeProcessCreate, copiaDe_length hlen]
  rfl

theorem processCreate_size
    {v : ProcessCreate}
    (hlen : v.tamanioNombre.toNat = v.nombreArchivo.length) :
    [encode32 v.tamanioNombre, v.nombreArchivo, encode32 v.tamanioProceso,
      encode32 v.prioridad].flatten.length = 4 + v.tamanioNombre.toNat + 4 + 4 := by
  simp [hlen]
  omega

theorem processCreate_vuelve_iff
    {v : ProcessCreate}
    (hlen : v.tamanioNombre.toNat = v.nombreArchivo.length) :
    Vuelve (serializeProcessCreate v) deserializeProcessCreate v ↔
      8 + v.tamanioNombre.toNat < 2 ^ 31 := by
  have hsize := processCreate_size hlen
  rw [serializeProcessCreate_eq hlen]
  constructor
  · intro hvuelve
    by_contra hlong
    by_cases hsmall : 12 + v.tamanioNombre.toNat < 2 ^ 32
    · exact not_vuelve_of_stuck hsize (by omega)
        (stuck_processCreate hlen (by omega) hsmall) hvuelve
    · exact not_vuelve_of_size (by omega) hvuelve
  · intro hfits
    exact vuelve_serializar hsize (by omega) (decodes_processCreate hlen hfits)

theorem serializeThreadCreate_eq
    {v : ThreadCreate}
    (hlen : v.tamanioNombre.toNat = v.nombreArchivo.length) :
    serializeThreadCreate v = serializar (4 + v.tamanioNombre.toNat + 4)
      [encode32 v.tamanioNombre, v.nombreArchivo, encode32 v.prioridad] := by
  rw [serializeThreadCreate, copiaDe_length hlen]
  rfl

theorem threadCreate_vuelve_iff
    {v : ThreadCreate}
    (hlen : v.tamanioNombre.toNat = v.nombreArchivo.length) :
    Vuelve (serializeThreadCreate v) deserializeThreadCreate v ↔
      4 + v.tamanioNombre.toNat < 2 ^ 31 := by
  rw [serializeThreadCreate_eq hlen]
  exact conNombre_vuelve_iff (g := fun t n w => ThreadCreate.mk n t w) hlen

theorem serializeMutexOperation_eq
    {v : MutexOperation}
    (hlen : v.tamanioNombre.toNat = v.nombreSemaforo.length) :
    serializeMutexOperation v = serializar (4 + v.tamanioNombre.toNat + 4)
      [encode32 v.tamanioNombre, v.nombreSemaforo, encode32 v.tid] := by
  rw [serializeMutexOperation, copiaDe_length hlen]
  rfl

theorem mutexOperation_vuelve_iff
    {v : MutexOperation}
    (hlen : v.tamanioNombre.toNat = v.nombreSemaforo.length) :
    Vuelve (serializeMutexOperation v) deserializeMutexOperation v ↔
      4 + v.tamanioNombre.toNat < 2 ^ 31 := by
  rw [serializeMutexOperation_eq hlen]
  exact conNombre_vuelve_iff (g := fun t n w => MutexOperation.mk n t w) hlen

theorem message_vuelve_iff
    {v : Message}
    (hlen : v.length.toNat = v.message.length) :
    Vuelve (serializeMessage v) deserializeMessage v ↔ 4 + v.length.toNat < 2 ^ 32 := by
  have hsize : [encode32 v.length, v.message].flatten.length = 4 + v.length.toNat := by
    simp [hlen]
  have hcopy : serializeMessage v =
      serializar (4 + v.length.toNat) [encode32 v.length, v.message] := by
    rw [serializeMessage, copiaDe_length hlen]
    rfl
  rw [hcopy]
  constructor
  · intro hvuelve
    by_contra hlong
    exact not_vuelve_of_size (by omega) hvuelve
  · intro hfits
    exact vuelve_serializar hsize hfits (decodes_message hlen)

theorem tcb_vuelve_iff
    {v : TcbEnviado}
    (hlen : v.filePathLength.toNat = (v.filePath.getD []).length) :
    Vuelve (serializeTcb v) deserializeTcb v.recibido ↔
      20 + v.filePathLength.toNat < 2 ^ 32 := by
  have hsize : [encode32 v.tid, encode32 v.parentPid, encode32 v.priority,
      encode32 v.state.code, encode32 v.filePathLength, v.filePath.getD []].flatten.length =
        4 * 4 + 4 + v.filePathLength.toNat := by
    simp [hlen]
    omega
  have hcopy : serializeTcb v = serializar (4 * 4 + 4 + v.filePathLength.toNat)
      [encode32 v.tid, encode32 v.parentPid, encode32 v.priority, encode32 v.state.code,
        encode32 v.filePathLength, v.filePath.getD []] := by
    rw [serializeTcb, copiaDe_length hlen]
    rfl
  rw [hcopy]
  constructor
  · intro hvuelve
    by_contra hlong
    exact not_vuelve_of_size (by omega) hvuelve
  · intro hfits
    exact vuelve_serializar hsize (by omega) (decodes_tcb hlen)

theorem dumpContext_vuelve_iff
    {v : DumpContext}
    (hlen : v.tamanioProceso.toNat = v.datos.length) :
    Vuelve (serializeDumpContext v) deserializeDumpContext v ↔
      12 + v.tamanioProceso.toNat < 2 ^ 32 := by
  have hsize : [encode32 v.pid, encode32 v.tid, encode32 v.tamanioProceso,
      v.datos].flatten.length = 12 + v.tamanioProceso.toNat := by
    simp [hlen]
    omega
  have hcopy : serializeDumpContext v =
      serializarEn (4 + 4 + 4 + v.tamanioProceso).toNat (4 + 4 + 4 + v.tamanioProceso)
        [encode32 v.pid, encode32 v.tid, encode32 v.tamanioProceso, v.datos] := by
    rw [serializeDumpContext, copiaDe_length hlen]
    rfl
  rw [hcopy]
  constructor
  · intro hvuelve
    by_contra hlong
    exact not_vuelve_of_size (by omega) hvuelve
  · intro hfits
    have hword : (4 + 4 + 4 + v.tamanioProceso).toNat = 12 + v.tamanioProceso.toNat := by
      rw [UInt32.toNat_add]
      exact Nat.mod_eq_of_lt hfits
    exact vuelve_serializarEn (by omega) (by omega) (decodes_dumpContext hlen)

theorem instruction_vuelve_iff
    {v : Instruction}
    (hcount : v.paramsCount.toNat = v.params.length)
    (hnul : ∀ p ∈ v.params, (0 : UInt8) ∉ p) :
    Vuelve (serializeInstruction v) deserializeInstruction v ↔
      8 + tamanioParams v.params < 2 ^ 32 ∧
        ∀ a p b, v.params = a ++ p :: b → 8 + tamanioParams a < 2 ^ 31 := by
  have hflat := length_flatMap_cadena hnul
  have hsum : (v.params.map (fun p => (cadena p).length)).sum = tamanioParams v.params := by
    rw [← hflat, List.length_flatMap]
  have hsize : (encode32 v.name.code :: encode32 v.paramsCount ::
      v.params.map cadena).flatten.length = 8 + tamanioParams v.params := by
    rw [flatten_instruction]
    simp only [List.length_append, length_encode32, hflat, List.length_nil]
    omega
  have hcopy : serializeInstruction v = serializar (8 + tamanioParams v.params)
      (encode32 v.name.code :: encode32 v.paramsCount :: v.params.map cadena) := by
    have hall : v.recorridos = some v.params := by
      rw [Instruction.recorridos, if_pos (by omega), hcount, List.take_length]
    rw [serializeInstruction, hall, ← hsum]
    rfl
  rw [hcopy]
  constructor
  · intro hvuelve
    have hsmall : 8 + tamanioParams v.params < 2 ^ 32 := by
      by_contra hlong
      exact not_vuelve_of_size (by omega) hvuelve
    refine ⟨hsmall, ?_⟩
    by_contra hstarts
    exact not_vuelve_of_stuck hsize hsmall (stuck_instruction hcount hnul hsmall hstarts) hvuelve
  · rintro ⟨hsmall, hstarts⟩
    exact vuelve_serializar hsize hsmall (decodes_instruction hcount hnul hstarts)

/-- Which messages survive being sent: all but those with an array so long that
`buffer->size` or the offset of the deserializer runs over. -/
theorem serializators_round_trip_iff
    (v : Valor)
    (hv : v.Coherente) :
    v.RoundTrips ↔ v.Cabe := by
  cases v with
  | processCreate v => exact processCreate_vuelve_iff hv
  | threadCreate v => exact threadCreate_vuelve_iff hv
  | mutexOperation v => exact mutexOperation_vuelve_iff hv
  | tcb v => exact tcb_vuelve_iff hv
  | message v => exact message_vuelve_iff hv
  | dumpContext v => exact dumpContext_vuelve_iff hv
  | instruction v => exact instruction_vuelve_iff hv.1 hv.2
  | dumpMemory v =>
      exact iff_of_true (vuelve_serializar (by simp) (by decide) (decodes_dumpMemory v)) trivial
  | syscallIo v =>
      exact iff_of_true (vuelve_serializar (by simp) (by decide) (decodes_syscallIo v)) trivial
  | threadOperation v =>
      exact iff_of_true
        (vuelve_serializar (by simp) (by decide) (decodes_threadOperation v)) trivial
  | processExit v =>
      exact iff_of_true (vuelve_serializar (by simp) (by decide) (decodes_processExit v)) trivial
  | dispatchRequest v =>
      exact iff_of_true
        (vuelve_serializar (by simp) (by decide) (decodes_dispatchRequest v)) trivial
  | instructionRequest v =>
      exact iff_of_true
        (vuelve_serializar (by simp) (by decide) (decodes_instructionRequest v)) trivial
  | readMemRequest v =>
      exact iff_of_true
        (vuelve_serializar (by simp) (by decide) (decodes_readMemRequest v)) trivial
  | writeMemRequest v =>
      exact iff_of_true
        (vuelve_serializar (by simp) (by decide) (decodes_writeMemRequest v)) trivial
  | pcbRequest v =>
      exact iff_of_true (vuelve_serializar (by simp) (by decide) (decodes_pcbRequest v)) trivial
  | segFault v =>
      exact iff_of_true (vuelve_serializar (by simp) (by decide) (decodes_segFault v)) trivial
  | executionContext v =>
      exact iff_of_true (vuelve_serializar (by simp) (by decide) (decodes_context v)) trivial

theorem serializators_round_trip_iff_proceso :
    (Valor.processCreate
      { nombreArchivo := [97, 0], tamanioNombre := 2, tamanioProceso := 64,
        prioridad := 1 }).RoundTrips := by
  apply (serializators_round_trip_iff (.processCreate _) (by rfl)).mpr
  show 8 + UInt32.toNat 2 < 2 ^ 31
  decide

/-- A name of 2 GiB: the offset at which the priority is read is negative. -/
theorem process_create_nombre_largo :
    (Valor.processCreate
      { nombreArchivo := List.replicate 2147483639 97 ++ [0], tamanioNombre := 2147483640,
        tamanioProceso := 64, prioridad := 1 }).Coherente ∧
    ¬ (Valor.processCreate
      { nombreArchivo := List.replicate 2147483639 97 ++ [0], tamanioNombre := 2147483640,
        tamanioProceso := 64, prioridad := 1 }).RoundTrips := by
  have hlen : UInt32.toNat 2147483640 =
      (List.replicate 2147483639 (97 : UInt8) ++ [0]).length := by
    rw [List.length_append, List.length_replicate]
    rfl
  refine ⟨hlen, fun h => ?_⟩
  have hfits := (processCreate_vuelve_iff hlen).mp h
  exact absurd hfits (by decide)

end Utils
end SinIdeas
