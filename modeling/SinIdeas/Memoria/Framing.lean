import SinIdeas.Memoria.Replies

/-!
# Requests and answers fit together

A request arrives as the record that was sent, so an exchange is the answer of
`handle_client` and what the requester reads of it. A request that memoria can
answer is answered with as many bytes as the requester waits for; for any other
one memoria leaves the process table or its memory, or answers too little. After
a request that can change the partitions the summary has to fit its array too.
-/

namespace SinIdeas
namespace Memoria

open Lib Utils Cpu

variable (cfg : Config) (fs : List UInt8 → UInt32)

/-! ## One request arrives -/

section Arrival

variable {α : Type} {d : Decoder α} {w : α} {size : Nat} {campos : List (List UInt8)}
  {op : Utils.OpCode} {b : Buffer}

theorem ofInt_code (op : Utils.OpCode) :
    Utils.OpCode.ofInt (op.code.toNat : Int) = some op := by
  cases op <;> rfl

/-- A buffer with all its bytes is sent as the only value of a package. -/
theorem enviarBuffer_eq
    (hsize : b.size.toNat = b.stream.length) (hsmall : 12 + b.stream.length < 2 ^ 31) :
    enviarBuffer op (some b) = some (Envio.bytes { operationCode := op, values := [b.stream] }) := by
  have htamanio : Envio.tamanio { operationCode := op, values := [b.stream] } < 2 ^ 31 := by
    simp only [Envio.tamanio, List.map_cons, List.map_nil, List.sum_cons, List.sum_nil]
    omega
  rw [enviarBuffer, Option.bind_eq_bind, Option.bind_some, copiaDe_length hsize,
    Option.bind_eq_bind, Option.bind_some]
  exact Envio.enviar_eq htamanio

/-- The buffer of a serializer whose deserializer reads it back. -/
theorem buffer_llega
    (g : α → Solicitud)
    (hsize : campos.flatten.length = size) (hsmall : 12 + size < 2 ^ 31)
    (hd : Decodes d 0 campos.flatten w) :
    ∃ b visited, serializar size campos = some b ∧ b.size.toNat = b.stream.length ∧
      12 + b.stream.length < 2 ^ 31 ∧
      (do let v ← d; pure (g v) : Decoder Solicitud).run b.stream = some (g w, visited) := by
  obtain ⟨b, hb, hstream, hbsize⟩ := serializar_eq hsize (by omega)
  have hrun := hd.run []
  rw [List.append_nil] at hrun
  refine ⟨b, List.range campos.flatten.length, hb, ?_, ?_, ?_⟩
  · rw [hbsize, hstream, hsize]
  · rw [hstream, hsize]
    exact hsmall
  · rw [Decoder.run_map, hstream, hrun]
    rfl

end Arrival

/-- A thread whose path is a string with its length. -/
theorem tcb_llega
    {t : Utils.TcbEnviado} {ruta : List UInt8} (g : Utils.TcbEnviado → Solicitud)
    (hpath : t.filePath = some (ruta ++ [0]))
    (hlength : t.filePathLength.toNat = ruta.length + 1)
    (hsmall : 32 + t.filePathLength.toNat < 2 ^ 31) :
    ∃ b visited, serializeTcb t = some b ∧ b.size.toNat = b.stream.length ∧
      12 + b.stream.length < 2 ^ 31 ∧
      (do let v ← deserializeTcb; pure (g v) : Decoder Solicitud).run b.stream =
        some (g t, visited) := by
  have hlen : t.filePathLength.toNat = (t.filePath.getD []).length := by
    rw [hlength, hpath, Option.getD_some, List.length_append, List.length_singleton]
  have hpos : 0 < t.filePathLength := by
    rw [UInt32.lt_iff_toNat_lt, hlength]
    exact Nat.succ_pos _
  have hrecibido : t.recibido = t := by
    rw [TcbEnviado.recibido, if_pos hpos]
  have hd := decodes_tcb hlen
  rw [hrecibido] at hd
  have hsize : [encode32 t.tid, encode32 t.parentPid, encode32 t.priority, encode32 t.state.code,
      encode32 t.filePathLength, t.filePath.getD []].flatten.length =
        4 * 4 + 4 + t.filePathLength.toNat := by
    simp [hlen]
    omega
  have hcopy : serializeTcb t = serializar (4 * 4 + 4 + t.filePathLength.toNat)
      [encode32 t.tid, encode32 t.parentPid, encode32 t.priority, encode32 t.state.code,
        encode32 t.filePathLength, t.filePath.getD []] := by
    rw [serializeTcb, copiaDe_length hlen]
    rfl
  rw [hcopy]
  exact buffer_llega g hsize (by omega) hd

/-- The deserializer of `handle_client` gives back the record that was sent. -/
theorem solicitud_llega
    {p : Solicitud}
    (h : p.BienFormada) :
    ∃ d, deserializador p.operacion = some d ∧
      ∃ b visited, p.buffer = some b ∧ b.size.toNat = b.stream.length ∧
        12 + b.stream.length < 2 ^ 31 ∧ d.run b.stream = some (p, visited) := by
  cases p with
  | instructionRequest r =>
      exact ⟨_, rfl, buffer_llega .instructionRequest (by simp) (by decide)
        (decodes_instructionRequest r)⟩
  | executionContext r =>
      exact ⟨_, rfl, buffer_llega .executionContext (by simp) (by decide)
        (decodes_dispatchRequest r)⟩
  | executionContextUpdate c =>
      exact ⟨_, rfl, buffer_llega .executionContextUpdate (by simp) (by decide)
        (decodes_context c)⟩
  | readMemRequest r =>
      exact ⟨_, rfl, buffer_llega .readMemRequest (by simp) (by decide) (decodes_readMemRequest r)⟩
  | writeMemRequest r =>
      exact ⟨_, rfl, buffer_llega .writeMemRequest (by simp) (by decide)
        (decodes_writeMemRequest r)⟩
  | processCreate r =>
      exact ⟨_, rfl, buffer_llega .processCreate (by simp) (by decide) (decodes_pcbRequest r)⟩
  | processExit r =>
      exact ⟨_, rfl, buffer_llega .processExit (by simp) (by decide) (decodes_pcbRequest r)⟩
  | dumpMemory d =>
      exact ⟨_, rfl, buffer_llega .dumpMemory (by simp) (by decide) (decodes_dumpMemory d)⟩
  | threadCreate t =>
      obtain ⟨ruta, -, hpath, hlength, hsmall⟩ := h
      exact ⟨_, rfl, tcb_llega .threadCreate hpath hlength hsmall⟩
  | threadExit t =>
      obtain ⟨ruta, -, hpath, hlength, hsmall⟩ := h
      exact ⟨_, rfl, tcb_llega .threadExit hpath hlength hsmall⟩

/-- On a connection without unread bytes, an exchange is the answer to the request and
what the requester reads of it. -/
theorem intercambio_nuevo
    (g : Globals) {p : Solicitud}
    (h : p.BienFormada) :
    intercambio cfg fs p g Canal.nuevo =
      (do let (g, respuesta) ← atender cfg fs g p
          let solicitante ← p.recibe (Conexion.abierta respuesta)
          some (g, { memoria := Conexion.abierta [], solicitante })) := by
  obtain ⟨d, hd, b, visited, hb, hsize, hsmall, hrun⟩ := solicitud_llega h
  have hsent : p.bytes =
      some (Envio.bytes { operationCode := p.operacion, values := [b.stream] }) := by
    rw [Solicitud.bytes, hb]
    exact enviarBuffer_eq hsize hsmall
  obtain ⟨s, hcode, hpackage⟩ :=
    receive_envio (e := { operationCode := p.operacion, values := [b.stream] }) [] (by
      simp only [Envio.tamanio, List.map_cons, List.map_nil, List.sum_cons, List.sum_nil]
      omega)
  have harrived : Canal.nuevo.memoria.llegan
      (Envio.bytes { operationCode := p.operacion, values := [b.stream] }) =
        Conexion.abierta (Envio.bytes { operationCode := p.operacion, values := [b.stream] }) :=
    rfl
  rw [List.append_nil] at hcode
  have hanswer : atenderPaquete cfg fs g p.operacion b.stream = atender cfg fs g p := by
    rw [atenderPaquete, hd]
    simp only [hrun, Option.bind_eq_bind, Option.bind_some]
  rw [intercambio, hsent, Option.bind_eq_bind, Option.bind_some, harrived, hcode,
    Option.bind_eq_bind, Option.bind_some]
  simp only [hpackage, ofInt_code, List.getElem?_cons_zero, Option.bind_eq_bind,
    Option.bind_some, hanswer]
  rfl

/-! ## The requester reads an answer -/

section Answers

variable {q : Paquete} {bytes mensaje : List UInt8}

/-- A package is an operation code, a size and so many bytes. -/
theorem receiveMemoryResponse_of_send
    (h : sendPackage q = some bytes) :
    ∃ buffer, receiveMemoryResponse (Conexion.abierta bytes) =
      some (buffer, Conexion.abierta []) := by
  obtain ⟨stream, hlength, hsmall, -, rfl⟩ := sendPackage_cases h
  have hbuffer := receiveBuffer_eq (c := false) [] stream [] hlength.symm (by omega)
  rw [List.append_nil] at hbuffer
  refine ⟨stream, ?_⟩
  rw [receiveMemoryResponse, receiveOperationCode_eq, Option.bind_eq_bind, Option.bind_some]
  simp only [hbuffer, Option.bind_eq_bind, Option.bind_some, if_true]

/-- A lone operation code leaves the CPU waiting for a size. -/
theorem receiveMemoryResponse_code
    (op : Utils.OpCode) :
    receiveMemoryResponse (Conexion.abierta (enviarRespuestaAntePeticion op.code)) = none := by
  have hcode := receiveOperationCode_eq (c := false) op []
  rw [List.append_nil] at hcode
  rw [receiveMemoryResponse, enviarRespuestaAntePeticion, hcode, Option.bind_eq_bind,
    Option.bind_some]
  rfl

theorem waitForResponse_code
    (code : UInt32) :
    waitForResponse (Conexion.abierta (enviarRespuestaAntePeticion code)) =
      some (code, Conexion.abierta []) := by
  have hword := recv_word (c := false) code []
  rw [List.append_nil] at hword
  rw [waitForResponse, enviarRespuestaAntePeticion, hword]
  simp

/-- A string is sent when its size, a 32-bit word, leaves room for the package. -/
theorem sendInstruction_cases
    (h : sendInstruction mensaje = some bytes) :
    8 + (cadena mensaje).length % 2 ^ 32 < 2 ^ 31 ∧
      ∃ buffer, receiveMemoryResponse (Conexion.abierta bytes) =
        some (buffer, Conexion.abierta []) := by
  obtain ⟨stream, -, hsent⟩ := Option.bind_eq_some_iff.mp h
  obtain ⟨_, _, hsmall, _⟩ := sendPackage_cases hsent
  rw [UInt32.toNat_ofNat'] at hsmall
  exact ⟨hsmall, receiveMemoryResponse_of_send hsent⟩

theorem sendInstruction_isSome
    (h : 8 + (cadena mensaje).length % 2 ^ 32 < 2 ^ 31) :
    ∃ bytes, sendInstruction mensaje = some bytes := by
  have hword : (UInt32.ofNat (cadena mensaje).length).toNat = (cadena mensaje).length % 2 ^ 32 :=
    UInt32.toNat_ofNat'
  have hle : (cadena mensaje).length % 2 ^ 32 ≤ (cadena mensaje).length := Nat.mod_le _ _
  have hlength : ((cadena mensaje).take (UInt32.ofNat (cadena mensaje).length).toNat).length =
      (UInt32.ofNat (cadena mensaje).length).toNat := by
    rw [List.length_take, hword]
    omega
  rw [sendInstruction, copiaDe, if_pos (by rw [hword]; exact hle), Option.bind_eq_bind,
    Option.bind_some]
  exact ⟨_, sendPackage_eq hlength.symm (by rw [hlength, hword]; exact h)⟩

theorem sendExecutionContext_isSome
    (c : ExecutionContext) :
    ∃ bytes, sendExecutionContext c = some bytes := by
  have hlength : (serializeExecutionContext c).length = 60 := by
    simp [serializeExecutionContext]
  rw [sendExecutionContext, serializeContext_eq, Option.bind_eq_bind, Option.bind_some]
  exact ⟨_, sendPackage_eq hlength.symm (by rw [hlength]; decide)⟩

theorem sendReadMemData_isSome
    (dataValue : UInt32) :
    ∃ bytes, sendReadMemData dataValue = some bytes := by
  have hlength : (encode32 dataValue).length = 4 := length_encode32 dataValue
  have hword : (4 : UInt32).toNat = (encode32 dataValue).length := by
    rw [hlength]
    rfl
  have hsmall : 8 + (encode32 dataValue).length < 2 ^ 31 := by
    omega
  exact ⟨_, sendPackage_eq (p := { operationCode := .readMem, size := 4, stream := encode32 dataValue })
    hword hsmall⟩

theorem receive_executionContext
    {c : ExecutionContext}
    (h : sendExecutionContext c = some bytes) :
    ∃ buffer, receiveMemoryResponse (Conexion.abierta bytes) =
      some (buffer, Conexion.abierta []) := by
  rw [sendExecutionContext, serializeContext_eq, Option.bind_eq_bind, Option.bind_some] at h
  exact receiveMemoryResponse_of_send h

end Answers

/-! ## Dumps -/

section Dumps

variable {g : Globals} {pcb : MemPcb}

/-- A dump is sent when its data has as many bytes as its size says and the package
fits an `int`. -/
theorem sendDumpMemory_iff
    (v : Utils.DumpContext) :
    (∃ bytes, sendDumpMemory v = some bytes) ↔
      v.tamanioProceso.toNat ≤ v.datos.length ∧ 24 + v.tamanioProceso.toNat < 2 ^ 31 := by
  have hword : (4 + 4 + 4 + v.tamanioProceso).toNat = (12 + v.tamanioProceso.toNat) % 2 ^ 32 := by
    rw [UInt32.toNat_add]
    rfl
  constructor
  · rintro ⟨bytes, h⟩
    obtain ⟨buffer, hbuffer, h⟩ := Option.bind_eq_some_iff.mp h
    obtain ⟨value, hvalue, hsent⟩ := Option.bind_eq_some_iff.mp h
    obtain ⟨datos, hcopy, hserialized⟩ := Option.bind_eq_some_iff.mp hbuffer
    obtain ⟨b, hfilled, hb⟩ := Option.bind_eq_some_iff.mp hserialized
    obtain rfl := Option.some.inj hb
    have hlong : v.tamanioProceso.toNat ≤ v.datos.length := by
      by_contra hshort
      rw [copiaDe, if_neg hshort] at hcopy
      cases hcopy
    have hcabe : 12 + (12 + v.tamanioProceso.toNat) % 2 ^ 32 < 2 ^ 31 := by
      have hlength : value.length = (12 + v.tamanioProceso.toNat) % 2 ^ 32 := by
        rw [copiaDe] at hvalue
        split_ifs at hvalue with hle
        obtain rfl := Option.some.inj hvalue
        rw [List.length_take, Nat.min_eq_left hle, ← hword]
      have htamanio := tamanio_of_enviar hsent
      simpa [Envio.tamanio, hlength, ← Nat.add_assoc] using htamanio
    refine ⟨hlong, ?_⟩
    -- Past 2^32 the stream is too short for the three words before the data.
    by_contra hbig
    have htope := v.tamanioProceso.toNat_lt
    have hheader : [encode32 v.pid, encode32 v.tid, encode32 v.tamanioProceso].flatten.length = 12 := by
      simp
    have hnone := Block.copyAll_fresh_none (4 + 4 + 4 + v.tamanioProceso).toNat
      [encode32 v.pid, encode32 v.tid, encode32 v.tamanioProceso] [datos]
      (by rw [hheader, hword]; omega) (by rw [hheader]; decide)
    rw [List.cons_append, List.cons_append, List.cons_append, List.nil_append, hfilled] at hnone
    cases hnone
  · rintro ⟨hlong, hsmall⟩
    have hdatos : (v.datos.take v.tamanioProceso.toNat).length = v.tamanioProceso.toNat := by
      rw [List.length_take, Nat.min_eq_left hlong]
    have hfields : [encode32 v.pid, encode32 v.tid, encode32 v.tamanioProceso,
        v.datos.take v.tamanioProceso.toNat].flatten.length = 12 + v.tamanioProceso.toNat := by
      simp only [List.flatten_cons, List.flatten_nil, List.length_append, length_encode32, hdatos,
        List.length_nil]
      omega
    have hsize : (4 + 4 + 4 + v.tamanioProceso).toNat = 12 + v.tamanioProceso.toNat := by
      rw [hword]
      omega
    obtain ⟨b, hb, hcontent, -⟩ := Block.copyAll_fresh (4 + 4 + 4 + v.tamanioProceso).toNat
      [encode32 v.pid, encode32 v.tid, encode32 v.tamanioProceso,
        v.datos.take v.tamanioProceso.toNat] (by omega) (by omega)
    have hserialized : serializeDumpContext v =
        some { size := 4 + 4 + 4 + v.tamanioProceso, stream := b.content, escritos := b.written } := by
      rw [serializeDumpContext, copiaDe, if_pos hlong, Option.bind_eq_bind, Option.bind_some,
        serializarEn, hb]
      rfl
    rw [sendDumpMemory, hserialized]
    refine ⟨_, enviarBuffer_eq ?_ ?_⟩
    · simp only [hcontent, hfields, hsize]
    · simp only [hcontent, hfields]
      omega

/-- What `obtener_memoria_proceso` gives for a resident process. -/
theorem sendDump_iff_volcable
    {d : Utils.DumpMemory}
    (hpcb : buscarProcesoPorPid g d.pid = some pcb) :
    (∃ bytes, pedirDump g d = some bytes) ↔ Volcable g pcb := by
  have hpedir : ∀ datos, obtenerMemoriaProceso g d.pid = some datos →
      pedirDump g d = sendDumpMemory
        { pid := d.pid, tid := d.tid, tamanioProceso := pcb.size, datos := datos.getD [] } := by
    intro datos hdatos
    rw [pedirDump, hpcb, Option.bind_eq_bind, Option.bind_some, hdatos]
    rfl
  by_cases hexcede : pcb.size < pcb.limite - pcb.base
  · -- No data: a dump without bytes is the only one that is sent.
    have hdatos : obtenerMemoriaProceso g d.pid = some none := by
      simp only [obtenerMemoriaProceso, hpcb, if_pos hexcede]
    have hlt := UInt32.lt_iff_toNat_lt.mp hexcede
    rw [hpedir _ hdatos, sendDumpMemory_iff, Volcable]
    simp only [Option.getD_none, List.length_nil, Nat.le_zero]
    constructor
    · rintro ⟨hzero, hsmall⟩
      refine ⟨hsmall, Or.inr ⟨UInt32.toNat_inj.mp hzero, ?_⟩⟩
      rw [UInt32.lt_iff_toNat_lt]
      exact Nat.lt_of_le_of_lt (Nat.zero_le _) hlt
    · rintro ⟨hsmall, ⟨heq, -⟩ | ⟨hzero, -⟩⟩
      · rw [heq] at hlt
        exact absurd hlt (Nat.lt_irrefl _)
      · exact ⟨by rw [hzero]; rfl, hsmall⟩
  · have hle : (pcb.limite - pcb.base).toNat ≤ pcb.size.toNat := by
      rw [UInt32.lt_iff_toNat_lt] at hexcede
      omega
    have hnull : ¬ (pcb.size = 0 ∧ 0 < pcb.limite - pcb.base) := by
      rintro ⟨hzero, hpos⟩
      rw [hzero] at hexcede
      exact hexcede hpos
    by_cases hdentro : (pcb.base / 4).toNat * 4 + (pcb.limite - pcb.base).toNat ≤
        g.memoriaUsuario.length
    · have hdatos : obtenerMemoriaProceso g d.pid =
          some (some ((g.memoriaUsuario.drop ((pcb.base / 4).toNat * 4)).take
            (pcb.limite - pcb.base).toNat)) := by
        simp only [obtenerMemoriaProceso, hpcb, if_neg hexcede, if_pos hdentro]
      rw [hpedir _ hdatos, sendDumpMemory_iff, Volcable]
      simp only [Option.getD_some, List.length_take, List.length_drop, or_iff_left hnull]
      constructor
      · rintro ⟨hbytes, hsmall⟩
        have heq : (pcb.limite - pcb.base).toNat = pcb.size.toNat := by
          omega
        exact ⟨hsmall, UInt32.toNat_inj.mp heq, by omega⟩
      · rintro ⟨hsmall, heq, hmemory⟩
        rw [heq]
        exact ⟨by omega, hsmall⟩
    · have hdatos : obtenerMemoriaProceso g d.pid = none := by
        simp only [obtenerMemoriaProceso, hpcb, if_neg hexcede, if_neg hdentro]
      have hnone : pedirDump g d = none := by
        rw [pedirDump, hpcb, Option.bind_eq_bind, Option.bind_some, hdatos]
        rfl
      rw [hnone, Volcable, or_iff_left hnull]
      constructor
      · rintro ⟨bytes, h⟩
        cases h
      · rintro ⟨-, heq, hmemory⟩
        rw [heq] at hdentro
        exact absurd hmemory hdentro

end Dumps

/-! ## Every request -/

/-- The request is answered, and the requester reads all of the answer. -/
def Responde (g : Globals) (p : Solicitud) : Prop :=
  ∃ g' respuesta, atender cfg fs g p = some (g', respuesta) ∧
    p.recibe (Conexion.abierta respuesta) = some (Conexion.abierta [])

section Requests

variable {cfg fs} {g g' : Globals} {p : Solicitud} {q : Peticion} {r : Respuesta}
  {respuesta : List UInt8}

theorem responder_eq
    (h : handleClient cfg g q = some (g', r)) :
    responder cfg g q = (bytesDe q r).map (fun bytes => (g', bytes)) := by
  rw [responder, h, Option.bind_eq_bind, Option.bind_some, Option.bind_eq_bind,
    Option.map_eq_bind]
  rfl

/-- What the CPU reads when it is answered with a package. -/
theorem recibe_cpu
    (hp : p.DeCpu)
    (h : ∃ buffer, receiveMemoryResponse (Conexion.abierta respuesta) =
      some (buffer, Conexion.abierta [])) :
    p.recibe (Conexion.abierta respuesta) = some (Conexion.abierta []) := by
  obtain ⟨buffer, hread⟩ := h
  rw [Solicitud.recibe, if_pos hp, hread]
  rfl

/-- What the kernel reads of an operation code. -/
theorem recibe_kernel
    (hp : ¬ p.DeCpu) (code : UInt32) :
    p.recibe (Conexion.abierta (enviarRespuestaAntePeticion code)) =
      some (Conexion.abierta []) := by
  rw [Solicitud.recibe, if_neg hp, waitForResponse_code]
  rfl

/-- A request of the kernel that is answered `OK` or `ERROR`. -/
theorem responde_kernel
    (hp : ¬ p.DeCpu)
    (hatender : atender cfg fs g p = responder cfg g q)
    (exito : Bool) (hclient : handleClient cfg g q = some (g', Respuesta.de exito))
    (hbytes : ∀ exito, ∃ code, bytesDe q (Respuesta.de exito) =
      some (enviarRespuestaAntePeticion code)) :
    Responde cfg fs g p := by
  obtain ⟨code, hcode⟩ := hbytes exito
  refine ⟨g', enviarRespuestaAntePeticion code, ?_, recibe_kernel hp code⟩
  rw [hatender, responder_eq hclient, hcode]
  rfl

/-- The text "ok" for the CPU. -/
theorem responde_ok
    (hp : p.DeCpu)
    (hatender : atender cfg fs g p = responder cfg g q)
    (hclient : handleClient cfg g q = some (g', r))
    (hbytes : bytesDe q r = sendInstruction [111, 107]) :
    Responde cfg fs g p := by
  obtain ⟨bytes, hsent⟩ : ∃ bytes, sendInstruction [111, 107] = some bytes :=
    sendInstruction_isSome (by decide)
  refine ⟨g', bytes, ?_, recibe_cpu hp (sendInstruction_cases hsent).2⟩
  rw [hatender, responder_eq hclient, hbytes, hsent]
  rfl

theorem find_hilo_iff
    {proceso : MemPcb} {tid : UInt32} :
    (∃ hilo, proceso.threads.find? (fun hilo => hilo.tid == tid) = some hilo) ↔
      ∃ hilo ∈ proceso.threads, hilo.tid = tid := by
  rw [← Option.isSome_iff_exists, List.find?_isSome]
  simp only [beq_iff_eq]

/-- The registers of a thread are there when it is. -/
theorem obtenerRegistrosTcb_iff
    {pid tid : UInt32} :
    (∃ registros, obtenerRegistrosTcb g pid tid = some registros) ↔
      ∃ proceso, buscarProcesoPorPid g pid = some proceso ∧
        ∃ hilo ∈ proceso.threads, hilo.tid = tid := by
  constructor
  · rintro ⟨registros, h⟩
    obtain ⟨proceso, hproceso, h⟩ := Option.bind_eq_some_iff.mp h
    obtain ⟨hilo, hhilo, -⟩ := Option.bind_eq_some_iff.mp h
    exact ⟨proceso, hproceso, find_hilo_iff.mp ⟨hilo, hhilo⟩⟩
  · rintro ⟨proceso, hproceso, hhilos⟩
    obtain ⟨hilo, hhilo⟩ := find_hilo_iff.mpr hhilos
    refine ⟨registrosDe proceso hilo, ?_⟩
    rw [obtenerRegistrosTcb, hproceso, Option.bind_eq_bind, Option.bind_some, hhilo]
    rfl

theorem leerUint32_iff
    {posicion : UInt32} {buffer : List UInt8} :
    (∃ valor, leerUint32EnBuffer posicion buffer = some valor) ↔
      posicion.toNat + 4 ≤ buffer.length := by
  have hlength : (buffer.drop posicion.toNat).length = buffer.length - posicion.toNat :=
    List.length_drop
  rw [leerUint32EnBuffer, decode32]
  split
  · exact iff_of_true ⟨_, rfl⟩ (by omega)
  · exact iff_of_false (by simp) (by omega)

/-- The path of a thread that its sender can build. -/
theorem rutaDe_cadena
    (ruta : List UInt8) :
    ∃ filePath, rutaDe (some (ruta ++ [0])) = some filePath := by
  rw [rutaDe, if_pos (by simp)]
  exact ⟨_, rfl⟩

/-- What can be answered is answered in the framing of the requester. -/
theorem responde_of_atendible
    (hp : p.BienFormada) (h : Atendible cfg g p) :
    Responde cfg fs g p := by
  cases p with
  | instructionRequest r =>
      obtain ⟨linea, hlinea, hsmall⟩ := h
      obtain ⟨bytes, hsent⟩ := sendInstruction_isSome hsmall
      have hclient : handleClient cfg g (.instructionRequest r.pid r.tid r.pc) =
          some (g, .instruccion linea) := by
        simp only [handleClient, hlinea]
      refine ⟨g, bytes, ?_, recibe_cpu trivial (sendInstruction_cases hsent).2⟩
      have hbytes : bytesDe (.instructionRequest r.pid r.tid r.pc) (.instruccion linea) =
          some bytes := hsent
      rw [atender, responder_eq hclient, hbytes]
      rfl
  | executionContext r =>
      obtain ⟨registros, hregistros⟩ := obtenerRegistrosTcb_iff.mpr h
      obtain ⟨bytes, hsent⟩ := sendExecutionContext_isSome (contextoDe r.pid r.tid registros)
      have hclient : handleClient cfg g (.executionContext r.pid r.tid) =
          some (g, .contexto (contextoDe r.pid r.tid registros)) := by
        simp only [handleClient, hregistros, Option.bind_eq_bind, Option.bind_some]
      refine ⟨g, bytes, ?_, recibe_cpu trivial (receive_executionContext hsent)⟩
      have hbytes : bytesDe (.executionContext r.pid r.tid)
          (.contexto (contextoDe r.pid r.tid registros)) = some bytes := hsent
      rw [atender, responder_eq hclient, hbytes]
      rfl
  | executionContextUpdate c =>
      exact responde_ok trivial rfl rfl rfl
  | readMemRequest r =>
      obtain ⟨valor, hvalor⟩ := leerUint32_iff.mpr h
      obtain ⟨bytes, hsent⟩ := sendReadMemData_isSome valor
      have hclient : handleClient cfg g (.readMemRequest r.physicalAddress) =
          some (g, .dato valor) := by
        simp only [handleClient, hvalor, Option.bind_eq_bind, Option.bind_some]
      refine ⟨g, bytes, ?_, recibe_cpu trivial (receiveMemoryResponse_of_send hsent)⟩
      have hbytes : bytesDe (.readMemRequest r.physicalAddress) (.dato valor) = some bytes := hsent
      rw [atender, responder_eq hclient, hbytes]
      rfl
  | writeMemRequest r =>
      have hdentro : r.physicalAddress.toNat + 4 ≤ g.memoriaUsuario.length := h
      obtain ⟨g', hclient⟩ : ∃ g', handleClient cfg g
          (.writeMemRequest r.physicalAddress r.dataRegisterValue) = some (g', .ok) := by
        simp only [handleClient, escribirEnMemoria, Option.bind_eq_bind]
        rw [if_pos hdentro, Option.bind_some]
        exact ⟨_, rfl⟩
      exact responde_ok trivial rfl hclient rfl
  | processCreate r =>
      exact responde_kernel id rfl _ rfl (fun exito => by cases exito <;> exact ⟨_, rfl⟩)
  | processExit r =>
      exact responde_kernel id rfl true rfl (fun exito => by cases exito <;> exact ⟨_, rfl⟩)
  | threadExit t =>
      exact responde_kernel id rfl true rfl (fun exito => by cases exito <;> exact ⟨_, rfl⟩)
  | threadCreate t =>
      obtain ⟨ruta, -, hpath, -⟩ := hp
      obtain ⟨filePath, hfile⟩ := rutaDe_cadena ruta
      by_cases hproceso : (buscarProcesoPorPid g t.parentPid).isSome
      · have hatender : atender cfg fs g (.threadCreate t) =
            responder cfg g (.threadCreate t.parentPid t.tid filePath) := by
          rw [atender, if_pos hproceso, hpath, hfile]
          rfl
        exact responde_kernel id hatender _ rfl
          (fun exito => by cases exito <;> exact ⟨_, rfl⟩)
      · have hatender : atender cfg fs g (.threadCreate t) =
            responder cfg g (.threadCreate t.parentPid t.tid []) := by
          rw [atender, if_neg hproceso]
        exact responde_kernel id hatender _ rfl
          (fun exito => by cases exito <;> exact ⟨_, rfl⟩)
  | dumpMemory d =>
      obtain ⟨pcb, hpcb, hvolcable⟩ := h
      obtain ⟨paquete, hpaquete⟩ := (sendDump_iff_volcable hpcb).mpr hvolcable
      refine ⟨g, _, ?_, recibe_kernel id (fs paquete)⟩
      rw [atender, hpaquete]
      rfl

/-- Only what can be answered leaves nobody waiting. -/
theorem atendible_of_recibe
    {c : Conexion}
    (h : atender cfg fs g p = some (g', respuesta))
    (hread : p.recibe (Conexion.abierta respuesta) = some c) :
    Atendible cfg g p := by
  cases p with
  | instructionRequest r =>
      obtain ⟨⟨g₁, answer⟩, hclient, h⟩ := Option.bind_eq_some_iff.mp h
      obtain ⟨bytes, hbytes, h⟩ := Option.bind_eq_some_iff.mp h
      cases h
      simp only [handleClient] at hclient
      split at hclient
      · rename_i linea hlinea
        cases hclient
        exact ⟨linea, hlinea, (sendInstruction_cases hbytes).1⟩
      · -- The reply ERROR is shorter than what the CPU reads.
        cases hclient
        cases hbytes
        have hcpu : (Solicitud.instructionRequest r).DeCpu := trivial
        rw [Solicitud.recibe, if_pos hcpu, receiveMemoryResponse_code] at hread
        cases hread
  | executionContext r =>
      obtain ⟨⟨g₁, answer⟩, hclient, -⟩ := Option.bind_eq_some_iff.mp h
      obtain ⟨registros, hregistros, -⟩ := Option.bind_eq_some_iff.mp hclient
      exact obtenerRegistrosTcb_iff.mp ⟨registros, hregistros⟩
  | readMemRequest r =>
      obtain ⟨⟨g₁, answer⟩, hclient, -⟩ := Option.bind_eq_some_iff.mp h
      obtain ⟨valor, hvalor, -⟩ := Option.bind_eq_some_iff.mp hclient
      exact leerUint32_iff.mp ⟨valor, hvalor⟩
  | writeMemRequest r =>
      obtain ⟨⟨g₁, answer⟩, hclient, -⟩ := Option.bind_eq_some_iff.mp h
      obtain ⟨buffer, hbuffer, -⟩ := Option.bind_eq_some_iff.mp hclient
      rw [escribirEnMemoria] at hbuffer
      split at hbuffer
      · rename_i hdentro
        exact hdentro
      · cases hbuffer
  | dumpMemory d =>
      obtain ⟨paquete, hpaquete, -⟩ := Option.bind_eq_some_iff.mp h
      obtain ⟨pcb, hpcb, -⟩ := Option.bind_eq_some_iff.mp hpaquete
      exact ⟨pcb, hpcb, (sendDump_iff_volcable hpcb).mp ⟨paquete, hpaquete⟩⟩
  | executionContextUpdate c => trivial
  | processCreate r => trivial
  | processExit r => trivial
  | threadCreate t => trivial
  | threadExit t => trivial

end Requests

/-! ## Whole sessions -/

section Sessions

variable {cfg fs} {s s' : Sesion} {p : Solicitud}

/-- A case ends when the summary that it prints fits. -/
theorem resumir_eq_some_iff
    {g g' : Globals} :
    resumir p g = some g' ↔ (p.resume = true → ResumenBreve g.partitionList) ∧ g = g' := by
  unfold resumir
  split_ifs with hresume
  · rw [← printPartitionsSummary_isSome_iff]
    simp [hresume, Option.bind_eq_some_iff]
  · simp [hresume]

/-- What an exchange on a clean connection leaves is what the answer left. -/
theorem atender_of_intercambio
    {g g' : Globals} {k : Canal}
    (hp : p.BienFormada) (h : intercambio cfg fs p g Canal.nuevo = some (g', k)) :
    ∃ respuesta, atender cfg fs g p = some (g', respuesta) := by
  rw [intercambio_nuevo cfg fs g hp] at h
  obtain ⟨⟨g₁, respuesta⟩, hatender, h⟩ := Option.bind_eq_some_iff.mp h
  obtain ⟨c, -, h⟩ := Option.bind_eq_some_iff.mp h
  cases h
  exact ⟨respuesta, hatender⟩

/-- After an exchange the case ends exactly when its summary fits. -/
theorem resumir_of_intercambio
    {g g' : Globals} {k : Canal}
    (hp : p.BienFormada) (h : intercambio cfg fs p g Canal.nuevo = some (g', k)) :
    resumir p g' = some g' ↔ Resumible cfg fs g p := by
  obtain ⟨respuesta, hatender⟩ := atender_of_intercambio hp h
  rw [resumir_eq_some_iff]
  constructor
  · rintro ⟨hbreve, -⟩ hresume g₁ respuesta₁ hsame
    rw [hatender] at hsame
    cases hsame
    exact hbreve hresume
  · exact fun h => ⟨fun hresume => h hresume g' respuesta hatender, rfl⟩

/-- An exchange on a clean connection goes through exactly when the request can be
answered, and leaves the connection clean. -/
theorem intercambio_of_atendible
    {g : Globals} (fs : List UInt8 → UInt32)
    (hp : p.BienFormada) (h : Atendible cfg g p) :
    ∃ g', intercambio cfg fs p g Canal.nuevo = some (g', Canal.nuevo) := by
  obtain ⟨g', respuesta, hatender, hread⟩ : Responde cfg fs g p := responde_of_atendible hp h
  refine ⟨g', ?_⟩
  rw [intercambio_nuevo cfg fs g hp, hatender, Option.bind_eq_bind, Option.bind_some]
  show (p.recibe (Conexion.abierta respuesta) >>= _) = _
  rw [hread]
  rfl

theorem atendible_of_intercambio
    {g g' : Globals} {k : Canal}
    (hp : p.BienFormada) (h : intercambio cfg fs p g Canal.nuevo = some (g', k)) :
    Atendible cfg g p := by
  rw [intercambio_nuevo cfg fs g hp] at h
  obtain ⟨⟨g₁, respuesta⟩, hatender, h⟩ := Option.bind_eq_some_iff.mp h
  obtain ⟨c, hread, -⟩ := Option.bind_eq_some_iff.mp h
  exact atendible_of_recibe hatender hread

theorem turno_of_atendible
    (fs : List UInt8 → UInt32)
    (hs : s.Limpia) (hp : p.BienFormada) (h : Atendible cfg s.globals p)
    (hresumible : Resumible cfg fs s.globals p) :
    ∃ s', turno cfg fs s p = some s' ∧ s'.Limpia := by
  obtain ⟨g', hexchange⟩ := intercambio_of_atendible fs hp h
  have hresumen := (resumir_of_intercambio hp hexchange).mpr hresumible
  by_cases hcpu : p.DeCpu
  · refine ⟨{ s with globals := g', cpu := Canal.nuevo }, ?_, rfl, hs.2⟩
    rw [turno, if_pos hcpu, hs.1, hexchange, Option.bind_eq_bind, Option.bind_some]
    simp only [hresumen, Option.bind_eq_bind, Option.bind_some]
  · refine ⟨{ s with globals := g', kernel := s.kernel ++ [Canal.nuevo] }, ?_, hs.1, ?_⟩
    · rw [turno, if_neg hcpu, hexchange, Option.bind_eq_bind, Option.bind_some]
      simp only [hresumen, Option.bind_eq_bind, Option.bind_some]
    · intro k hk
      rw [List.mem_append, List.mem_singleton] at hk
      rcases hk with hk | rfl
      · exact hs.2 k hk
      · rfl

/-- A turn that goes through is an exchange and the end of its case. -/
theorem turno_cases
    (hs : s.Limpia) (h : turno cfg fs s p = some s') :
    ∃ g' k, intercambio cfg fs p s.globals Canal.nuevo = some (g', k) ∧
      resumir p g' = some g' := by
  rw [turno] at h
  split_ifs at h with hcpu
  · rw [hs.1] at h
    obtain ⟨⟨g', k⟩, hexchange, h⟩ := Option.bind_eq_some_iff.mp h
    obtain ⟨g₁, hresumen, -⟩ := Option.bind_eq_some_iff.mp h
    obtain ⟨hbreve, rfl⟩ := resumir_eq_some_iff.mp hresumen
    exact ⟨g', k, hexchange, hresumen⟩
  · obtain ⟨⟨g', k⟩, hexchange, h⟩ := Option.bind_eq_some_iff.mp h
    obtain ⟨g₁, hresumen, -⟩ := Option.bind_eq_some_iff.mp h
    obtain ⟨hbreve, rfl⟩ := resumir_eq_some_iff.mp hresumen
    exact ⟨g', k, hexchange, hresumen⟩

theorem atendible_of_turno
    (hs : s.Limpia) (hp : p.BienFormada) (h : turno cfg fs s p = some s') :
    Atendible cfg s.globals p ∧ Resumible cfg fs s.globals p := by
  obtain ⟨g', k, hexchange, hresumen⟩ := turno_cases hs h
  exact ⟨atendible_of_intercambio hp hexchange, (resumir_of_intercambio hp hexchange).mp hresumen⟩

theorem execute_iff_guarded
    (ps : List Solicitud) (hs : s.Limpia) (hps : ∀ p ∈ ps, p.BienFormada) :
    (∃ s', execute (turno cfg fs) s ps = some s' ∧ s'.Limpia) ↔
      guarded (turno cfg fs) (fun s p => Atendible cfg s.globals p ∧ Resumible cfg fs s.globals p)
        s ps := by
  induction ps generalizing s with
  | nil =>
      exact iff_of_true ⟨s, rfl, hs⟩ trivial
  | cons p ps ih =>
      have hp := hps p (by simp)
      have hrest : ∀ q ∈ ps, q.BienFormada := fun q hq => hps q (by simp [hq])
      constructor
      · rintro ⟨s', hexec, hclean⟩
        cases hturno : turno cfg fs s p with
        | none =>
            simp [execute, hturno] at hexec
        | some s₁ =>
            have hatendible := atendible_of_turno hs hp hturno
            obtain ⟨s₂, hsame, hclean₁⟩ :=
              turno_of_atendible fs hs hp hatendible.1 hatendible.2
            obtain rfl : s₁ = s₂ := Option.some.inj (hturno.symm.trans hsame)
            simp only [execute, hturno] at hexec
            simp only [guarded, hturno]
            exact ⟨hatendible, (ih hclean₁ hrest).mp ⟨s', hexec, hclean⟩⟩
      · rintro ⟨hatendible, hguarded⟩
        obtain ⟨s₁, hturno, hclean₁⟩ :=
          turno_of_atendible fs hs hp hatendible.1 hatendible.2
        simp only [hturno] at hguarded
        simp only [execute, hturno]
        exact (ih hclean₁ hrest).mpr hguarded

end Sessions

/-- Which sequences of requests are answered one by one in the framing that the
requester reads, with nothing unread on any connection: those in which every request
can be answered in the state it finds and leaves partitions whose summary fits. -/
theorem memoria_answers_in_frame_iff
    (g : Globals) (ps : List Solicitud)
    (h : ∀ p ∈ ps, p.BienFormada) :
    (∃ s, execute (turno cfg fs) (Sesion.inicio g) ps = some s ∧ s.Limpia) ↔
      guarded (turno cfg fs) (fun s p => Atendible cfg s.globals p ∧ Resumible cfg fs s.globals p)
        (Sesion.inicio g) ps := by
  have hstart : (Sesion.inicio g).Limpia := ⟨rfl, by simp [Sesion.inicio]⟩
  exact execute_iff_guarded ps hstart h

/-- A process of eight bytes whose only thread runs a script of one line. -/
def unProceso : Globals :=
  { memoryProcessList :=
      [{ pid := 1, base := 0, limite := 8, size := 8, regs := initRegisters
         threads := [{ tid := 0, regs := initRegisters, filePath := ['a'] }] }]
    partitionList := [{ pid := 1, base := 0, limite := 8, size := 8, isFree := false }]
    memoriaUsuario := List.replicate 8 0 }

/-- The configuration that goes with it. -/
def configUnaLinea : Config :=
  { esquema := .fijas, algoritmoBusqueda := .first, tamMemoria := 8, particiones := [8]
    scripts := fun ruta => if ruta = ['a'] then some [['L', 'O', 'G', ' ', 'A', 'X']] else none
    listSort := fun _ l => l }

/-- The context of the thread, its line and a dump are answered, and then the process is
ended. -/
theorem memoria_answers_in_frame_iff_cuatro :
    (∃ s, execute (turno configUnaLinea (fun _ => 0)) (Sesion.inicio unProceso)
        [.executionContext ⟨0, 1⟩, .instructionRequest ⟨0, 1, 0⟩, .dumpMemory ⟨1, 0⟩,
          .processExit ⟨1, 8⟩] = some s ∧ s.Limpia) ∧
      guarded (turno configUnaLinea (fun _ => 0))
        (fun s p => Atendible configUnaLinea s.globals p ∧
          Resumible configUnaLinea (fun _ => 0) s.globals p)
        (Sesion.inicio unProceso)
        [.executionContext ⟨0, 1⟩, .instructionRequest ⟨0, 1, 0⟩, .dumpMemory ⟨1, 0⟩,
          .processExit ⟨1, 8⟩] := by
  have hclean : ∃ s, execute (turno configUnaLinea (fun _ => 0)) (Sesion.inicio unProceso)
      [.executionContext ⟨0, 1⟩, .instructionRequest ⟨0, 1, 0⟩, .dumpMemory ⟨1, 0⟩,
        .processExit ⟨1, 8⟩] = some s ∧ s.Limpia :=
    ⟨_, (Option.some_get (by decide +kernel)).symm, ⟨by decide +kernel, by decide +kernel⟩⟩
  exact ⟨hclean, (memoria_answers_in_frame_iff configUnaLinea (fun _ => 0) unProceso _
    (by simp [Solicitud.BienFormada])).mp hclean⟩

/-- After the last line of the script the CPU is left waiting for a size. -/
theorem past_the_script_is_answered_short :
    ¬ ∃ s, execute (turno configUnaLinea (fun _ => 0)) (Sesion.inicio unProceso)
        [.instructionRequest ⟨0, 1, 1⟩] = some s ∧ s.Limpia := by
  have hstart : (Sesion.inicio unProceso).Limpia := ⟨rfl, by simp [Sesion.inicio]⟩
  rw [execute_iff_guarded _ hstart (by simp [Solicitud.BienFormada])]
  rintro ⟨⟨⟨linea, hlinea, -⟩, -⟩, -⟩
  have hnone : obtenerLineaPseudocodigo configUnaLinea unProceso 1 0 1 = none := by
    decide
  exact absurd hlinea (by rw [show (Sesion.inicio unProceso).globals = unProceso from rfl, hnone]; simp)

end Memoria
end SinIdeas
