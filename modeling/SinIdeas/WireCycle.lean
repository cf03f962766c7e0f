import SinIdeas.Cpu.Ports
import SinIdeas.Memoria.Framing

/-!
# The instruction cycle over the wire

The port of the CPU as it really is: every request is a package on the connection with
memoria, `handle_client` receives it, deserializes it and answers with bytes, and the
CPU reads an operation code, a size and a payload and takes its value from there.
-/

namespace SinIdeas

open Lib Utils Memoria Cpu

/-- Memoria and the connection that the CPU has with it. -/
structure Enlace where
  globals : Globals
  canal : Canal

/-- No bytes on the way. -/
def Enlace.limpio (g : Globals) : Enlace where
  globals := g
  canal := Canal.nuevo

/-- The record that the CPU sends for a request. What the request does not say, the thread
of an access to the user memory and the state and the size in a context, is taken from the
context `c`. -/
def solicitudDe (c : ExecutionContext) : Peticion → Option Solicitud
  | .instructionRequest pid tid pc => some (.instructionRequest { tid, pid, pc })
  | .executionContext pid tid => some (.executionContext { tid, pid })
  | .executionContextUpdate pid tid registers =>
      some (.executionContextUpdate { c with tid, pid, registers })
  | .readMemRequest physicalAddress =>
      some (.readMemRequest { tid := c.tid, pid := c.pid, physicalAddress })
  | .writeMemRequest physicalAddress dataRegisterValue =>
      some (.writeMemRequest { tid := c.tid, pid := c.pid, physicalAddress, dataRegisterValue })
  | _ => none

/-- A received string; `none` for one without an end. -/
def textoDe (buffer : List UInt8) : Option (List Char) :=
  rutaDe (some buffer)

/-- What the CPU takes from the payload: `receive_instruction`, `receive_execution_context`
and `receive_read_mem_data`. The text of the other answers is only logged. -/
def leerRespuesta (p : Peticion) (buffer : List UInt8) : Option Respuesta :=
  match p with
  | .instructionRequest .. => (textoDe buffer).map .instruccion
  | .executionContext .. => (deserializeContext.run buffer).map (fun x => .contexto x.1)
  | .readMemRequest _ => (decode32 buffer).map .dato
  | _ => some .ok

/-- A request of the CPU through its connection; `none` while one of the two sides waits
for bytes that were not sent. -/
def pedirPorRed
    (cfg : Config) (fs : List UInt8 → UInt32) (c : ExecutionContext) (e : Enlace) (p : Peticion) :
    Option (Enlace × Respuesta) := do
  let solicitud ← solicitudDe c p
  let pedido ← solicitud.bytes
  let (codOp, s) ← receiveOperationCode (e.canal.memoria.llegan pedido)
  let (lista, s) ← receivePackage s
  let op ← Utils.OpCode.ofInt codOp
  let buffer ← lista[0]?
  let (g, respuesta) ← atenderPaquete cfg fs e.globals op buffer
  let (contenido, solicitante) ← receiveMemoryResponse (e.canal.solicitante.llegan respuesta)
  let r ← leerRespuesta p contenido
  some ({ globals := g, canal := { memoria := s, solicitante } }, r)

/-- Scripts are text: no NUL, one byte for each character, and lines that fit in a
package. -/
def Legible (cfg : Config) : Prop :=
  ∀ path lineas, cfg.scripts path = some lineas → ∀ linea ∈ lineas,
    (∀ ch ∈ linea, 0 < ch.toNat ∧ ch.toNat < 256) ∧ 9 + linea.length < 2 ^ 31

section Requests

variable {cfg : Config} {fs : List UInt8 → UInt32} {c : ExecutionContext}

/-- The CPU sends well-formed records, and memoria answers the request that they are. -/
theorem atender_solicitudDe
    (cfg : Config) (fs : List UInt8 → UInt32) (g : Globals)
    {p : Peticion} {solicitud : Solicitud}
    (h : solicitudDe c p = some solicitud) :
    solicitud.BienFormada ∧ atender cfg fs g solicitud = responder cfg g p := by
  cases p <;> simp only [solicitudDe, Option.some.injEq, reduceCtorEq] at h <;>
    exact h ▸ ⟨trivial, rfl⟩

/-- On a clean connection a request is the answer of `handle_client` and what the CPU
reads of it. -/
theorem pedirPorRed_limpio
    {p : Peticion} {solicitud : Solicitud}
    (hsolicitud : solicitudDe c p = some solicitud)
    (g : Globals) :
    pedirPorRed cfg fs c (Enlace.limpio g) p =
      (do let (g', respuesta) ← responder cfg g p
          let (contenido, solicitante) ← receiveMemoryResponse (Conexion.abierta respuesta)
          let r ← leerRespuesta p contenido
          some ({ globals := g', canal := { memoria := Conexion.abierta [], solicitante } }, r)) := by
  obtain ⟨hp, hatender⟩ := atender_solicitudDe cfg fs g hsolicitud
  obtain ⟨d, hd, b, visited, hb, hsize, hsmall, hrun⟩ := solicitud_llega hp
  have hsent : solicitud.bytes =
      some (Envio.bytes { operationCode := solicitud.operacion, values := [b.stream] }) := by
    rw [Solicitud.bytes, hb]
    exact enviarBuffer_eq hsize hsmall
  obtain ⟨s, hcode, hpackage⟩ :=
    receive_envio (e := { operationCode := solicitud.operacion, values := [b.stream] }) [] (by
      simp only [Envio.tamanio, List.map_cons, List.map_nil, List.sum_cons, List.sum_nil]
      omega)
  have harrived : Canal.nuevo.memoria.llegan
      (Envio.bytes { operationCode := solicitud.operacion, values := [b.stream] }) =
        Conexion.abierta
          (Envio.bytes { operationCode := solicitud.operacion, values := [b.stream] }) :=
    rfl
  rw [List.append_nil] at hcode
  have hanswer : atenderPaquete cfg fs g solicitud.operacion b.stream =
      responder cfg g p := by
    rw [atenderPaquete, hd]
    simp only [hrun, Option.bind_eq_bind, Option.bind_some, hatender]
  rw [pedirPorRed, hsolicitud, Option.bind_eq_bind, Option.bind_some, hsent, Option.bind_eq_bind,
    Option.bind_some, Enlace.limpio, harrived, hcode, Option.bind_eq_bind, Option.bind_some]
  simp only [hpackage, ofInt_code, List.getElem?_cons_zero, Option.bind_eq_bind,
    Option.bind_some, hanswer]
  rfl

/-- The CPU reads the payload of a package. -/
theorem receiveMemoryResponse_eq
    {q : Paquete}
    (hsize : q.size.toNat = q.stream.length)
    (hsmall : 8 + q.stream.length < 2 ^ 31) :
    ∃ bytes, sendPackage q = some bytes ∧
      receiveMemoryResponse (Conexion.abierta bytes) = some (q.stream, Conexion.abierta []) := by
  refine ⟨_, sendPackage_eq hsize hsmall, ?_⟩
  have hbuffer := receiveBuffer_eq (c := false) [] q.stream [] hsize (by omega)
  rw [List.append_nil] at hbuffer
  rw [receiveMemoryResponse, receiveOperationCode_eq, Option.bind_eq_bind, Option.bind_some]
  simp only [hbuffer, Option.bind_eq_bind, Option.bind_some, if_true]

/-- A string without NUL is received as it was sent. -/
theorem sendInstruction_llega
    (mensaje : List UInt8)
    (hnul : ∀ b ∈ mensaje, b ≠ 0)
    (hsmall : 9 + mensaje.length < 2 ^ 31) :
    ∃ bytes, sendInstruction mensaje = some bytes ∧
      receiveMemoryResponse (Conexion.abierta bytes) =
        some (mensaje ++ [0], Conexion.abierta []) := by
  have hcadena : cadena mensaje = mensaje ++ [0] := by
    rw [cadena, List.takeWhile_eq_self_iff.mpr]
    intro b hb
    simpa using hnul b hb
  have hlen : (mensaje ++ [(0 : UInt8)]).length = mensaje.length + 1 := by
    simp
  have hsize : (UInt32.ofNat (mensaje ++ [(0 : UInt8)]).length).toNat =
      (mensaje ++ [(0 : UInt8)]).length := by
    rw [hlen]
    exact UInt32.toNat_ofNat_of_lt' (by simp only [UInt32.size]; omega)
  rw [sendInstruction, hcadena, copiaDe_length hsize, Option.bind_eq_bind, Option.bind_some]
  exact receiveMemoryResponse_eq hsize (by simp only [hlen]; omega)

theorem serializeExecutionContext_flatten (c : ExecutionContext) :
    serializeExecutionContext c =
      [encode32 c.tid, encode32 c.pid, encode32 c.estado.code, encode32 c.tamanioProceso,
        c.registers.bytes].flatten := by
  simp [serializeExecutionContext]

/-- A context arrives as it is. -/
theorem sendExecutionContext_llega (c : ExecutionContext) :
    ∃ bytes, sendExecutionContext c = some bytes ∧
      receiveMemoryResponse (Conexion.abierta bytes) =
        some (serializeExecutionContext c, Conexion.abierta []) := by
  have hlen : (serializeExecutionContext c).length = 60 := by
    simp [serializeExecutionContext]
  rw [sendExecutionContext, serializeContext_eq, Option.bind_eq_bind, Option.bind_some]
  exact receiveMemoryResponse_eq
    (q := { operationCode := .executionContext, size := 60, stream := serializeExecutionContext c })
    hlen.symm (by simp only [hlen]; omega)

/-- A line arrives as it is. -/
theorem textoDe_charBytes
    {linea : List Char}
    (h : ∀ ch ∈ linea, 0 < ch.toNat ∧ ch.toNat < 256) :
    (∀ b ∈ charBytes linea, b ≠ 0) ∧ textoDe (charBytes linea ++ [0]) = some linea := by
  have hbyte : ∀ ch ∈ linea, (UInt8.ofNat ch.toNat).toNat = ch.toNat := by
    intro ch hch
    rw [UInt8.toNat_ofNat']
    exact Nat.mod_eq_of_lt (h ch hch).2
  have hnul : ∀ b ∈ charBytes linea, b ≠ 0 := by
    intro b hb
    obtain ⟨ch, hch, rfl⟩ := List.mem_map.mp hb
    rw [ne_eq, ← UInt8.toNat_inj, hbyte ch hch]
    exact (h ch hch).1.ne'
  refine ⟨hnul, ?_⟩
  have htake : (charBytes linea ++ [(0 : UInt8)]).takeWhile (fun b => b != 0) =
      charBytes linea := by
    rw [List.takeWhile_append_of_pos (fun b hb => by simpa using hnul b hb)]
    simp
  rw [textoDe, rutaDe, if_pos (by simp), htake, charBytes, List.map_map]
  refine congrArg some ((List.map_congr_left (fun ch hch => ?_)).trans (List.map_id linea))
  rw [Function.comp_apply, hbyte ch hch, Char.ofNat_toNat]
  rfl

/-- What the CPU gets when `handle_client` has answered: the same answer, if it can read
it. -/
theorem pedirPorRed_responde
    {p : Peticion} {solicitud : Solicitud} {g g' : Globals} {r r' : Respuesta}
    {bytes contenido : List UInt8}
    (hsolicitud : solicitudDe c p = some solicitud)
    (hclient : handleClient cfg g p = some (g', r))
    (hbytes : bytesDe p r = some bytes)
    (hreceive : receiveMemoryResponse (Conexion.abierta bytes) =
      some (contenido, Conexion.abierta []))
    (hleer : leerRespuesta p contenido = some r') :
    pedirPorRed cfg fs c (Enlace.limpio g) p = some (Enlace.limpio g', r') := by
  rw [pedirPorRed_limpio hsolicitud, responder_eq hclient, hbytes, Option.map_some,
    Option.bind_eq_bind, Option.bind_some]
  simp only [hreceive, hleer, Option.bind_eq_bind, Option.bind_some]
  rfl

theorem pedirPorRed_none
    {p : Peticion} {solicitud : Solicitud} {g : Globals}
    (hsolicitud : solicitudDe c p = some solicitud)
    (hclient : handleClient cfg g p = none) :
    pedirPorRed cfg fs c (Enlace.limpio g) p = none := by
  rw [pedirPorRed_limpio hsolicitud, responder, hclient]
  rfl

/-- The connection answers as `handle_client` does. -/
theorem respondenIgual_red
    (fs : List UInt8 → UInt32) (c : ExecutionContext)
    (hlegible : Legible cfg) :
    RespondenIgual (handleClient cfg) (pedirPorRed cfg fs c) Enlace.limpio := by
  intro g p hcpu
  cases p with
  | instructionRequest pid tid pc =>
      cases hlinea : obtenerLineaPseudocodigo cfg g pid tid pc with
      | none =>
          -- the reply ERROR is shorter than what the CPU reads
          have hclient : handleClient cfg g (.instructionRequest pid tid pc) = some (g, .error) := by
            simp only [handleClient, hlinea]
          rw [pedirPorRed_limpio (p := .instructionRequest pid tid pc) rfl, responder_eq hclient,
            hclient]
          have hbytes : bytesDe (.instructionRequest pid tid pc) .error =
              some (enviarRespuestaAntePeticion Utils.OpCode.error.code) := rfl
          rw [hbytes, Option.map_some, Option.bind_eq_bind, Option.bind_some]
          simp only [receiveMemoryResponse_code, Option.bind_eq_bind, Option.bind_none,
            Option.bind_some]
          rfl
      | some linea =>
          have hclient : handleClient cfg g (.instructionRequest pid tid pc) =
              some (g, .instruccion linea) := by
            simp only [handleClient, hlinea]
          simp only [obtenerLineaPseudocodigo, Option.bind_eq_bind, Option.bind_eq_some_iff]
            at hlinea
          obtain ⟨_, -, hilo, -, lineas, hscript, hget⟩ := hlinea
          obtain ⟨hchars, hlen⟩ := hlegible _ _ hscript linea (List.mem_of_getElem? hget)
          obtain ⟨hnul, htexto⟩ := textoDe_charBytes hchars
          obtain ⟨bytes, hsent, hreceive⟩ := sendInstruction_llega _ hnul
            (by rw [charBytes, List.length_map]; exact hlen)
          have hleer : leerRespuesta (.instructionRequest pid tid pc) (charBytes linea ++ [0]) =
              some (.instruccion linea) := by
            rw [leerRespuesta, htexto]
            rfl
          rw [pedirPorRed_responde rfl hclient hsent hreceive hleer, hclient]
          rfl
  | executionContext pid tid =>
      cases hr : obtenerRegistrosTcb g pid tid with
      | none =>
          have hclient : handleClient cfg g (.executionContext pid tid) = none := by
            simp [handleClient, hr]
          rw [pedirPorRed_none rfl hclient, hclient]
          rfl
      | some r =>
          have hclient : handleClient cfg g (.executionContext pid tid) =
              some (g, .contexto (contextoDe pid tid r)) := by
            simp [handleClient, hr]
          obtain ⟨bytes, hsent, hreceive⟩ := sendExecutionContext_llega (contextoDe pid tid r)
          have hleer : leerRespuesta (.executionContext pid tid)
              (serializeExecutionContext (contextoDe pid tid r)) =
                some (.contexto (contextoDe pid tid r)) := by
            have hrun := (decodes_context (contextoDe pid tid r)).run []
            rw [List.append_nil] at hrun
            have hflat : serializeExecutionContext (contextoDe pid tid r) = _ :=
              serializeExecutionContext_flatten _
            rw [leerRespuesta, hflat, hrun]
            rfl
          rw [pedirPorRed_responde rfl hclient hsent hreceive hleer, hclient]
          rfl
  | executionContextUpdate pid tid r =>
      obtain ⟨bytes, hsent, hreceive⟩ := sendInstruction_llega [111, 107]
        (by simp) (by simp)
      have hclient : handleClient cfg g (.executionContextUpdate pid tid r) =
          some (actualizarRegistros g pid tid r, .ok) := rfl
      rw [pedirPorRed_responde rfl hclient hsent hreceive rfl, hclient]
      rfl
  | readMemRequest a =>
      cases hvalor : leerUint32EnBuffer a g.memoriaUsuario with
      | none =>
          have hclient : handleClient cfg g (.readMemRequest a) = none := by
            simp [handleClient, hvalor]
          rw [pedirPorRed_none rfl hclient, hclient]
          rfl
      | some valor =>
          have hclient : handleClient cfg g (.readMemRequest a) = some (g, .dato valor) := by
            simp [handleClient, hvalor]
          obtain ⟨bytes, hsent, hreceive⟩ := receiveMemoryResponse_eq
            (q := { operationCode := .readMem, size := 4, stream := encode32 valor })
            (by rw [length_encode32]; rfl) (by rw [length_encode32]; decide)
          have hleer : leerRespuesta (.readMemRequest a) (encode32 valor) = some (.dato valor) := by
            have hword := decode32_encode32 valor []
            rw [List.append_nil] at hword
            rw [leerRespuesta, hword]
            rfl
          rw [pedirPorRed_responde rfl hclient hsent hreceive hleer, hclient]
          rfl
  | writeMemRequest a v =>
      cases hbuffer : escribirEnMemoria v g.memoriaUsuario a with
      | none =>
          have hclient : handleClient cfg g (.writeMemRequest a v) = none := by
            simp [handleClient, hbuffer]
          rw [pedirPorRed_none rfl hclient, hclient]
          rfl
      | some buffer =>
          have hclient : handleClient cfg g (.writeMemRequest a v) =
              some ({ g with memoriaUsuario := buffer }, .ok) := by
            simp [handleClient, hbuffer]
          obtain ⟨bytes, hsent, hreceive⟩ := sendInstruction_llega [111, 107]
            (by simp) (by simp)
          rw [pedirPorRed_responde rfl hclient hsent hreceive rfl, hclient]
          rfl
  | processCreate pid size => cases hcpu
  | processExit pid => cases hcpu
  | threadCreate pid tid filePath => cases hcpu
  | threadExit pid tid => cases hcpu

end Requests

/-- What memoria is asked for in turn: a dispatch makes the CPU ask, until it has given
the thread back, and the kernel asks on a connection of its own. -/
inductive Pedido where
  | dispatch (pid tid : UInt32) (flags : List Bool)
  | kernel (p : Solicitud)
  deriving DecidableEq

/-- A turn over the wire; `none` while somebody waits. -/
def turnoPorRed
    (cfg : Config) (fs : List UInt8 → UInt32) (c : ExecutionContext) (s : Conexiones Enlace) :
    Pedido → Option (Conexiones Enlace)
  | .dispatch pid tid flags => do
      let (s, c') ← atenderDispatch (pedirPorRed cfg fs c) flags pid tid s
      if c'.isNone then some s else none
  | .kernel p => do
      let (g, k) ← intercambio cfg fs p s.memoria.globals Canal.nuevo
      if k = Canal.nuevo then some { s with memoria := { s.memoria with globals := g } } else none

/-- The same turn when memoria is called. -/
def turnoDirecto (cfg : Config) (fs : List UInt8 → UInt32) (s : Conexiones Globals) :
    Pedido → Option (Conexiones Globals)
  | .dispatch pid tid flags => do
      let (s, c') ← atenderDispatch (handleClient cfg) flags pid tid s
      if c'.isNone then some s else none
  | .kernel p => do
      let (g, _) ← atender cfg fs s.memoria p
      some { s with memoria := g }

section Turns

variable {cfg : Config} {fs : List UInt8 → UInt32}

/-- The kernel is answered with one operation code. -/
theorem respuesta_kernel
    {g g' : Globals} {p : Solicitud} {respuesta : List UInt8}
    (hp : ¬ p.DeCpu)
    (h : atender cfg fs g p = some (g', respuesta)) :
    ∃ code, respuesta = enviarRespuestaAntePeticion code := by
  have hresponder : ∀ q exito, (handleClient cfg g q).map Prod.snd = some (Respuesta.de exito) →
      (∀ r, ∃ code, bytesDe q (Respuesta.de r) = some (enviarRespuestaAntePeticion code)) →
      responder cfg g q = some (g', respuesta) →
      ∃ code, respuesta = enviarRespuestaAntePeticion code := by
    intro q exito hclient hbytes hq
    obtain ⟨⟨g₁, r⟩, hclient', hr⟩ := Option.map_eq_some_iff.mp hclient
    obtain ⟨code, hcode⟩ := hbytes exito
    obtain rfl : r = Respuesta.de exito := hr
    rw [responder_eq hclient', hcode] at hq
    cases hq
    exact ⟨code, rfl⟩
  cases p with
  | processCreate r =>
      exact hresponder (.processCreate r.pid r.size) _ rfl
        (fun r => by cases r <;> exact ⟨_, rfl⟩) h
  | processExit r =>
      exact hresponder (.processExit r.pid) true rfl (fun r => by cases r <;> exact ⟨_, rfl⟩) h
  | threadExit t =>
      exact hresponder (.threadExit t.parentPid t.tid) true rfl
        (fun r => by cases r <;> exact ⟨_, rfl⟩) h
  | threadCreate t =>
      rw [atender] at h
      split_ifs at h
      · obtain ⟨filePath, -, h⟩ := Option.bind_eq_some_iff.mp h
        exact hresponder (.threadCreate t.parentPid t.tid filePath) _ rfl
          (fun r => by cases r <;> exact ⟨_, rfl⟩) h
      · exact hresponder (.threadCreate t.parentPid t.tid []) _ rfl
          (fun r => by cases r <;> exact ⟨_, rfl⟩) h
  | dumpMemory d =>
      obtain ⟨paquete, -, h⟩ := Option.bind_eq_some_iff.mp h
      cases h
      exact ⟨_, rfl⟩
  | instructionRequest r => exact absurd trivial hp
  | executionContext r => exact absurd trivial hp
  | executionContextUpdate c => exact absurd trivial hp
  | readMemRequest r => exact absurd trivial hp
  | writeMemRequest r => exact absurd trivial hp

/-- An exchange of the kernel is what `handle_client` does. -/
theorem intercambio_kernel
    {p : Solicitud}
    (hp : ¬ p.DeCpu)
    (hforma : p.BienFormada)
    (g : Globals) :
    intercambio cfg fs p g Canal.nuevo =
      (atender cfg fs g p).map (fun x => (x.1, Canal.nuevo)) := by
  rw [intercambio_nuevo cfg fs g hforma]
  cases hatender : atender cfg fs g p with
  | none =>
      rfl
  | some x =>
      obtain ⟨g', respuesta⟩ := x
      obtain ⟨code, rfl⟩ := respuesta_kernel hp hatender
      rw [Option.bind_eq_bind, Option.bind_some]
      simp only [recibe_kernel hp code, Option.bind_eq_bind, Option.bind_some]
      rfl

/-- The kernel's records, as it builds them. -/
def Pedido.BienFormado : Pedido → Prop
  | .dispatch .. => True
  | .kernel p => ¬ p.DeCpu ∧ p.BienFormada

/-- A turn is the same over the wire. -/
theorem turnoPorRed_eq
    {e : Pedido}
    (hlegible : Legible cfg)
    (c : ExecutionContext) (he : e.BienFormado)
    (s : Conexiones Globals) :
    turnoPorRed cfg fs c (s.map Enlace.limpio) e =
      (turnoDirecto cfg fs s e).map (Conexiones.map Enlace.limpio) := by
  cases e with
  | dispatch pid tid flags =>
      simp only [turnoPorRed, turnoDirecto,
        (respondenIgual_red fs c hlegible).atenderDispatch flags pid tid s]
      cases atenderDispatch (handleClient cfg) flags pid tid s with
      | none =>
          rfl
      | some x =>
          simp only [Option.map_some, Option.bind_eq_bind, Option.bind_some, Prod.map_fst,
            Prod.map_snd, id_eq]
          split_ifs <;> rfl
  | kernel p =>
      simp only [turnoPorRed, turnoDirecto, Conexiones.map, Enlace.limpio,
        intercambio_kernel he.1 he.2]
      cases atender cfg fs s.memoria p with
      | none =>
          rfl
      | some x =>
          simp only [Option.bind_eq_bind, Option.bind_some, Option.map_some, if_true]
          rfl

end Turns

/-- The CPU computes over the wire what it would compute by calling memoria. For every
sequence of dispatches, each with any values of the interruption flag, and of requests of
the kernel, from every memoria, the session carried out through packages on sockets ends,
or waits for ever, exactly as the one in which `handle_client` is called: with the same
memoria and the same messages to the kernel, and with no byte left on the connection. -/
theorem wire_session_is_direct_session
    (cfg : Config) (fs : List UInt8 → UInt32)
    (hlegible : Legible cfg)
    (c : ExecutionContext) (pedidos : List Pedido)
    (hpedidos : ∀ e ∈ pedidos, e.BienFormado)
    (g : Globals) (kernel : List (Mensaje UInt32)) :
    execute (turnoPorRed cfg fs c) { memoria := Enlace.limpio g, kernel := kernel } pedidos =
      (execute (turnoDirecto cfg fs) { memoria := g, kernel := kernel } pedidos).map
        (Conexiones.map Enlace.limpio) := by
  have hmap : ∀ s : Conexiones Globals, execute (turnoPorRed cfg fs c) (s.map Enlace.limpio) pedidos =
      (execute (turnoDirecto cfg fs) s pedidos).map (Conexiones.map Enlace.limpio) := by
    induction pedidos with
    | nil =>
        exact fun s => rfl
    | cons e pedidos ih =>
        intro s
        have hrest := ih (fun e' he' => hpedidos e' (List.mem_cons_of_mem e he'))
        simp only [execute, turnoPorRed_eq hlegible c (hpedidos e List.mem_cons_self)]
        cases turnoDirecto cfg fs s e with
        | none => rfl
        | some s' => exact hrest s'
  exact hmap { memoria := g, kernel := kernel }

theorem legible_unaLinea : Legible configUnaLinea := by
  intro path lineas h linea hlinea
  simp only [configUnaLinea, Option.ite_none_right_eq_some, Option.some.injEq] at h
  obtain rfl : linea = ['L', 'O', 'G', ' ', 'A', 'X'] := List.mem_singleton.mp (h.2 ▸ hlinea)
  exact ⟨by simp, by simp⟩

/-- The context of the only thread of `unProceso`. -/
def unContexto : ExecutionContext :=
  contextoDe 1 0 ⟨0, 0, 0, 0, 0, 0, 0, 0, 0, 8, 0⟩

theorem wire_session_is_direct_session_unaLinea :
    ∃ s, execute (turnoDirecto configUnaLinea (fun _ => 0)) { memoria := unProceso, kernel := [] }
        [.dispatch 1 0 [true], .kernel (.dumpMemory ⟨1, 0⟩)] = some s ∧
      execute (turnoPorRed configUnaLinea (fun _ => 0) unContexto)
        { memoria := Enlace.limpio unProceso, kernel := [] }
        [.dispatch 1 0 [true], .kernel (.dumpMemory ⟨1, 0⟩)] = some (s.map Enlace.limpio) := by
  have hdirecta : (execute (turnoDirecto configUnaLinea (fun _ => 0))
      { memoria := unProceso, kernel := [] }
      [.dispatch 1 0 [true], .kernel (.dumpMemory ⟨1, 0⟩)]).isSome := by
    decide +kernel
  obtain ⟨s, hs⟩ := Option.isSome_iff_exists.mp hdirecta
  refine ⟨s, hs, ?_⟩
  rw [wire_session_is_direct_session configUnaLinea (fun _ => 0) legible_unaLinea unContexto _
    (by simp [Pedido.BienFormado, Solicitud.BienFormada, Solicitud.DeCpu]) unProceso [], hs]
  rfl

end SinIdeas
