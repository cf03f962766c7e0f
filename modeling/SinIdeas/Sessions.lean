import SinIdeas.Lib.History
import SinIdeas.Memoria.Framing

/-!
# The loops of the servers

Every server reads a connection in a loop: an operation code, a package, and a
`switch`. The peer sends requests and then a bare DISCONNECT, closes, or does both. The
end of the stream is met in the operation code, where `receive_operation_code` closes the
descriptor, or in the size that should follow the code; after a DISCONNECT of a peer that
does not close, `receive_package` waits for that size for ever.
-/

namespace SinIdeas

open Lib Utils

/-- What a server does with an operation code and `list_get(lista, 0)`, apart from
the connection it reads; `none` when it does not come back. -/
abbrev Manejador (σ : Type) := Utils.OpCode → Option (List UInt8) → σ → Option σ

/-! ## The three loops -/

namespace Memoria

/-- The cases of `handle_client`: the process table and the bytes sent so far. -/
def manejador (cfg : Config) (fs : List UInt8 → UInt32) : Manejador (Globals × List UInt8) :=
  fun op buffer estado => do
    let b ← buffer
    let (g, respuesta) ← atenderPaquete cfg fs estado.1 op b
    some (g, estado.2 ++ respuesta)

/-- A round of `handle_client`, which leaves the loop when the list is empty. -/
def vueltaHandleClient {σ : Type} (h : Manejador σ) (estado : σ × Conexion) :
    Option ((σ × Conexion) × Bool) := do
  let (codOp, s) ← receiveOperationCode estado.2
  let (lista, s) ← receivePackage s
  if lista = [] then
    some ((estado.1, s), false)
  else
    match Utils.OpCode.ofInt codOp with
    | some .disconnect => some ((estado.1, s.close), false)
    | some op => do
        let a ← h op lista[0]? estado.1
        some ((a, s), true)
    | none => some ((estado.1, s), true)

end Memoria

/-- A round of a loop that only leaves it for a DISCONNECT. -/
def vueltaHastaDisconnect {σ : Type} (h : Manejador σ) (estado : σ × Conexion) :
    Option ((σ × Conexion) × Bool) := do
  let (codOp, s) ← receiveOperationCode estado.2
  let (lista, s) ← receivePackage s
  match Utils.OpCode.ofInt codOp with
  | some .disconnect => some ((estado.1, s.close), false)
  | some op => do
      let a ← h op lista[0]? estado.1
      some ((a, s), true)
  | none => some ((estado.1, s), true)

namespace FileSystem

/-- The cases of `handle_client`: the dumps for which a thread was started. -/
def manejador : Manejador (List Utils.DumpContext) :=
  fun op buffer dumps =>
    match op with
    | .message => do
        let b ← buffer
        let _ ← deserializeMessage.run b
        some dumps
    | .dumpMemory => do
        let b ← buffer
        let (contexto, _) ← deserializeDumpContext.run b
        some (dumps ++ [contexto])
    | _ => some dumps

/-- A round of `handle_client`. -/
def vueltaHandleClient {σ : Type} (h : Manejador σ) (estado : σ × Conexion) :
    Option ((σ × Conexion) × Bool) :=
  vueltaHastaDisconnect h estado

end FileSystem

namespace Cpu

/-- The cases of `handle_client_cpu_dispatch`; `ejecutar` asks memoria for the context
of a thread and runs its instruction cycle. -/
def manejador {σ : Type} (ejecutar : Utils.DispatchRequest → σ → Option σ) : Manejador σ :=
  fun op buffer a =>
    match op with
    | .dispatch => do
        let b ← buffer
        let (req, _) ← deserializeDispatchRequest.run b
        ejecutar req a
    | _ => some a

/-- A round of `handle_client_cpu_dispatch`. -/
def vueltaHandleClientCpuDispatch {σ : Type} (h : Manejador σ) (estado : σ × Conexion) :
    Option ((σ × Conexion) × Bool) :=
  vueltaHastaDisconnect h estado

end Cpu

/-! ## What a session should be -/

/-- How the peer ends a session: with a bare DISCONNECT, by closing the connection, or
both. -/
inductive Despedida where
  | disconnect
  | cierre
  | disconnectYCierre
  deriving DecidableEq

/-- The bytes that it sends for that. -/
def Despedida.bytes : Despedida → List UInt8
  | cierre => []
  | _ => encode32 Utils.OpCode.disconnect.code

/-- What a server finds on the connection of a session. -/
def sesion (es : List Envio) (fin : Despedida) : Conexion :=
  Conexion.abierta (es.flatMap Envio.bytes ++ fin.bytes) (fin = .disconnect)

/-- A request: a package with a value that is no DISCONNECT and fits an `int`. -/
def EsPedido (e : Envio) : Prop :=
  e.operationCode ≠ .disconnect ∧ e.values ≠ [] ∧ e.tamanio < 2 ^ 31

/-- The handler comes back from all the requests, one after another. -/
def atendidos {σ : Type} (h : Manejador σ) (a : σ) (es : List Envio) : Option σ :=
  es.foldlM (fun a e => h e.operationCode e.values[0]? a) a

/-- The loop returns; the descriptor was closed once, and not read after that. -/
def TerminaCerrada {σ : Type} (vuelta : σ × Conexion → Option ((σ × Conexion) × Bool))
    (a : σ) (s : Conexion) : Prop :=
  ∃ a' s', Ends vuelta (a, s) (a', s') ∧ s'.cierres = 1 ∧ s'.tarde = 0

section Rounds

variable {σ : Type} {h : Manejador σ} {a : σ} {e : Envio} {es : List Envio} {c : Bool}

/-- A round, once the operation code and the package are known. -/
theorem vueltaHastaDisconnect_eq
    {s s₁ s₂ : Conexion} {codOp : Int} {lista : List (List UInt8)}
    (hcode : receiveOperationCode s = some (codOp, s₁))
    (hpackage : receivePackage s₁ = some (lista, s₂)) :
    vueltaHastaDisconnect h (a, s) =
      match Utils.OpCode.ofInt codOp with
      | some .disconnect => some ((a, s₂.close), false)
      | some op => (h op lista[0]? a).map (fun a => ((a, s₂), true))
      | none => some ((a, s₂), true) := by
  rw [vueltaHastaDisconnect, hcode, Option.bind_eq_bind, Option.bind_some]
  simp only [hpackage, Option.bind_eq_bind, Option.bind_some, Option.map_eq_bind]
  rfl

theorem vueltaMemoria_eq
    {s s₁ s₂ : Conexion} {codOp : Int} {lista : List (List UInt8)}
    (hcode : receiveOperationCode s = some (codOp, s₁))
    (hpackage : receivePackage s₁ = some (lista, s₂)) :
    Memoria.vueltaHandleClient h (a, s) =
      if lista = [] then
        some ((a, s₂), false)
      else
        match Utils.OpCode.ofInt codOp with
        | some .disconnect => some ((a, s₂.close), false)
        | some op => (h op lista[0]? a).map (fun a => ((a, s₂), true))
        | none => some ((a, s₂), true) := by
  rw [Memoria.vueltaHandleClient, hcode, Option.bind_eq_bind, Option.bind_some]
  simp only [hpackage, Option.bind_eq_bind, Option.bind_some, Option.map_eq_bind]
  rfl

/-- A round on a request. -/
theorem vueltaHastaDisconnect_pedido
    (rest : List UInt8) (he : EsPedido e) :
    vueltaHastaDisconnect h (a, Conexion.abierta (e.bytes ++ rest) c) =
      (h e.operationCode e.values[0]? a).map (fun a => ((a, Conexion.abierta rest c), true)) := by
  obtain ⟨hop, -, hsmall⟩ := he
  obtain ⟨s, hcode, hpackage⟩ := receive_envio rest hsmall
  rw [vueltaHastaDisconnect_eq hcode hpackage, Memoria.ofInt_code]
  split
  · rename_i heq
    exact absurd (Option.some.inj heq) hop
  · rename_i heq
    cases heq
    rfl
  · rename_i heq
    cases heq

theorem vueltaMemoria_pedido
    (rest : List UInt8) (he : EsPedido e) :
    Memoria.vueltaHandleClient h (a, Conexion.abierta (e.bytes ++ rest) c) =
      (h e.operationCode e.values[0]? a).map (fun a => ((a, Conexion.abierta rest c), true)) := by
  obtain ⟨hop, hvalues, hsmall⟩ := he
  obtain ⟨s, hcode, hpackage⟩ := receive_envio rest hsmall
  rw [vueltaMemoria_eq hcode hpackage, if_neg hvalues, Memoria.ofInt_code]
  split
  · rename_i heq
    exact absurd (Option.some.inj heq) hop
  · rename_i heq
    cases heq
    rfl
  · rename_i heq
    cases heq

/-- Requests are handled one after another, before anything else is read. -/
theorem ends_pedidos_iff
    {vuelta : σ × Conexion → Option ((σ × Conexion) × Bool)} {t : σ × Conexion}
    (rest : List UInt8)
    (hvuelta : ∀ a e rest, EsPedido e → vuelta (a, Conexion.abierta (e.bytes ++ rest) c) =
      (h e.operationCode e.values[0]? a).map (fun a => ((a, Conexion.abierta rest c), true)))
    (hes : ∀ e ∈ es, EsPedido e) :
    Ends vuelta (a, Conexion.abierta (es.flatMap Envio.bytes ++ rest) c) t ↔
      ∃ a', atendidos h a es = some a' ∧ Ends vuelta (a', Conexion.abierta rest c) t := by
  induction es generalizing a with
  | nil =>
      simp [atendidos]
  | cons e es ih =>
      have hrest : ∀ f ∈ es, EsPedido f := fun f hf => hes f (by simp [hf])
      have hround := hvuelta a e (es.flatMap Envio.bytes ++ rest) (hes e (by simp))
      rw [List.flatMap_cons, List.append_assoc]
      cases hh : h e.operationCode e.values[0]? a with
      | none =>
          rw [hh, Option.map_none] at hround
          simp [not_ends_of_fail hround, atendidos, hh]
      | some a₁ =>
          rw [hh, Option.map_some] at hround
          rw [ends_iff_of_again hround, ih hrest]
          simp [atendidos, hh]

/-! ## The end of the stream -/

/-- At the end of the stream `receive_operation_code` closes the descriptor. -/
theorem receiveOperationCode_fin :
    receiveOperationCode (Conexion.abierta []) =
      some (-1, { pendientes := [], cierres := 1, tarde := 0 }) := by
  simp [receiveOperationCode, Conexion.recv, Conexion.abierta, Conexion.close]

theorem receiveOperationCode_cerrada
    {s : Conexion}
    (hs : s.cierres ≠ 0) :
    receiveOperationCode s =
      some (-1, { s with cierres := s.cierres + 1, tarde := s.tarde + 1 }) := by
  simp [receiveOperationCode, Conexion.recv, Conexion.close, hs]

/-- The size is the initial `0` when there is nothing to receive. -/
theorem receivePackage_fin :
    receivePackage (Conexion.abierta []) = some ([], Conexion.abierta []) := by
  decide

theorem recv_cerrada
    {s : Conexion} (n : Nat)
    (hs : s.cierres ≠ 0) :
    s.recv n = some ([], { s with tarde := s.tarde + 1 }) := by
  rw [Conexion.recv, if_neg hs]

theorem receivePackage_cerrada
    {s : Conexion}
    (hs : s.cierres ≠ 0) :
    receivePackage s = some ([], { s with tarde := s.tarde + 2 }) := by
  have hsize : decode32 ([] ++ (encode32 0).drop 0) = some 0 := by
    decide
  have hzero : wrap32 ((0 : UInt32).toNat : Int) = 0 := by
    decide
  have hbuffer :
      receiveBuffer (encode32 0) s = some ((0, []), { s with tarde := s.tarde + 2 }) := by
    rw [receiveBuffer, recv_cerrada 4 hs, Option.bind_eq_bind, Option.bind_some]
    show (decode32 ([] ++ (encode32 0).drop 0) >>= _) = _
    rw [hsize, Option.bind_eq_bind, Option.bind_some]
    simp only [hzero]
    rw [if_neg (by decide), recv_cerrada (s := { s with tarde := s.tarde + 1 }) (Int.toNat 0) hs]
    rfl
  have hvalues : (receiveValues 1 0).run [] = some ([], []) := by
    decide
  rw [receivePackage, hbuffer, Option.bind_eq_bind, Option.bind_some]
  simp only [Int.toNat_zero, Nat.zero_add, hvalues, Option.bind_eq_bind, Option.bind_some]

/-- A loop that only leaves for a DISCONNECT goes on for ever on a closed descriptor. -/
theorem not_ends_cerrada
    {s : Conexion} {t : σ × Conexion}
    (hs : s.cierres ≠ 0) :
    ¬ Ends (vueltaHastaDisconnect h) (a, s) t := by
  refine not_ends_of_invariant (I := fun estado => estado.2.cierres ≠ 0) hs ?_
  rintro ⟨a, s⟩ hs
  have hround := vueltaHastaDisconnect_eq (h := h) (a := a) (receiveOperationCode_cerrada hs)
    (receivePackage_cerrada (Nat.succ_ne_zero _))
  exact ⟨_, hround, Nat.succ_ne_zero _⟩

/-- The round in which the stream of a session ends. -/
theorem vueltaHastaDisconnect_fin :
    vueltaHastaDisconnect h (a, Conexion.abierta []) =
      some ((a, { pendientes := [], cierres := 1, tarde := 2 }), true) :=
  vueltaHastaDisconnect_eq receiveOperationCode_fin (receivePackage_cerrada Nat.one_ne_zero)

theorem vueltaMemoria_fin :
    Memoria.vueltaHandleClient h (a, Conexion.abierta []) =
      some ((a, { pendientes := [], cierres := 1, tarde := 2 }), false) :=
  vueltaMemoria_eq receiveOperationCode_fin (receivePackage_cerrada Nat.one_ne_zero)

/-- A bare DISCONNECT is read as such. -/
theorem receiveOperationCode_disconnect :
    receiveOperationCode (Conexion.abierta (encode32 Utils.OpCode.disconnect.code) c) =
      some ((Utils.OpCode.disconnect.code.toNat : Int), Conexion.abierta [] c) := by
  have hcode := receiveOperationCode_eq (c := c) .disconnect []
  rwa [List.append_nil] at hcode

theorem vueltaHastaDisconnect_disconnect :
    vueltaHastaDisconnect h (a, Conexion.abierta (encode32 Utils.OpCode.disconnect.code)) =
      some ((a, { pendientes := [], cierres := 1, tarde := 0 }), false) := by
  rw [vueltaHastaDisconnect_eq receiveOperationCode_disconnect receivePackage_fin,
    Memoria.ofInt_code]
  rfl

theorem vueltaMemoria_disconnect :
    Memoria.vueltaHandleClient h (a, Conexion.abierta (encode32 Utils.OpCode.disconnect.code)) =
      some ((a, Conexion.abierta []), false) := by
  rw [vueltaMemoria_eq receiveOperationCode_disconnect receivePackage_fin, if_pos rfl]

/-- The size is waited for while the peer is connected. -/
theorem receivePackage_espera :
    receivePackage (Conexion.abierta [] true) = none := by
  decide

theorem vueltaHastaDisconnect_espera :
    vueltaHastaDisconnect h
      (a, Conexion.abierta (encode32 Utils.OpCode.disconnect.code) true) = none := by
  rw [vueltaHastaDisconnect, receiveOperationCode_disconnect, Option.bind_eq_bind,
    Option.bind_some]
  simp only [receivePackage_espera, Option.bind_eq_bind, Option.bind_none]

theorem vueltaMemoria_espera :
    Memoria.vueltaHandleClient h
      (a, Conexion.abierta (encode32 Utils.OpCode.disconnect.code) true) = none := by
  rw [Memoria.vueltaHandleClient, receiveOperationCode_disconnect, Option.bind_eq_bind,
    Option.bind_some]
  simp only [receivePackage_espera, Option.bind_eq_bind, Option.bind_none]

/-! ## Whole sessions -/

variable {fin : Despedida}

/-- After a DISCONNECT memoria waits for ever or leaves the descriptor open, and without
one it reads it once more after it was closed. -/
theorem memoria_no_termina_cerrada
    (hes : ∀ e ∈ es, EsPedido e) :
    ¬ TerminaCerrada (Memoria.vueltaHandleClient h) a (sesion es fin) := by
  rintro ⟨a', s, hends, hclosed, hlate⟩
  rw [sesion, ends_pedidos_iff _ (fun _ _ => vueltaMemoria_pedido) hes] at hends
  obtain ⟨a₁, -, hends⟩ := hends
  cases fin with
  | disconnect =>
      exact not_ends_of_fail vueltaMemoria_espera hends
  | disconnectYCierre =>
      have hend := (ends_iff_of_exit vueltaMemoria_disconnect).mp hends
      cases hend
      cases hclosed
  | cierre =>
      have hend := (ends_iff_of_exit vueltaMemoria_fin).mp hends
      cases hend
      cases hlate

/-- The other two loops end well when the peer says that it disconnects and closes. -/
theorem hastaDisconnect_termina_iff
    (hes : ∀ e ∈ es, EsPedido e) :
    TerminaCerrada (vueltaHastaDisconnect h) a (sesion es fin) ↔
      fin = .disconnectYCierre ∧ (atendidos h a es).isSome := by
  have hpedidos : ∀ t, Ends (vueltaHastaDisconnect h) (a, sesion es fin) t ↔
      ∃ a', atendidos h a es = some a' ∧
        Ends (vueltaHastaDisconnect h) (a', Conexion.abierta fin.bytes (fin = .disconnect)) t :=
    fun t => ends_pedidos_iff fin.bytes (fun _ _ => vueltaHastaDisconnect_pedido) hes
  constructor
  · rintro ⟨a', s, hends, -, -⟩
    rw [hpedidos] at hends
    obtain ⟨a₁, hatendidos, hends⟩ := hends
    refine ⟨?_, by rw [hatendidos]; rfl⟩
    cases fin with
    | disconnect =>
        -- The loop waits for a size that never comes.
        exact absurd hends (not_ends_of_fail vueltaHastaDisconnect_espera)
    | disconnectYCierre =>
        rfl
    | cierre =>
        -- The stream ends and the loop goes on with a closed descriptor.
        have hagain := (ends_iff_of_again vueltaHastaDisconnect_fin).mp hends
        exact absurd hagain (not_ends_cerrada Nat.one_ne_zero)
  · rintro ⟨rfl, hatendidos⟩
    obtain ⟨a₁, ha₁⟩ := Option.isSome_iff_exists.mp hatendidos
    refine ⟨a₁, { pendientes := [], cierres := 1, tarde := 0 }, ?_, rfl, rfl⟩
    rw [hpedidos]
    exact ⟨a₁, ha₁, (ends_iff_of_exit vueltaHastaDisconnect_disconnect).mpr rfl⟩

end Rounds

/-- The three servers, with the state in which a session finds their handlers. -/
inductive Servidor (σ : Type) where
  | memoria (cfg : Memoria.Config) (fs : List UInt8 → UInt32) (g : Memoria.Globals)
  | filesystem (dumps : List Utils.DumpContext)
  | cpuDispatch (ejecutar : Utils.DispatchRequest → σ → Option σ) (a : σ)

namespace Servidor

variable {σ : Type}

/-- The session ends and its descriptor was closed once. -/
def Cierra : Servidor σ → Conexion → Prop
  | memoria cfg fs g, s =>
      TerminaCerrada (Memoria.vueltaHandleClient (Memoria.manejador cfg fs)) (g, []) s
  | filesystem dumps, s =>
      TerminaCerrada (FileSystem.vueltaHandleClient FileSystem.manejador) dumps s
  | cpuDispatch ejecutar a, s =>
      TerminaCerrada (Cpu.vueltaHandleClientCpuDispatch (Cpu.manejador ejecutar)) a s

/-- The server is not memoria, the handlers come back from every request, and the peer
sends a DISCONNECT and closes. -/
def SeDespide : Servidor σ → List Envio → Despedida → Prop
  | memoria _ _ _, _, _ => False
  | filesystem dumps, es, fin =>
      fin = .disconnectYCierre ∧ (atendidos FileSystem.manejador dumps es).isSome
  | cpuDispatch ejecutar a, es, fin =>
      fin = .disconnectYCierre ∧ (atendidos (Cpu.manejador ejecutar) a es).isSome

end Servidor

/-- Which sessions end with the descriptor closed once and not read any more: none of
memoria, and those of the other two servers in which the peer sends a DISCONNECT and
closes. -/
theorem sessions_close_once_iff
    {σ : Type} (v : Servidor σ) (es : List Envio) (fin : Despedida)
    (h : ∀ e ∈ es, EsPedido e) :
    v.Cierra (sesion es fin) ↔ v.SeDespide es fin := by
  cases v with
  | memoria cfg fs g =>
      exact iff_of_false (memoria_no_termina_cerrada h) id
  | filesystem dumps =>
      exact hastaDisconnect_termina_iff h
  | cpuDispatch ejecutar a =>
      exact hastaDisconnect_termina_iff h

/-- A session of the file system that ends well, and the same one without the close. -/
theorem sessions_close_once_iff_message :
    (Servidor.filesystem (σ := Unit) []).Cierra
        (sesion [⟨.message, [[1, 0, 0, 0, 0]]⟩] .disconnectYCierre) ∧
      ¬ (Servidor.filesystem (σ := Unit) []).Cierra
        (sesion [⟨.message, [[1, 0, 0, 0, 0]]⟩] .disconnect) := by
  have hes : ∀ e ∈ [(⟨.message, [[1, 0, 0, 0, 0]]⟩ : Envio)], EsPedido e := by
    simp [EsPedido, Envio.tamanio]
  constructor
  · exact (sessions_close_once_iff (Servidor.filesystem []) _ _ hes).mpr ⟨rfl, by decide⟩
  · intro h
    have hdespide := (sessions_close_once_iff (Servidor.filesystem []) _ _ hes).mp h
    exact absurd hdespide.1 (by decide)

/-- The session in which the kernel creates a process: memoria never closes it. -/
theorem memoria_leaves_its_descriptor_open :
    ¬ (Servidor.memoria (σ := Unit) Memoria.configUnaLinea (fun _ => 0)
        Memoria.unProceso).Cierra
      (sesion [⟨.processCreate, [[2, 0, 0, 0, 8, 0, 0, 0]]⟩] .disconnectYCierre) :=
  memoria_no_termina_cerrada (by simp [EsPedido, Envio.tamanio])

end SinIdeas
