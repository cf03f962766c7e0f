import SinIdeas.Kernel.Vista

/-!
# The dispatcher and the IO device

`request_io` and `io_device_thread`, one lock-protected step at a time, with the
scheduler that decides which thread runs next. The two parties share the queue
of requests, the lists BLOCKED and READY and two semaphores; nothing else orders
their steps.

What happened is kept beside the state: the requests in the order in which they
arrived, those whose thread the device has looked for, the threads that are in
BLOCKED because of a request, and what the device did with the threads it found.
-/

namespace SinIdeas
namespace Kernel

open Lib

/-- Where the dispatcher is: before `schedule_next_tcb`, waiting for the CPU, or in
`request_io` after `queue_push` or after `sem_post`. -/
inductive Solicitante where
  | libre
  | ejecutando (tcb : Tcb)
  | encolado (tcb : Tcb)
  | avisado (tcb : Tcb)
  deriving DecidableEq

/-- Where `io_device_thread` is: at its `sem_wait`, before `queue_pop`, sleeping for a
request, with the TCB that it took out of BLOCKED, or before its `sem_post`. -/
inductive Dispositivo where
  | espera
  | despierto
  | sirviendo (request : IoRequest)
  | retirado (request : IoRequest) (tcb : Tcb)
  | puesto (request : IoRequest)
  deriving DecidableEq

/-- What the two parties share, and where each of them is. -/
structure Partes where
  listReadyTcb : List Tcb
  listBlockedTcb : List Tcb
  ioRequestQueue : List IoRequest
  semIoRequest : Nat
  semThreadCount : Nat
  solicitante : Solicitante
  dispositivo : Dispositivo
  deriving DecidableEq

/-- The steps of the two parties, in the order of the source: the dispatcher takes a
thread from READY, gives it back or runs `request_io` for it; the device serves. -/
inductive EventoIo where
  | planificar (i : Nat)
  | desalojar
  | encolar (ioTime : Nat)
  | avisar
  | bloquear
  | esperar
  | extraer
  | retirar
  | poner
  | publicar
  deriving DecidableEq

/-- The request of a thread. -/
def solicitud (tcb : Tcb) (ioTime : Nat) : IoRequest where
  ioTime := ioTime
  pid := tcb.parentPid
  tid := tcb.tid

/-- One step of the dispatcher. -/
def pasoSolicitante (s : Partes) : EventoIo → Option Partes
  | .planificar i =>
      match s.solicitante, s.semThreadCount, s.listReadyTcb[i]? with
      | .libre, n + 1, some tcb =>
          some { s with
            semThreadCount := n
            listReadyTcb := s.listReadyTcb.eraseIdx i
            solicitante := .ejecutando tcb }
      | _, _, _ => none
  | .desalojar =>
      match s.solicitante with
      | .ejecutando tcb =>
          some { s with
            listReadyTcb := addTcbToList s.listReadyTcb tcb
            semThreadCount := s.semThreadCount + 1
            solicitante := .libre }
      | _ => none
  | .encolar ioTime =>
      match s.solicitante with
      | .ejecutando tcb =>
          some { s with
            ioRequestQueue := s.ioRequestQueue ++ [solicitud tcb ioTime]
            solicitante := .encolado tcb }
      | _ => none
  | .avisar =>
      match s.solicitante with
      | .encolado tcb =>
          some { s with semIoRequest := s.semIoRequest + 1, solicitante := .avisado tcb }
      | _ => none
  | .bloquear =>
      match s.solicitante with
      | .avisado tcb =>
          some { s with
            listBlockedTcb := addTcbToList s.listBlockedTcb { tcb with state := .blocked }
            solicitante := .libre }
      | _ => none
  | _ => none

/-- One step of the device. A request whose thread is not in BLOCKED is dropped. -/
def pasoDispositivo (s : Partes) : EventoIo → Option Partes
  | .esperar =>
      match s.dispositivo, s.semIoRequest with
      | .espera, n + 1 => some { s with semIoRequest := n, dispositivo := .despierto }
      | _, _ => none
  | .extraer =>
      match s.dispositivo, s.ioRequestQueue with
      | .despierto, [] => some { s with dispositivo := .espera }
      | .despierto, request :: resto =>
          some { s with ioRequestQueue := resto, dispositivo := .sirviendo request }
      | _, _ => none
  | .retirar =>
      match s.dispositivo with
      | .sirviendo request =>
          match removeTcbFromList s.listBlockedTcb request.pid request.tid with
          | (none, _) => some { s with dispositivo := .espera }
          | (some tcb, blocked) =>
              some { s with listBlockedTcb := blocked, dispositivo := .retirado request tcb }
      | _ => none
  | .poner =>
      match s.dispositivo with
      | .retirado request tcb =>
          some { s with
            listReadyTcb := addTcbToList s.listReadyTcb { tcb with state := .ready }
            dispositivo := .puesto request }
      | _ => none
  | .publicar =>
      match s.dispositivo with
      | .puesto _ =>
          some { s with semThreadCount := s.semThreadCount + 1, dispositivo := .espera }
      | _ => none
  | _ => none

/-- One step of either party. -/
def pasoIo (s : Partes) (e : EventoIo) : Option Partes :=
  match pasoSolicitante s e with
  | some s' => some s'
  | none => pasoDispositivo s e

/-- No request in flight. -/
def inicioIo (ready blocked : List Tcb) (semThreadCount : Nat) : Partes where
  listReadyTcb := ready
  listBlockedTcb := blocked
  ioRequestQueue := []
  semIoRequest := 0
  semThreadCount := semThreadCount
  solicitante := .libre
  dispositivo := .espera

/-- What happened: the requests that arrived, with their threads, those whose thread
the device has looked for, the threads that are in BLOCKED through IO, those that the
device has put in READY, and how often it has posted `sem_thread_count`. -/
structure Diario where
  pedidos : List (Hilo × IoRequest)
  servidos : List IoRequest
  porIo : List Hilo
  puestos : List Hilo
  posts : Nat
  deriving DecidableEq

def Diario.vacio : Diario where
  pedidos := []
  servidos := []
  porIo := []
  puestos := []
  posts := 0

/-- What a step from `s` adds. -/
def Diario.registrar (d : Diario) (s : Partes) (e : EventoIo) : Diario :=
  match e, s.solicitante, s.dispositivo with
  | .encolar ioTime, .ejecutando tcb, _ =>
      { d with pedidos := d.pedidos ++ [(tcb.hilo, solicitud tcb ioTime)] }
  | .bloquear, .avisado tcb, _ => { d with porIo := d.porIo ++ [tcb.hilo] }
  | .retirar, _, .sirviendo request =>
      match (removeTcbFromList s.listBlockedTcb request.pid request.tid).1 with
      | none => { d with servidos := d.servidos ++ [request] }
      | some tcb =>
          { d with
            servidos := d.servidos ++ [request]
            porIo := d.porIo.erase tcb.hilo }
  | .poner, _, .retirado _ tcb => { d with puestos := d.puestos ++ [tcb.hilo] }
  | .publicar, _, .puesto _ => { d with posts := d.posts + 1 }
  | _, _, _ => d

/-- The two parties with what happened. -/
structure Observado where
  partes : Partes
  diario : Diario
  deriving DecidableEq

/-- One step of either party, written down. -/
def pasoObservado (x : Observado) (e : EventoIo) : Option Observado := do
  let s ← pasoIo x.partes e
  some { partes := s, diario := x.diario.registrar x.partes e }

/-- The start of a run. -/
def inicioObservado (ready blocked : List Tcb) (semThreadCount : Nat) : Observado where
  partes := inicioIo ready blocked semThreadCount
  diario := Diario.vacio

/-- A run of the two parties from threads that wait in READY and in BLOCKED. -/
def CorridaIo
    (ok : Observado → EventoIo → Prop)
    (ready blocked : List Tcb)
    (semThreadCount : Nat)
    (es : List EventoIo)
    (x : Observado) : Prop :=
  Run (fun a e b => pasoObservado a e = some b) ok
    (inicioObservado ready blocked semThreadCount) es x

/-- The request that the device serves. -/
def Dispositivo.enServicio : Dispositivo → List IoRequest
  | .sirviendo request => [request]
  | _ => []

/-- The thread that the device has taken out of BLOCKED and not yet put in READY. -/
def Dispositivo.enMano : Dispositivo → List Hilo
  | .retirado _ tcb => [tcb.hilo]
  | _ => []

/-- The posts of `sem_thread_count` that the device owes. -/
def Dispositivo.debe : Dispositivo → Nat
  | .puesto _ => 1
  | _ => 0

/-- The thread whose request is visible and that is not yet in BLOCKED. -/
def Solicitante.pendiente : Solicitante → List Hilo
  | .encolado tcb => [tcb.hilo]
  | .avisado tcb => [tcb.hilo]
  | _ => []

/-- The thread that the dispatcher holds. -/
def Solicitante.hilo : Solicitante → List Hilo
  | .libre => []
  | .ejecutando tcb => [tcb.hilo]
  | .encolado tcb => [tcb.hilo]
  | .avisado tcb => [tcb.hilo]

/-- Every thread. -/
def Partes.hilos (s : Partes) : List Hilo :=
  s.listReadyTcb.map Tcb.hilo ++
    (s.listBlockedTcb.map Tcb.hilo ++ (s.solicitante.hilo ++ s.dispositivo.enMano))

/-- The threads of the requests that are queued or in service, oldest first. -/
def Diario.enCurso (d : Diario) : List Hilo :=
  (d.pedidos.drop d.servidos.length).map Prod.fst

/-- IO loses no thread: requests are served in the order of arrival, a thread that is
in BLOCKED through IO has exactly one request queued or in service, and each served
request has moved its own thread to READY, once and with one post. -/
structure NoPierde (x : Observado) : Prop where
  enOrden : x.diario.pedidos.map Prod.snd =
    x.diario.servidos ++ (x.partes.dispositivo.enServicio ++ x.partes.ioRequestQueue)
  unaSolicitud : ∀ t ∈ x.partes.listBlockedTcb, t.hilo ∈ x.diario.porIo →
    x.diario.enCurso.count t.hilo = 1
  unMovimiento : x.diario.puestos ++ x.partes.dispositivo.enMano =
    (x.diario.pedidos.take x.diario.servidos.length).map Prod.fst
  unPost : x.diario.posts + x.partes.dispositivo.debe = x.diario.puestos.length

/-- When the device looks for the thread of the request in service, `request_io` has
already put it in BLOCKED, and no other thread with its PID and TID is before it. -/
def BuscaBloqueado (x : Observado) (e : EventoIo) : Prop :=
  e = .retirar → ∀ h ∈ x.diario.enCurso.head?,
    h ∉ x.partes.solicitante.pendiente ∧
      ∀ u ∈ (x.partes.listBlockedTcb.map Tcb.hilo).takeWhile (· ≠ h), u.ident ≠ h.ident

instance decidableBuscaBloqueado (x : Observado) (e : EventoIo) :
    Decidable (BuscaBloqueado x e) :=
  inferInstanceAs (Decidable (e = .retirar → ∀ h ∈ x.diario.enCurso.head?,
    h ∉ x.partes.solicitante.pendiente ∧
      ∀ u ∈ (x.partes.listBlockedTcb.map Tcb.hilo).takeWhile (· ≠ h), u.ident ≠ h.ident))

/-- The kernel between two steps of the parties, with the device waiting. -/
def Globals.partes {μ : Type} (k : Globals μ) (solicitante : Solicitante) : Partes where
  listReadyTcb := k.listReadyTcb
  listBlockedTcb := k.listBlockedTcb
  ioRequestQueue := k.ioRequestQueue
  semIoRequest := k.ioRequestQueue.length
  semThreadCount := k.semThreadCount
  solicitante := solicitante
  dispositivo := .espera

/-- `request_io` of the kernel is the run of its three steps without a step of the
device between them. -/
theorem requestIo_pasos
    {μ : Type}
    (k : Globals μ)
    (tcb : Tcb)
    (ioTime : Nat) :
    execute pasoIo (k.partes (.ejecutando tcb)) [.encolar ioTime, .avisar, .bloquear] =
      some ((requestIo tcb ioTime k).partes .libre) := by
  simp [execute, pasoIo, pasoSolicitante, Globals.partes, requestIo, solicitud]

/-- A request of the kernel is served by the steps of the device without a step of the
dispatcher between them. -/
theorem ioFin_pasos
    {μ : Type} {k k' : Globals μ}
    (solicitante : Solicitante)
    (h : ioFin k = some k') :
    ∃ es, execute pasoIo (k.partes solicitante) es = some (k'.partes solicitante) := by
  unfold ioFin at h
  split at h
  · cases h
  · rename_i request resto hqueue
    dsimp only at h
    split at h
    · rename_i hremove
      cases h
      refine ⟨[.esperar, .extraer, .retirar], ?_⟩
      simp [execute, pasoIo, pasoSolicitante, pasoDispositivo, Globals.partes, hqueue, hremove]
    · rename_i tcb blocked hremove
      cases h
      refine ⟨[.esperar, .extraer, .retirar, .poner, .publicar], ?_⟩
      simp [execute, pasoIo, pasoSolicitante, pasoDispositivo, Globals.partes, hqueue, hremove,
        postThreadCount]

/-- Everything a step can do, and what is written down. -/
inductive CasoIo (s : Partes) (d : Diario) : EventoIo → Partes → Diario → Prop
  | planificar {i n : Nat} {l m : List Tcb} {tcb : Tcb}
      (hlibre : s.solicitante = .libre)
      (hready : s.listReadyTcb = l ++ tcb :: m) :
      CasoIo s d (.planificar i)
        { s with
          semThreadCount := n
          listReadyTcb := l ++ m
          solicitante := .ejecutando tcb } d
  | desalojar {tcb : Tcb}
      (hejecuta : s.solicitante = .ejecutando tcb) :
      CasoIo s d .desalojar
        { s with
          listReadyTcb := s.listReadyTcb ++ [tcb]
          semThreadCount := s.semThreadCount + 1
          solicitante := .libre } d
  | encolar {ioTime : Nat} {tcb : Tcb}
      (hejecuta : s.solicitante = .ejecutando tcb) :
      CasoIo s d (.encolar ioTime)
        { s with
          ioRequestQueue := s.ioRequestQueue ++ [solicitud tcb ioTime]
          solicitante := .encolado tcb }
        { d with pedidos := d.pedidos ++ [(tcb.hilo, solicitud tcb ioTime)] }
  | avisar {tcb : Tcb}
      (hencolado : s.solicitante = .encolado tcb) :
      CasoIo s d .avisar
        { s with semIoRequest := s.semIoRequest + 1, solicitante := .avisado tcb } d
  | bloquear {tcb : Tcb}
      (havisado : s.solicitante = .avisado tcb) :
      CasoIo s d .bloquear
        { s with
          listBlockedTcb := s.listBlockedTcb ++ [{ tcb with state := .blocked }]
          solicitante := .libre }
        { d with porIo := d.porIo ++ [tcb.hilo] }
  | esperar {n : Nat}
      (hespera : s.dispositivo = .espera) :
      CasoIo s d .esperar { s with semIoRequest := n, dispositivo := .despierto } d
  | vacia
      (hdespierto : s.dispositivo = .despierto) :
      CasoIo s d .extraer { s with dispositivo := .espera } d
  | extraer {request : IoRequest} {resto : List IoRequest}
      (hdespierto : s.dispositivo = .despierto)
      (hqueue : s.ioRequestQueue = request :: resto) :
      CasoIo s d .extraer
        { s with ioRequestQueue := resto, dispositivo := .sirviendo request } d
  | descartar {request : IoRequest}
      (hsirve : s.dispositivo = .sirviendo request)
      (hnone : ∀ t ∈ s.listBlockedTcb, ¬ (t.parentPid = request.pid ∧ t.tid = request.tid)) :
      CasoIo s d .retirar
        { s with dispositivo := .espera }
        { d with servidos := d.servidos ++ [request] }
  | retirar {request : IoRequest} {l m : List Tcb} {tcb : Tcb}
      (hsirve : s.dispositivo = .sirviendo request)
      (hblocked : s.listBlockedTcb = l ++ tcb :: m)
      (hident : tcb.ident = (request.pid, request.tid))
      (hantes : ∀ u ∈ l, ¬ (u.parentPid = request.pid ∧ u.tid = request.tid)) :
      CasoIo s d .retirar
        { s with listBlockedTcb := l ++ m, dispositivo := .retirado request tcb }
        { d with
          servidos := d.servidos ++ [request]
          porIo := d.porIo.erase tcb.hilo }
  | poner {request : IoRequest} {tcb : Tcb}
      (hretirado : s.dispositivo = .retirado request tcb) :
      CasoIo s d .poner
        { s with
          listReadyTcb := s.listReadyTcb ++ [{ tcb with state := .ready }]
          dispositivo := .puesto request }
        { d with puestos := d.puestos ++ [tcb.hilo] }
  | publicar {request : IoRequest}
      (hpuesto : s.dispositivo = .puesto request) :
      CasoIo s d .publicar
        { s with semThreadCount := s.semThreadCount + 1, dispositivo := .espera }
        { d with posts := d.posts + 1 }

theorem casoIo_of_solicitante
    {s s' : Partes} {d : Diario} {e : EventoIo}
    (h : pasoSolicitante s e = some s') :
    CasoIo s d e s' (d.registrar s e) := by
  cases e with
  | planificar i =>
      simp only [pasoSolicitante] at h
      split at h
      · rename_i n tcb hlibre _ htcb
        cases h
        obtain ⟨hlt, hget⟩ := List.getElem?_eq_some_iff.mp htcb
        have hready : s.listReadyTcb =
            s.listReadyTcb.take i ++ tcb :: s.listReadyTcb.drop (i + 1) := by
          rw [← hget, ← List.drop_eq_getElem_cons hlt, List.take_append_drop]
        rw [List.eraseIdx_eq_take_drop_succ]
        exact CasoIo.planificar hlibre hready
      · cases h
  | desalojar =>
      simp only [pasoSolicitante] at h
      split at h
      · rename_i tcb hejecuta
        cases h
        exact CasoIo.desalojar hejecuta
      · cases h
  | encolar ioTime =>
      simp only [pasoSolicitante] at h
      split at h
      · rename_i tcb hejecuta
        cases h
        simp only [Diario.registrar, hejecuta]
        exact CasoIo.encolar hejecuta
      · cases h
  | avisar =>
      simp only [pasoSolicitante] at h
      split at h
      · rename_i tcb hencolado
        cases h
        exact CasoIo.avisar hencolado
      · cases h
  | bloquear =>
      simp only [pasoSolicitante] at h
      split at h
      · rename_i tcb havisado
        cases h
        simp only [Diario.registrar, havisado]
        exact CasoIo.bloquear havisado
      · cases h
  | _ =>
      cases h

theorem casoIo_of_dispositivo
    {s s' : Partes} {d : Diario} {e : EventoIo}
    (h : pasoDispositivo s e = some s') :
    CasoIo s d e s' (d.registrar s e) := by
  cases e with
  | esperar =>
      simp only [pasoDispositivo] at h
      split at h
      · rename_i n hespera _
        cases h
        exact CasoIo.esperar hespera
      · cases h
  | extraer =>
      simp only [pasoDispositivo] at h
      split at h
      · rename_i hdespierto _
        cases h
        exact CasoIo.vacia hdespierto
      · rename_i request resto hdespierto hqueue
        cases h
        exact CasoIo.extraer hdespierto hqueue
      · cases h
  | retirar =>
      simp only [pasoDispositivo] at h
      split at h
      · rename_i request hsirve
        rcases removeTcbFromList_cases s.listBlockedTcb request.pid request.tid with
          ⟨l, tcb, m, hblocked, hpid, htid, hantes, hremove⟩ | ⟨hnone, hremove⟩
        · rw [hremove] at h
          cases h
          simp only [Diario.registrar, hsirve, hremove]
          exact CasoIo.retirar hsirve hblocked (Tcb.ident_eq.mpr ⟨hpid, htid⟩) hantes
        · rw [hremove] at h
          cases h
          simp only [Diario.registrar, hsirve, hremove]
          exact CasoIo.descartar hsirve hnone
      · cases h
  | poner =>
      simp only [pasoDispositivo] at h
      split at h
      · rename_i request tcb hretirado
        cases h
        simp only [Diario.registrar, hretirado]
        exact CasoIo.poner hretirado
      · cases h
  | publicar =>
      simp only [pasoDispositivo] at h
      split at h
      · rename_i request hpuesto
        cases h
        simp only [Diario.registrar, hpuesto]
        exact CasoIo.publicar hpuesto
      · cases h
  | _ =>
      cases h

/-- A step is one of the cases. -/
theorem casoIo_of_paso
    {x y : Observado} {e : EventoIo}
    (h : pasoObservado x e = some y) :
    CasoIo x.partes x.diario e y.partes y.diario := by
  obtain ⟨s, hs, hy⟩ := Option.bind_eq_some_iff.mp h
  cases hy
  unfold pasoIo at hs
  split at hs
  · rename_i s' hsolicitante
    cases hs
    exact casoIo_of_solicitante hsolicitante
  · exact casoIo_of_dispositivo hs

/-- The invariant behind `NoPierde`: the threads in BLOCKED through IO, in the order in
which they got there, and the one that is about to, are those of the requests that are
queued or in service; no thread is in two places. -/
structure Sano (s : Partes) (d : Diario) : Prop where
  enOrden : d.pedidos.map Prod.snd =
    d.servidos ++ (s.dispositivo.enServicio ++ s.ioRequestQueue)
  unMovimiento : d.puestos ++ s.dispositivo.enMano =
    (d.pedidos.take d.servidos.length).map Prod.fst
  unPost : d.posts + s.dispositivo.debe = d.puestos.length
  fila : d.porIo ++ s.solicitante.pendiente = d.enCurso
  dentro : d.porIo.Sublist (s.listBlockedTcb.map Tcb.hilo)
  distintos : s.hilos.Nodup
  propias : ∀ p ∈ d.pedidos, p.1.ident = (p.2.pid, p.2.tid)

section Invariante

variable {s s' : Partes} {d d' : Diario}

theorem Sano.servidos_le
    (h : Sano s d) :
    d.servidos.length ≤ d.pedidos.length := by
  have hlength := congrArg List.length h.enOrden
  simp only [List.length_map, List.length_append] at hlength
  omega

theorem Sano.noPierde
    {x : Observado}
    (h : Sano x.partes x.diario) :
    NoPierde x where
  enOrden := h.enOrden
  unaSolicitud := by
    intro t ht hio
    have hnodup : (x.partes.listBlockedTcb.map Tcb.hilo ++
        x.partes.solicitante.hilo).Nodup := by
      have hdistintos := h.distintos
      simp only [Partes.hilos, List.nodup_append, List.mem_append] at hdistintos ⊢
      obtain ⟨_, ⟨hblocked, ⟨hsolicitante, _⟩, hapart⟩, _⟩ := hdistintos
      exact ⟨hblocked, hsolicitante, fun a ha b hb => hapart a ha b (Or.inl hb)⟩
    have hpendiente : x.partes.solicitante.pendiente.Sublist x.partes.solicitante.hilo := by
      cases x.partes.solicitante <;> simp [Solicitante.pendiente, Solicitante.hilo]
    rw [← h.fila]
    refine List.count_eq_one_of_mem ?_ (List.mem_append_left _ hio)
    exact hnodup.sublist (h.dentro.append hpendiente)
  unMovimiento := h.unMovimiento
  unPost := h.unPost

/-- While the device serves a request, that request is the oldest one. -/
theorem Sano.cabeza
    {request : IoRequest}
    (h : Sano s d)
    (hsirve : s.dispositivo = .sirviendo request) :
    ∃ ante hilo resto, d.pedidos = ante ++ (hilo, request) :: resto ∧
      ante.length = d.servidos.length ∧ hilo.ident = (request.pid, request.tid) := by
  have horden := h.enOrden
  simp only [hsirve, Dispositivo.enServicio] at horden
  obtain ⟨ante, cola, hpedidos, hante, hcola⟩ := List.map_eq_append_iff.mp horden
  obtain ⟨p, resto, rfl, hp, _⟩ := List.map_eq_cons_iff.mp hcola
  obtain ⟨hilo, r⟩ := p
  cases hp
  have hpropia := h.propias (hilo, r) (by simp [hpedidos])
  exact ⟨ante, hilo, resto, hpedidos, by rw [← hante, List.length_map], hpropia⟩

theorem Diario.enCurso_of_split
    {ante resto : List (Hilo × IoRequest)} {hilo : Hilo} {request : IoRequest}
    (hpedidos : d.pedidos = ante ++ (hilo, request) :: resto)
    (hante : ante.length = d.servidos.length) :
    d.enCurso = hilo :: resto.map Prod.fst := by
  rw [Diario.enCurso, hpedidos, ← hante, List.drop_left]
  rfl

/-- The thread of the request in service is in BLOCKED, or about to be. -/
theorem Sano.buscado
    {hilo : Hilo} {resto : List Hilo}
    (h : Sano s d)
    (hcurso : d.enCurso = hilo :: resto)
    (hlisto : hilo ∉ s.solicitante.pendiente) :
    d.porIo.head? = some hilo ∧ hilo ∈ s.listBlockedTcb.map Tcb.hilo := by
  have hfila := h.fila
  rw [hcurso] at hfila
  cases hporIo : d.porIo with
  | nil =>
      rw [hporIo, List.nil_append] at hfila
      rw [hfila] at hlisto
      exact absurd List.mem_cons_self hlisto
  | cons h₁ porIo =>
      rw [hporIo, List.cons_append, List.cons.injEq] at hfila
      obtain ⟨rfl, _⟩ := hfila
      refine ⟨rfl, h.dentro.subset ?_⟩
      rw [hporIo]
      exact List.mem_cons_self

/-- A thread that is about to enter BLOCKED is not there. -/
theorem Sano.pendiente_fuera
    {hilo : Hilo}
    (h : Sano s d)
    (hpendiente : hilo ∈ s.solicitante.pendiente) :
    hilo ∉ s.listBlockedTcb.map Tcb.hilo := by
  intro hblocked
  have hhilo : hilo ∈ s.solicitante.hilo := by
    cases hs : s.solicitante <;> simp_all [Solicitante.pendiente, Solicitante.hilo]
  have hdistintos := h.distintos
  simp only [Partes.hilos, List.nodup_append, List.mem_append] at hdistintos
  exact hdistintos.2.1.2.2 hilo hblocked hilo (Or.inl hhilo) rfl

/-- Threads change places; none appears or goes away. -/
theorem CasoIo.hilos_perm
    {e : EventoIo}
    (h : CasoIo s d e s' d') :
    s'.hilos.Perm s.hilos := by
  apply List.perm_iff_count.mpr
  intro a
  cases h with
  | planificar hlibre hready =>
      simp only [Partes.hilos, hlibre, hready, Solicitante.hilo, List.map_append, List.map_cons,
        List.count_append, List.count_cons, List.count_nil]
      omega
  | desalojar hejecuta =>
      simp only [Partes.hilos, hejecuta, Solicitante.hilo, List.map_append, List.map_cons,
        List.map_nil, List.count_append, List.count_cons, List.count_nil]
      omega
  | encolar hejecuta =>
      simp only [Partes.hilos, hejecuta, Solicitante.hilo]
  | avisar hencolado =>
      simp only [Partes.hilos, hencolado, Solicitante.hilo]
  | bloquear havisado =>
      simp only [Partes.hilos, havisado, Solicitante.hilo, List.map_append, List.map_cons,
        List.map_nil, Tcb.hilo_with_state, List.count_append, List.count_cons, List.count_nil]
      omega
  | esperar hespera =>
      simp only [Partes.hilos, hespera, Dispositivo.enMano]
  | vacia hdespierto =>
      simp only [Partes.hilos, hdespierto, Dispositivo.enMano]
  | extraer hdespierto _ =>
      simp only [Partes.hilos, hdespierto, Dispositivo.enMano]
  | descartar hsirve _ =>
      simp only [Partes.hilos, hsirve, Dispositivo.enMano]
  | retirar hsirve hblocked _ _ =>
      simp only [Partes.hilos, hsirve, hblocked, Dispositivo.enMano, List.map_append,
        List.map_cons, List.count_append, List.count_cons, List.count_nil]
      omega
  | poner hretirado =>
      simp only [Partes.hilos, hretirado, Dispositivo.enMano, List.map_append, List.map_cons,
        List.map_nil, Tcb.hilo_with_state, List.count_append, List.count_cons, List.count_nil]
      omega
  | publicar hpuesto =>
      simp only [Partes.hilos, hpuesto, Dispositivo.enMano]

/-- A new request goes behind the others. -/
theorem Sano.encolar
    {ioTime : Nat} {tcb : Tcb}
    (h : Sano s d)
    (hejecuta : s.solicitante = .ejecutando tcb)
    (hdistintos : ({ s with
      ioRequestQueue := s.ioRequestQueue ++ [solicitud tcb ioTime]
      solicitante := .encolado tcb } : Partes).hilos.Nodup) :
    Sano
      { s with
        ioRequestQueue := s.ioRequestQueue ++ [solicitud tcb ioTime]
        solicitante := .encolado tcb }
      { d with pedidos := d.pedidos ++ [(tcb.hilo, solicitud tcb ioTime)] } where
  enOrden := by simp [h.enOrden]
  unMovimiento := by
    rw [List.take_append_of_le_length h.servidos_le]
    exact h.unMovimiento
  unPost := h.unPost
  fila := by
    have hfila := h.fila
    simp only [hejecuta, Solicitante.pendiente, List.append_nil] at hfila
    simp only [Solicitante.pendiente, hfila, Diario.enCurso,
      List.drop_append_of_le_length h.servidos_le, List.map_append, List.map_cons, List.map_nil]
  dentro := h.dentro
  distintos := hdistintos
  propias := by
    intro p hp
    rcases List.mem_append.mp hp with hp | hp
    · exact h.propias p hp
    · rw [List.mem_singleton.mp hp]
      rfl

/-- The device takes the thread of the oldest request out of BLOCKED. -/
theorem Sano.retirar
    {request : IoRequest} {l m : List Tcb} {tcb : Tcb}
    (h : Sano s d)
    (hsirve : s.dispositivo = .sirviendo request)
    (hblocked : s.listBlockedTcb = l ++ tcb :: m)
    (hsuyo : d.porIo.head? = some tcb.hilo)
    (hdistintos : ({ s with
      listBlockedTcb := l ++ m
      dispositivo := .retirado request tcb } : Partes).hilos.Nodup) :
    Sano
      { s with listBlockedTcb := l ++ m, dispositivo := .retirado request tcb }
      { d with
        servidos := d.servidos ++ [request]
        porIo := d.porIo.erase tcb.hilo } := by
  obtain ⟨ante, hilo, resto, hpedidos, hante, _⟩ := h.cabeza hsirve
  obtain ⟨porIo, hporIo⟩ : ∃ porIo, d.porIo = tcb.hilo :: porIo := by
    cases hp : d.porIo with
    | nil =>
        simp [hp] at hsuyo
    | cons x porIo =>
        rw [hp] at hsuyo
        cases hsuyo
        exact ⟨porIo, rfl⟩
  have hfila := h.fila
  rw [Diario.enCurso_of_split hpedidos hante, hporIo, List.cons_append,
    List.cons.injEq] at hfila
  obtain ⟨rfl, hfila⟩ := hfila
  have hpedidos' : d.pedidos = (ante ++ [(tcb.hilo, request)]) ++ resto := by
    simp [hpedidos]
  have hlength : (d.servidos ++ [request]).length =
      (ante ++ [(tcb.hilo, request)]).length := by
    simp [hante]
  constructor
  case enOrden =>
    have horden := h.enOrden
    simp only [hsirve, Dispositivo.enServicio] at horden
    simp [horden, Dispositivo.enServicio]
  case unMovimiento =>
    have hmovimiento := h.unMovimiento
    simp only [hsirve, Dispositivo.enMano, List.append_nil, hpedidos, ← hante,
      List.take_left] at hmovimiento
    simp only [hlength, hpedidos', List.take_left, hmovimiento, Dispositivo.enMano,
      List.map_append, List.map_cons, List.map_nil]
  case unPost =>
    have hpost := h.unPost
    simp only [hsirve, Dispositivo.debe] at hpost
    exact hpost
  case fila =>
    simp only [hporIo, List.erase_cons_head, hfila, Diario.enCurso, hlength, hpedidos',
      List.drop_left]
  case dentro =>
    have hfuera : tcb.hilo ∉ l.map Tcb.hilo := by
      have hnodup := h.distintos
      simp only [Partes.hilos, hblocked, List.map_append, List.map_cons, List.nodup_append,
        List.mem_append, List.mem_cons] at hnodup
      intro hmem
      exact hnodup.2.1.1.2.2 _ hmem _ (Or.inl rfl) rfl
    have hsub := h.dentro.erase tcb.hilo
    rw [hblocked, List.map_append, List.map_cons, List.erase_append_right _ hfuera,
      List.erase_cons_head, ← List.map_append] at hsub
    exact hsub
  case distintos =>
    exact hdistintos
  case propias =>
    exact h.propias

/-- A search that is guarded finds the thread of the request. -/
theorem Sano.encuentra
    {hilo : Hilo} {request : IoRequest} {l m : List Tcb} {tcb : Tcb}
    (hident : hilo.ident = (request.pid, request.tid))
    (hblocked : s.listBlockedTcb = l ++ tcb :: m)
    (htcb : tcb.ident = (request.pid, request.tid))
    (hantes : ∀ u ∈ l, ¬ (u.parentPid = request.pid ∧ u.tid = request.tid))
    (hprimero : ∀ u ∈ (s.listBlockedTcb.map Tcb.hilo).takeWhile (· ≠ hilo),
      u.ident ≠ hilo.ident) :
    tcb.hilo = hilo := by
  by_contra hotro
  have hl : ∀ u ∈ l.map Tcb.hilo, decide (u ≠ hilo) = true := by
    intro u hu
    obtain ⟨t, ht, rfl⟩ := List.mem_map.mp hu
    have hne : t.hilo ≠ hilo := by
      rintro rfl
      exact hantes t ht (Tcb.ident_eq.mp hident)
    exact decide_eq_true hne
  have hmem : tcb.hilo ∈ (s.listBlockedTcb.map Tcb.hilo).takeWhile (· ≠ hilo) := by
    rw [hblocked, List.map_append, List.map_cons, List.takeWhile_append_of_pos hl,
      List.takeWhile_cons_of_pos (by simpa using hotro)]
    exact List.mem_append_right _ List.mem_cons_self
  exact hprimero tcb.hilo hmem (htcb.trans hident.symm)

/-- Every guarded step keeps the invariant. -/
theorem Sano.paso
    {e : EventoIo}
    (h : Sano s d)
    (hcaso : CasoIo s d e s' d')
    (hok : BuscaBloqueado ⟨s, d⟩ e) :
    Sano s' d' := by
  have hdistintos : s'.hilos.Nodup := hcaso.hilos_perm.nodup_iff.mpr h.distintos
  cases hcaso with
  | planificar hlibre _ =>
      have hfila := h.fila
      rw [hlibre] at hfila
      exact { h with fila := hfila, distintos := hdistintos }
  | desalojar hejecuta =>
      have hfila := h.fila
      rw [hejecuta] at hfila
      exact { h with fila := hfila, distintos := hdistintos }
  | encolar hejecuta =>
      exact h.encolar hejecuta hdistintos
  | avisar hencolado =>
      have hfila := h.fila
      rw [hencolado] at hfila
      exact { h with fila := hfila, distintos := hdistintos }
  | @bloquear tcb havisado =>
      have hfila := h.fila
      rw [havisado] at hfila
      constructor
      case fila =>
        exact (List.append_nil _).trans hfila
      case dentro =>
        have hsub := h.dentro.append (List.Sublist.refl [tcb.hilo])
        simpa using hsub
      case distintos =>
        exact hdistintos
      case enOrden =>
        exact h.enOrden
      case unMovimiento =>
        exact h.unMovimiento
      case unPost =>
        exact h.unPost
      case propias =>
        exact h.propias
  | esperar hespera =>
      have horden := h.enOrden
      have hmovimiento := h.unMovimiento
      have hpost := h.unPost
      rw [hespera] at horden hmovimiento hpost
      exact { h with
        enOrden := horden
        unMovimiento := hmovimiento
        unPost := hpost
        distintos := hdistintos }
  | vacia hdespierto =>
      have horden := h.enOrden
      have hmovimiento := h.unMovimiento
      have hpost := h.unPost
      rw [hdespierto] at horden hmovimiento hpost
      exact { h with
        enOrden := horden
        unMovimiento := hmovimiento
        unPost := hpost
        distintos := hdistintos }
  | extraer hdespierto hqueue =>
      have horden := h.enOrden
      have hmovimiento := h.unMovimiento
      have hpost := h.unPost
      rw [hdespierto] at horden hmovimiento hpost
      rw [hqueue] at horden
      exact { h with
        enOrden := horden
        unMovimiento := hmovimiento
        unPost := hpost
        distintos := hdistintos }
  | descartar hsirve hnone =>
      obtain ⟨ante, hilo, resto, hpedidos, hante, hident⟩ := h.cabeza hsirve
      have hcurso := Diario.enCurso_of_split hpedidos hante
      have hmira := hok rfl hilo (by simp [hcurso])
      obtain ⟨_, hblocked⟩ := h.buscado hcurso hmira.1
      obtain ⟨t, ht, rfl⟩ := List.mem_map.mp hblocked
      exact absurd (Tcb.ident_eq.mp hident) (hnone t ht)
  | retirar hsirve hblocked htcb hantes =>
      obtain ⟨ante, hilo, resto, hpedidos, hante, hident⟩ := h.cabeza hsirve
      have hcurso := Diario.enCurso_of_split hpedidos hante
      have hmira := hok rfl hilo (by simp [hcurso])
      have hhilo := Sano.encuentra hident hblocked htcb hantes hmira.2
      obtain ⟨hprimero, _⟩ := h.buscado hcurso hmira.1
      rw [← hhilo] at hprimero
      exact h.retirar hsirve hblocked hprimero hdistintos
  | poner hretirado =>
      have horden := h.enOrden
      have hmovimiento := h.unMovimiento
      have hpost := h.unPost
      rw [hretirado] at horden hmovimiento hpost
      constructor
      case enOrden =>
        exact horden
      case unMovimiento =>
        simpa [Dispositivo.enMano] using hmovimiento
      case unPost =>
        simpa [Dispositivo.debe] using hpost
      case distintos =>
        exact hdistintos
      case fila =>
        exact h.fila
      case dentro =>
        exact h.dentro
      case propias =>
        exact h.propias
  | publicar hpuesto =>
      have horden := h.enOrden
      have hmovimiento := h.unMovimiento
      have hpost := h.unPost
      rw [hpuesto] at horden hmovimiento hpost
      exact { h with
        enOrden := horden
        unMovimiento := hmovimiento
        unPost := hpost
        distintos := hdistintos }

/-- A step that is not guarded loses a thread or moves another one. -/
theorem Sano.pierde
    {e : EventoIo}
    (h : Sano s d)
    (hcaso : CasoIo s d e s' d')
    (hno : ¬ BuscaBloqueado ⟨s, d⟩ e) :
    ¬ NoPierde ⟨s', d'⟩ := by
  intro hbien
  cases hcaso with
  | @descartar request hsirve _ =>
      obtain ⟨ante, hilo, resto, hpedidos, hante, _⟩ := h.cabeza hsirve
      have hmovimiento := congrArg List.length h.unMovimiento
      have hmovimiento' := congrArg List.length hbien.unMovimiento
      simp only [hsirve, Dispositivo.enMano, hpedidos, List.length_append, List.length_map,
        List.length_take, List.length_cons, List.length_nil] at hmovimiento hmovimiento'
      omega
  | @retirar request l m tcb hsirve hblocked htcb hantes =>
      obtain ⟨ante, hilo, resto, hpedidos, hante, _⟩ := h.cabeza hsirve
      have hcurso := Diario.enCurso_of_split hpedidos hante
      -- the device moves the TCB that it finds, so it has to be the one of the request
      have hhilo : tcb.hilo = hilo := by
        have hmovimiento := h.unMovimiento
        have hmovimiento' := hbien.unMovimiento
        have hpedidos' : d.pedidos = (ante ++ [(hilo, request)]) ++ resto := by
          simp [hpedidos]
        have hlength : (d.servidos ++ [request]).length =
            (ante ++ [(hilo, request)]).length := by
          simp [hante]
        simp only [hsirve, Dispositivo.enMano, List.append_nil, hpedidos, ← hante,
          List.take_left] at hmovimiento
        simp only [Dispositivo.enMano, hlength, hpedidos', List.take_left, hmovimiento,
          List.map_append, List.map_cons, List.map_nil] at hmovimiento'
        simpa using hmovimiento'
      apply hno
      intro _ u hu
      rw [hcurso, List.head?_cons, Option.mem_some_iff] at hu
      subst hu
      have hdentro : tcb.hilo ∈ s.listBlockedTcb.map Tcb.hilo := by
        simp [hblocked]
      constructor
      · intro hpendiente
        exact h.pendiente_fuera hpendiente (hhilo ▸ hdentro)
      · intro u hu
        have hl : u ∈ l.map Tcb.hilo := by
          rw [hblocked, List.map_append, List.map_cons, List.takeWhile_append] at hu
          split at hu
          · rw [List.takeWhile_cons_of_neg (by simp [hhilo]), List.append_nil] at hu
            exact hu
          · exact (List.takeWhile_prefix _).subset hu
        obtain ⟨t, ht, rfl⟩ := List.mem_map.mp hl
        intro hu
        have hmismo : t.ident = (request.pid, request.tid) := by
          rw [← htcb, ← Tcb.hilo_ident t, ← Tcb.hilo_ident tcb, hhilo, hu]
        exact hantes t ht (Tcb.ident_eq.mp hmismo)
  | _ =>
      exact hno (by simp [BuscaBloqueado])

/-- Threads that are in one place each, and no request: the invariant holds. -/
theorem sano_inicio
    {ready blocked : List Tcb} {semThreadCount : Nat}
    (hdistintos : ((ready ++ blocked).map Tcb.hilo).Nodup) :
    Sano (inicioIo ready blocked semThreadCount) Diario.vacio where
  enOrden := rfl
  unMovimiento := rfl
  unPost := rfl
  fila := rfl
  dentro := List.nil_sublist _
  distintos := by
    simpa [Partes.hilos, inicioIo, Solicitante.hilo, Dispositivo.enMano] using hdistintos
  propias := by simp [Diario.vacio]

end Invariante

/-- The runs of the two parties in which no thread is lost are those in which the
device, when it looks for the thread of a request, finds it in BLOCKED, where
`request_io` puts it after the request is visible, and finds no other one first. -/
theorem io_loses_no_thread_iff
    {ready blocked : List Tcb} {semThreadCount : Nat} {es : List EventoIo} {x : Observado}
    (hdistintos : ((ready ++ blocked).map Tcb.hilo).Nodup) :
    CorridaIo BuscaBloqueado ready blocked semThreadCount es x ↔
      CorridaIo (fun a _ => NoPierde a) ready blocked semThreadCount es x ∧ NoPierde x := by
  apply Run.guarded_iff_of_strong (S := fun a => Sano a.partes a.diario)
  case hstart =>
    exact sano_inicio hdistintos
  case hweak =>
    intro a h
    exact h.noPierde
  case hstep =>
    intro a b e h hpaso hok
    exact h.paso (casoIo_of_paso hpaso) hok
  case hbad =>
    intro a b e h hpaso hno
    exact h.pierde (casoIo_of_paso hpaso) hno

/-- A thread. -/
def hiloDe (dir tid : Nat) : Tcb where
  dir := dir
  tid := tid
  parentPid := 1
  priority := 0
  state := .ready
  filePath := []

/-- Two threads ask for IO, one after the other, and both come back. -/
theorem io_loses_no_thread_two_requests :
    ∃ es x, CorridaIo BuscaBloqueado [hiloDe 0 0, hiloDe 1 1] [hiloDe 2 2] 2 es x ∧
      NoPierde x ∧ x.diario.posts = 2 := by
  have hrun : CorridaIo BuscaBloqueado [hiloDe 0 0, hiloDe 1 1] [hiloDe 2 2] 2
      [.planificar 0, .encolar 5, .avisar, .bloquear, .planificar 0, .esperar, .extraer,
        .encolar 0, .retirar, .avisar, .poner, .bloquear, .publicar, .esperar, .extraer,
        .retirar, .poner, .publicar] _ :=
    run_of_isSome pasoObservado id (by decide) (by decide)
  exact ⟨_, _, hrun, ((io_loses_no_thread_iff (by decide)).mp hrun).2, by decide⟩

/-- With an IO time of 0 the device can look for the thread before `request_io` has put
it in BLOCKED: the request is dropped and the thread stays there for ever. -/
theorem io_time_zero_loses_thread :
    ¬ ∀ (ready blocked : List Tcb) (semThreadCount : Nat) (es : List EventoIo) (x : Observado),
      ((ready ++ blocked).map Tcb.hilo).Nodup →
      CorridaIo anyLabel ready blocked semThreadCount es x → NoPierde x := by
  intro h
  have hrun : CorridaIo anyLabel [hiloDe 0 0] [] 1
      [.planificar 0, .encolar 0, .avisar, .esperar, .extraer, .retirar, .bloquear] _ :=
    run_of_isSome pasoObservado id (by decide) (by decide)
  have hbien := h _ _ _ _ _ (by decide) hrun
  have hnada := hbien.unaSolicitud { hiloDe 0 0 with state := .blocked } (by decide) (by decide)
  revert hnada
  decide

end Kernel
end SinIdeas
