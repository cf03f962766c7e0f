import SinIdeas.Kernel.Quantum

/-!
# Steps of the quantum

Everything a step of the kernel, the timer, the sender of interruptions or the CPU
can do, case by case, and what holds of the connection between the kernel and the
CPU in every run: while the dispatcher waits for an answer there is one dispatch,
one thread on the CPU or one answer, and otherwise there is none.
-/

namespace SinIdeas
namespace Kernel

open Lib

variable {μ : Type}

/-- Everything a step can do, and what is written down. -/
inductive CasoVigilado (cfg : Config μ) (s : Sistema μ) (r : Registro) :
    Accion → Sistema μ → Registro → Prop
  | agenda {k : Globals μ} {previo : Option Tcb} {proximo : Tcb}
      (hfase : s.kernel.fase = .planificar false previo)
      (hejecuta : k.fase = .ejecutando proximo)
      (hflag : k.quantumInterrupted = s.kernel.quantumInterrupted)
      (hviejos : k.listaTcbsBlockeados = s.kernel.listaTcbsBlockeados)
      (hsem : k.semQuantum =
        if cfg.schedulerAlgorithm = .cmn then s.kernel.semQuantum + 1
        else s.kernel.semQuantum) :
      CasoVigilado cfg s r (.kernel .despachar)
        { s with
          kernel := k
          despachos := s.despachos ++ [(proximo.parentPid, proximo.tid)] }
        { r with
          turno := r.turno + 1
          turnos := r.turnos ++ [r.turno + 1]
          armado := if cfg.schedulerAlgorithm = .cmn then true else r.armado
          vencido := false }
  | sigue {k : Globals μ} {previo : Option Tcb} {proximo : Tcb}
      (hfase : s.kernel.fase = .planificar true previo)
      (hejecuta : k.fase = .ejecutando proximo)
      (hflag : k.quantumInterrupted = s.kernel.quantumInterrupted)
      (hviejos : k.listaTcbsBlockeados = s.kernel.listaTcbsBlockeados)
      (hsem : k.semQuantum = s.kernel.semQuantum) :
      CasoVigilado cfg s r (.kernel .despachar)
        { s with
          kernel := k
          despachos := s.despachos ++ [(proximo.parentPid, proximo.tid)] }
        { r with turnos := r.turnos ++ [r.turno], vencido := false }
  | respuesta {m : Mensaje Nat} {k : Globals μ} {resto : List (Mensaje Nat)} {proximo : Tcb}
      (hrespuestas : s.respuestas = m :: resto)
      (hfase : s.kernel.fase = .ejecutando proximo)
      (hsuelta : ∀ t, k.fase ≠ .ejecutando t)
      (hflag : k.quantumInterrupted = true)
      (hsem : k.semQuantum = s.kernel.semQuantum)
      (hviejos : k.listaTcbsBlockeados = s.kernel.listaTcbsBlockeados) :
      CasoVigilado cfg s r (.kernel (.respuesta m))
        { s with kernel := k, respuestas := resto }
        { r with armado := false }
  | otro {e : Evento} {k : Globals μ}
      (hotro : e ≠ .despachar)
      (hreloj : MismoReloj s.kernel k)
      (hfase : ∀ t, k.fase = .ejecutando t ↔ s.kernel.fase = .ejecutando t) :
      CasoVigilado cfg s r (.kernel e) { s with kernel := k } r
  | tomarQuantum {n : Nat}
      (hespera : s.temporizador = .espera)
      (hsem : s.kernel.semQuantum = n + 1) :
      CasoVigilado cfg s r .tomarQuantum
        { s with kernel := { s.kernel with semQuantum := n }, temporizador := .tomado }
        { r with tomados := r.tomados + 1 }
  | reiniciar
      (htomado : s.temporizador = .tomado) :
      CasoVigilado cfg s r .reiniciar
        { s with
          kernel := { s.kernel with quantumInterrupted := false }
          temporizador := .contando } r
  | salirDelBucle
      (hcuenta : s.temporizador = .contando) :
      CasoVigilado cfg s r .salirDelBucle { s with temporizador := .comprobando } r
  | interrumpido
      (hcomprueba : s.temporizador = .comprobando)
      (hflag : s.kernel.quantumInterrupted = true) :
      CasoVigilado cfg s r .comprobar { s with temporizador := .espera } r
  | completado
      (hcomprueba : s.temporizador = .comprobando)
      (hflag : s.kernel.quantumInterrupted = false) :
      CasoVigilado cfg s r .comprobar
        { s with temporizador := .completado (.quantum r.tomados r.turno) }
        { r with vencido := true }
  | pedirMutex {n : Nat} {marca : Marca}
      (hcompletado : s.temporizador = .completado marca) :
      CasoVigilado cfg s r .pedirMutex
        { s with mutexQuantumInterruption := n, temporizador := .conMutex marca } r
  | marcar {marca : Marca}
      (hmutex : s.temporizador = .conMutex marca) :
      CasoVigilado cfg s r .marcar
        { s with quantumInterruption := some marca, temporizador := .marcado } r
  | avisar
      (hmarcado : s.temporizador = .marcado) :
      CasoVigilado cfg s r .avisar
        { s with
          sincroInterrupcion := s.sincroInterrupcion + 1
          temporizador := .avisado } r
  | soltarMutex
      (havisado : s.temporizador = .avisado) :
      CasoVigilado cfg s r .soltarMutex
        { s with
          mutexQuantumInterruption := s.mutexQuantumInterruption + 1
          temporizador := .espera } r
  | despertarEmisor {n : Nat}
      (hespera : s.emisor = .espera) :
      CasoVigilado cfg s r .despertarEmisor
        { s with sincroInterrupcion := n, emisor := .despierto } r
  | elegir {marca : Marca}
      (hdespierto : s.emisor = .despierto)
      (helige : s.quantumInterruption = some marca ∨
        marca = .kernel ∧ s.kernelInterruption = true) :
      CasoVigilado cfg s r .elegir { s with emisor := .eligio marca } r
  | nadaQueEnviar
      (hdespierto : s.emisor = .despierto) :
      CasoVigilado cfg s r .elegir { s with emisor := .espera } r
  | enviar {marca : Marca} {emisor : Emisor}
      (heligio : s.emisor = .eligio marca)
      (henviado : emisor = .enviado ∨ emisor = .enviadoKernel) :
      CasoVigilado cfg s r .enviar
        { s with conexionInterrupt := s.conexionInterrupt ++ [marca], emisor := emisor } r
  | pedirMutexEmisor {n : Nat}
      (henviado : s.emisor = .enviado) :
      CasoVigilado cfg s r .pedirMutexEmisor
        { s with mutexQuantumInterruption := n, emisor := .conMutex } r
  | limpiar
      (hmutex : s.emisor = .conMutex) :
      CasoVigilado cfg s r .limpiar
        { s with quantumInterruption := none, emisor := .limpio } r
  | limpiarKernel
      (henviado : s.emisor = .enviadoKernel) :
      CasoVigilado cfg s r .limpiar
        { s with kernelInterruption := false, emisor := .espera } r
  | soltarMutexEmisor
      (hlimpio : s.emisor = .limpio) :
      CasoVigilado cfg s r .soltarMutexEmisor
        { s with
          mutexQuantumInterruption := s.mutexQuantumInterruption + 1
          emisor := .espera } r
  | escuchar {marca : Marca} {resto : List Marca}
      (hconexion : s.conexionInterrupt = marca :: resto) :
      CasoVigilado cfg s r .escuchar
        { s with conexionInterrupt := resto, interrupcion := some marca } r
  | recibir {pid tid : Nat} {resto : List (Nat × Nat)}
      (hlibre : s.cpu = .libre)
      (hdespachos : s.despachos = (pid, tid) :: resto) :
      CasoVigilado cfg s r .recibir
        { s with despachos := resto, cpu := .ejecutando pid tid } r
  | instruccion {pid tid : Nat}
      (hejecuta : s.cpu = .ejecutando pid tid) :
      CasoVigilado cfg s r .instruccion { s with cpu := .chequeando pid tid } r
  | responder {m : Mensaje Nat} {pid tid : Nat}
      (hejecuta : s.cpu = .ejecutando pid tid) :
      CasoVigilado cfg s r (.responder m)
        { s with respuestas := s.respuestas ++ [m], cpu := .libre }
        { r with contestados := r.contestados ++ [none] }
  | interrumpir {pid tid : Nat} {marca : Marca}
      (hchequea : s.cpu = .chequeando pid tid)
      (hmarca : s.interrupcion = some marca) :
      CasoVigilado cfg s r .chequear
        { s with
          interrupcion := none
          respuestas := s.respuestas ++ [.kernelInterruption tid pid]
          cpu := .libre }
        { r with contestados := r.contestados ++ [some marca] }
  | seguir {pid tid : Nat}
      (hchequea : s.cpu = .chequeando pid tid)
      (hnada : s.interrupcion = none) :
      CasoVigilado cfg s r .chequear { s with cpu := .ejecutando pid tid } r

section Casos

variable {cfg : Config μ} {s s' : Sistema μ} {r : Registro} {a : Accion}

theorem casoVigilado_of_kernel
    {e : Evento}
    (hviejos : s.kernel.listaTcbsBlockeados = [])
    (h : pasoKernel cfg s e = some s') :
    CasoVigilado cfg s r (.kernel e) s' (r.anotar cfg s (.kernel e)) := by
  have hotro : ∀ {k : Globals μ}, e ≠ .despachar → (∀ m, e ≠ .respuesta m) →
      paso cfg s.kernel e = some k →
      CasoVigilado cfg s r (.kernel e) { s with kernel := k } r := by
    intro k hdespachar hrespuesta hpaso
    obtain ⟨hreloj, hfase⟩ := otro_reloj hviejos hdespachar hrespuesta hpaso
    exact CasoVigilado.otro hdespachar hreloj hfase
  cases e with
  | despachar =>
      obtain ⟨k, hpaso, h⟩ := Option.bind_eq_some_iff.mp h
      obtain ⟨t, ht, h⟩ := Option.bind_eq_some_iff.mp h
      cases h
      obtain ⟨seguir, previo, proximo, hfase, hejecuta, hcurrent, hflag, hold, hsem⟩ :=
        despachar_reloj hpaso
      rw [hcurrent, Option.some.injEq] at ht
      subst ht
      cases seguir with
      | true =>
          simp only [Registro.anotar, hfase, Fase.agenda, Bool.false_eq_true, if_false]
          exact CasoVigilado.sigue hfase hejecuta hflag hold (by simpa using hsem)
      | false =>
          simp only [Registro.anotar, hfase, Fase.agenda, if_true]
          exact CasoVigilado.agenda hfase hejecuta hflag hold (by simpa using hsem)
  | respuesta m =>
      simp only [pasoKernel] at h
      split at h
      · cases h
      · rename_i primera resto hrespuestas
        split_ifs at h with hprimera
        subst hprimera
        obtain ⟨k, hpaso, h⟩ := Option.bind_eq_some_iff.mp h
        cases h
        obtain ⟨⟨proximo, hfase⟩, hsuelta, hflag, hsem, hold⟩ := respuesta_reloj hpaso
        exact CasoVigilado.respuesta hrespuestas hfase hsuelta hflag hsem hold
  | seguirFin =>
      obtain ⟨k, hpaso, h⟩ := Option.bind_eq_some_iff.mp h
      cases h
      exact hotro (by simp) (by simp) hpaso
  | ioFin =>
      obtain ⟨k, hpaso, h⟩ := Option.bind_eq_some_iff.mp h
      cases h
      exact hotro (by simp) (by simp) hpaso
  | dumpRespuesta j res =>
      obtain ⟨k, hpaso, h⟩ := Option.bind_eq_some_iff.mp h
      cases h
      exact hotro (by simp) (by simp) hpaso
  | dumpSeguir j =>
      obtain ⟨k, hpaso, h⟩ := Option.bind_eq_some_iff.mp h
      cases h
      exact hotro (by simp) (by simp) hpaso

theorem casoVigilado_of_temporizador
    (h : pasoTemporizador r.tomados r.turno s a = some s') :
    CasoVigilado cfg s r a s' (r.anotar cfg s a) := by
  cases a with
  | tomarQuantum =>
      simp only [pasoTemporizador] at h
      split at h
      · rename_i n hespera hsem
        cases h
        exact CasoVigilado.tomarQuantum hespera hsem
      · cases h
  | reiniciar =>
      simp only [pasoTemporizador] at h
      split at h
      · rename_i htomado
        cases h
        exact CasoVigilado.reiniciar htomado
      · cases h
  | salirDelBucle =>
      simp only [pasoTemporizador] at h
      split at h
      · rename_i hcuenta
        cases h
        exact CasoVigilado.salirDelBucle hcuenta
      · cases h
  | comprobar =>
      simp only [pasoTemporizador] at h
      split at h
      · rename_i hcomprueba
        split_ifs at h with hflag
        · cases h
          simp only [Registro.anotar, hflag, if_true]
          exact CasoVigilado.interrumpido hcomprueba hflag
        · cases h
          simp only [Registro.anotar, hflag, Bool.false_eq_true, if_false]
          exact CasoVigilado.completado hcomprueba (Bool.not_eq_true _ ▸ hflag)
      · cases h
  | pedirMutex =>
      simp only [pasoTemporizador] at h
      split at h
      · rename_i marca n hcompletado _
        cases h
        exact CasoVigilado.pedirMutex hcompletado
      · cases h
  | marcar =>
      simp only [pasoTemporizador] at h
      split at h
      · rename_i marca hmutex
        cases h
        exact CasoVigilado.marcar hmutex
      · cases h
  | avisar =>
      simp only [pasoTemporizador] at h
      split at h
      · rename_i hmarcado
        cases h
        exact CasoVigilado.avisar hmarcado
      · cases h
  | soltarMutex =>
      simp only [pasoTemporizador] at h
      split at h
      · rename_i havisado
        cases h
        exact CasoVigilado.soltarMutex havisado
      · cases h
  | _ =>
      cases h

theorem casoVigilado_of_emisor
    (h : pasoEmisor s a = some s') :
    CasoVigilado cfg s r a s' (r.anotar cfg s a) := by
  cases a with
  | despertarEmisor =>
      simp only [pasoEmisor] at h
      split at h
      · rename_i n hespera _
        cases h
        exact CasoVigilado.despertarEmisor hespera
      · cases h
  | elegir =>
      simp only [pasoEmisor] at h
      split at h
      · rename_i hdespierto
        split at h
        · rename_i marca hmarca
          cases h
          exact CasoVigilado.elegir hdespierto (Or.inl hmarca)
        · split_ifs at h with hkernel
          · cases h
            exact CasoVigilado.elegir hdespierto (Or.inr ⟨rfl, hkernel⟩)
          · cases h
            exact CasoVigilado.nadaQueEnviar hdespierto
      · cases h
  | enviar =>
      simp only [pasoEmisor] at h
      split at h
      · rename_i n t heligio
        cases h
        exact CasoVigilado.enviar heligio (Or.inl rfl)
      · rename_i heligio
        cases h
        exact CasoVigilado.enviar heligio (Or.inr rfl)
      · cases h
  | pedirMutexEmisor =>
      simp only [pasoEmisor] at h
      split at h
      · rename_i n henviado _
        cases h
        exact CasoVigilado.pedirMutexEmisor henviado
      · cases h
  | limpiar =>
      simp only [pasoEmisor] at h
      split at h
      · rename_i hmutex
        cases h
        exact CasoVigilado.limpiar hmutex
      · rename_i henviado
        cases h
        exact CasoVigilado.limpiarKernel henviado
      · cases h
  | soltarMutexEmisor =>
      simp only [pasoEmisor] at h
      split at h
      · rename_i hlimpio
        cases h
        exact CasoVigilado.soltarMutexEmisor hlimpio
      · cases h
  | _ =>
      cases h

theorem casoVigilado_of_cpu
    (h : pasoCpu s a = some s') :
    CasoVigilado cfg s r a s' (r.anotar cfg s a) := by
  cases a with
  | escuchar =>
      simp only [pasoCpu] at h
      split at h
      · cases h
      · rename_i marca resto hconexion
        cases h
        exact CasoVigilado.escuchar hconexion
  | recibir =>
      simp only [pasoCpu] at h
      split at h
      · rename_i pid tid resto hlibre hdespachos
        cases h
        exact CasoVigilado.recibir hlibre hdespachos
      · cases h
  | instruccion =>
      simp only [pasoCpu] at h
      split at h
      · rename_i pid tid hejecuta
        cases h
        exact CasoVigilado.instruccion hejecuta
      · cases h
  | responder m =>
      simp only [pasoCpu] at h
      split at h
      · rename_i pid tid hejecuta
        split_ifs at h
        cases h
        exact CasoVigilado.responder hejecuta
      · cases h
  | chequear =>
      simp only [pasoCpu] at h
      split at h
      · rename_i pid tid hchequea
        split at h
        · rename_i marca hmarca
          cases h
          simp only [Registro.anotar, hmarca]
          exact CasoVigilado.interrumpir hchequea hmarca
        · rename_i hnada
          cases h
          have hsame : r.anotar cfg s .chequear = r := by
            simp only [Registro.anotar, hnada]
          rw [hsame]
          exact CasoVigilado.seguir hchequea hnada
      · cases h
  | _ =>
      cases h

/-- A step is one of the cases. -/
theorem casoVigilado_of_paso
    {x y : Vigilado μ}
    (hviejos : x.sistema.kernel.listaTcbsBlockeados = [])
    (h : pasoVigilado cfg x a = some y) :
    CasoVigilado cfg x.sistema x.registro a y.sistema y.registro := by
  obtain ⟨s, hs, hy⟩ := Option.bind_eq_some_iff.mp h
  cases hy
  unfold pasoSistema at hs
  split at hs
  · exact casoVigilado_of_kernel hviejos hs
  · split at hs
    · rename_i htemporizador
      cases hs
      exact casoVigilado_of_temporizador htemporizador
    · split at hs
      · rename_i hemisor
        cases hs
        exact casoVigilado_of_emisor hemisor
      · exact casoVigilado_of_cpu hs

end Casos

/-- The threads that the CPU has. -/
def Cpu.ocupada : Cpu → Nat
  | .libre => 0
  | .ejecutando _ _ => 1
  | .chequeando _ _ => 1

/-- What holds of the connection between the kernel and the CPU in every run. -/
structure Enlace (s : Sistema μ) (r : Registro) : Prop where
  viejos : s.kernel.listaTcbsBlockeados = []
  unoSolo : ∀ t, s.kernel.fase = .ejecutando t →
    s.despachos.length + s.cpu.ocupada + s.respuestas.length = 1
  ninguno : (∀ t, s.kernel.fase ≠ .ejecutando t) →
    s.despachos = [] ∧ s.cpu = .libre ∧ s.respuestas = []
  contados : r.turnos.length = r.contestados.length + s.despachos.length + s.cpu.ocupada
  ultimo : ∀ t ∈ r.turnos.getLast?, t = r.turno
  desarmado : (∀ t, s.kernel.fase ≠ .ejecutando t) → r.armado = false

section Enlace

variable {cfg : Config μ} {s s' : Sistema μ} {r r' : Registro} {a : Accion}

/-- Where the CPU has a thread, the kernel waits for its answer. -/
theorem Enlace.de_enCpu
    (h : Enlace s r)
    (hcpu : s.enCpu) :
    ∃ t, s.kernel.fase = .ejecutando t := by
  by_contra hno
  obtain ⟨hdespachos, hlibre, _⟩ := h.ninguno (fun t ht => hno ⟨t, ht⟩)
  rcases hcpu with hd | hc
  · exact hd hdespachos
  · exact hc hlibre

/-- An answer leaves the CPU without a thread. -/
theorem Enlace.sin_respuesta
    {m : Mensaje Nat} {resto : List (Mensaje Nat)} {t : Tcb}
    (h : Enlace s r)
    (hfase : s.kernel.fase = .ejecutando t)
    (hrespuestas : s.respuestas = m :: resto) :
    s.despachos = [] ∧ s.cpu = .libre ∧ resto = [] := by
  have huno := h.unoSolo t hfase
  rw [hrespuestas, List.length_cons] at huno
  refine ⟨List.length_eq_zero_iff.mp (by omega), ?_, List.length_eq_zero_iff.mp (by omega)⟩
  have hcero : s.cpu.ocupada = 0 := by omega
  cases hcpu : s.cpu with
  | libre =>
      rfl
  | ejecutando pid tid =>
      simp [hcpu, Cpu.ocupada] at hcero
  | chequeando pid tid =>
      simp [hcpu, Cpu.ocupada] at hcero

/-- The thread on the CPU is the only one. -/
theorem Enlace.con_cpu
    (h : Enlace s r)
    (hcpu : s.cpu.ocupada = 1) :
    (∃ t, s.kernel.fase = .ejecutando t) ∧ s.despachos = [] ∧ s.respuestas = [] := by
  have hejecuta : ∃ t, s.kernel.fase = .ejecutando t := by
    apply h.de_enCpu
    right
    intro hlibre
    simp [hlibre, Cpu.ocupada] at hcpu
  obtain ⟨t, ht⟩ := hejecuta
  have huno := h.unoSolo t ht
  exact ⟨⟨t, ht⟩, List.length_eq_zero_iff.mp (by omega), List.length_eq_zero_iff.mp (by omega)⟩

/-- A dispatch finds the CPU waiting. -/
theorem Enlace.despachar
    {k : Globals μ} {seguir : Bool} {previo : Option Tcb} {proximo : Tcb} {turno : Nat}
    {armado : Bool}
    (h : Enlace s r)
    (hfase : s.kernel.fase = .planificar seguir previo)
    (hejecuta : k.fase = .ejecutando proximo)
    (hviejos : k.listaTcbsBlockeados = s.kernel.listaTcbsBlockeados) :
    Enlace
      { s with
        kernel := k
        despachos := s.despachos ++ [(proximo.parentPid, proximo.tid)] }
      { r with
        turno := turno
        turnos := r.turnos ++ [turno]
        armado := armado
        vencido := false } := by
  have hno : ∀ t, s.kernel.fase ≠ .ejecutando t := by simp [hfase]
  obtain ⟨hdespachos, hlibre, hrespuestas⟩ := h.ninguno hno
  have hcontados := h.contados
  constructor
  case viejos =>
    exact hviejos.trans h.viejos
  case unoSolo =>
    intro t _
    simp [hdespachos, hlibre, hrespuestas, Cpu.ocupada]
  case ninguno =>
    intro hnada
    exact absurd hejecuta (hnada proximo)
  case contados =>
    simp only [hdespachos, hlibre, Cpu.ocupada, List.length_nil] at hcontados
    simp [hdespachos, hlibre, Cpu.ocupada, hcontados]
  case ultimo =>
    intro t ht
    simpa using ht.symm
  case desarmado =>
    intro hnada
    exact absurd hejecuta (hnada proximo)

/-- The CPU goes on with its thread. -/
theorem Enlace.conCpu
    {cpu : Cpu}
    (h : Enlace s r)
    (hantes : s.cpu.ocupada = 1)
    (hcpu : cpu.ocupada = 1) :
    Enlace { s with cpu := cpu } r := by
  obtain ⟨⟨t, ht⟩, _, _⟩ := h.con_cpu hantes
  have huno := h.unoSolo
  have hcontados := h.contados
  have hsame : s.cpu.ocupada = cpu.ocupada := hantes.trans hcpu.symm
  rw [hsame] at huno hcontados
  exact ⟨h.viejos, huno, fun hno => absurd ht (hno t), hcontados, h.ultimo, h.desarmado⟩

/-- The CPU answers. -/
theorem Enlace.contesta
    (h : Enlace s r)
    (hantes : s.cpu.ocupada = 1)
    (m : Mensaje Nat) (o : Option Marca) (interrupcion : Option Marca) :
    Enlace
      { s with
        interrupcion := interrupcion
        respuestas := s.respuestas ++ [m]
        cpu := .libre }
      { r with contestados := r.contestados ++ [o] } := by
  obtain ⟨⟨t, ht⟩, hdespachos, hrespuestas⟩ := h.con_cpu hantes
  have hcontados := h.contados
  simp only [hantes, hdespachos, List.length_nil] at hcontados
  refine ⟨h.viejos, ?_, fun hno => absurd ht (hno t), ?_, h.ultimo, h.desarmado⟩
  · intro u _
    simp [hdespachos, hrespuestas, Cpu.ocupada]
  · simp [hdespachos, Cpu.ocupada, hcontados]

/-- Every step keeps the connection as it should be. -/
theorem Enlace.paso
    (h : Enlace s r)
    (hcaso : CasoVigilado cfg s r a s' r') :
    Enlace s' r' := by
  cases hcaso with
  | agenda hfase hejecuta _ hviejos _ =>
      exact h.despachar hfase hejecuta hviejos
  | sigue hfase hejecuta _ hviejos _ =>
      exact h.despachar hfase hejecuta hviejos
  | respuesta hrespuestas hfase hsuelta _ _ hviejos =>
      obtain ⟨hdespachos, hlibre, hresto⟩ := h.sin_respuesta hfase hrespuestas
      constructor
      case viejos =>
        exact hviejos.trans h.viejos
      case unoSolo =>
        intro t ht
        exact absurd ht (hsuelta t)
      case ninguno =>
        intro _
        exact ⟨hdespachos, hlibre, hresto⟩
      case contados =>
        exact h.contados
      case ultimo =>
        exact h.ultimo
      case desarmado =>
        intro _
        rfl
  | otro _ hreloj hfase =>
      constructor
      case viejos =>
        exact hreloj.viejos.trans h.viejos
      case unoSolo =>
        intro t ht
        exact h.unoSolo t ((hfase t).mp ht)
      case ninguno =>
        intro hno
        exact h.ninguno (fun t ht => hno t ((hfase t).mpr ht))
      case contados =>
        exact h.contados
      case ultimo =>
        exact h.ultimo
      case desarmado =>
        intro hno
        exact h.desarmado (fun t ht => hno t ((hfase t).mpr ht))
  | recibir hlibre hdespachos =>
      have huno := h.unoSolo
      have hninguno := h.ninguno
      have hcontados := h.contados
      simp only [hlibre, hdespachos, Cpu.ocupada, List.length_cons] at huno hninguno hcontados
      constructor
      case unoSolo =>
        intro t ht
        have h₁ := huno t ht
        simp only [Cpu.ocupada]
        omega
      case ninguno =>
        intro hno
        exact absurd (hninguno hno).1 (List.cons_ne_nil _ _)
      case contados =>
        simp only [Cpu.ocupada]
        omega
      case viejos =>
        exact h.viejos
      case ultimo =>
        exact h.ultimo
      case desarmado =>
        exact h.desarmado
  | instruccion hejecuta =>
      exact h.conCpu (by rw [hejecuta]; rfl) rfl
  | responder hejecuta =>
      exact h.contesta (by rw [hejecuta]; rfl) _ _ _
  | interrumpir hchequea _ =>
      exact h.contesta (by rw [hchequea]; rfl) _ _ _
  | seguir hchequea _ =>
      exact h.conCpu (by rw [hchequea]; rfl) rfl
  | _ =>
      exact ⟨h.viejos, h.unoSolo, h.ninguno, h.contados, h.ultimo, h.desarmado⟩

theorem enlace_encendido
    (cfg : Config μ) (memoria : μ) (path : List Char) (size : Nat) :
    Enlace (encendido cfg memoria path size).sistema
      (encendido cfg memoria path size).registro := by
  have hinicio := arranque_reloj cfg memoria path size
  constructor
  case viejos =>
    exact hinicio.viejos
  case unoSolo =>
    intro t ht
    have hfase : (arranque cfg memoria path size).fase = .planificar false none := hinicio.fase
    have ht' : (arranque cfg memoria path size).fase = .ejecutando t := ht
    rw [hfase] at ht'
    cases ht'
  case ninguno =>
    intro _
    exact ⟨rfl, rfl, rfl⟩
  case contados =>
    rfl
  case ultimo =>
    simp [encendido, Registro.vacio]
  case desarmado =>
    intro _
    rfl

/-- Where the guarded steps keep `S`, and a step that is not guarded leaves `S` for a state
without `P`, the guarded runs are those that stay in `P`. -/
theorem AlcanzaQuantum.guarded_iff
    {S P : Sistema μ → Registro → Prop} {ok : Vigilado μ → Accion → Prop}
    {as : List Accion} {x : Vigilado μ}
    (hstart : ∀ memoria path size, S (encendido cfg memoria path size).sistema
      (encendido cfg memoria path size).registro)
    (hweak : ∀ {s r}, S s r → P s r)
    (hstep : ∀ {s s' r r' a}, Enlace s r → S s r → CasoVigilado cfg s r a s' r' →
      ok ⟨s, r⟩ a → S s' r')
    (hbad : ∀ {s s' r r' a}, Enlace s r → S s r → CasoVigilado cfg s r a s' r' →
      ¬ ok ⟨s, r⟩ a → ¬ P s' r') :
    AlcanzaQuantum cfg ok as x ↔
      AlcanzaQuantum cfg (fun a _ => P a.sistema a.registro) as x ∧ P x.sistema x.registro := by
  have hiff : ∀ memoria path size,
      Run (fun a e b => pasoVigilado cfg a e = some b) ok
        (encendido cfg memoria path size) as x ↔
      Run (fun a e b => pasoVigilado cfg a e = some b) (fun a _ => P a.sistema a.registro)
        (encendido cfg memoria path size) as x ∧ P x.sistema x.registro := by
    intro memoria path size
    apply Run.guarded_iff_of_strong
      (S := fun a : Vigilado μ => Enlace a.sistema a.registro ∧ S a.sistema a.registro)
      (P := fun a : Vigilado μ => P a.sistema a.registro)
    case hstart =>
      exact ⟨enlace_encendido cfg memoria path size, hstart memoria path size⟩
    case hweak =>
      intro a h
      exact hweak h.2
    case hstep =>
      rintro a b e ⟨hlink, hS⟩ hpaso hok
      have hcaso := casoVigilado_of_paso hlink.viejos hpaso
      exact ⟨hlink.paso hcaso, hstep hlink hS hcaso hok⟩
    case hbad =>
      rintro a b e ⟨hlink, hS⟩ hpaso hno
      exact hbad hlink hS (casoVigilado_of_paso hlink.viejos hpaso) hno
  constructor
  · rintro ⟨memoria, path, size, hrun⟩
    obtain ⟨hstay, hx⟩ := (hiff memoria path size).mp hrun
    exact ⟨⟨memoria, path, size, hstay⟩, hx⟩
  · rintro ⟨⟨memoria, path, size, hstay⟩, hx⟩
    exact ⟨memoria, path, size, (hiff memoria path size).mpr ⟨hstay, hx⟩⟩

end Enlace

end Kernel
end SinIdeas
