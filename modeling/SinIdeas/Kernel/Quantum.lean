import SinIdeas.Kernel.LongTerm

/-!
# The quantum

The kernel with the thread of the quantum timer and the thread that sends
interruptions, the interrupt listener and the instruction cycle of the CPU, and the
dispatch and interrupt connections between them, as one step function. A step of the
kernel is one of `paso`, with its `interrupt_quantum`, which `stop_quantum` repeats; a
step of another party is one access to what it shares with the others. Time is not
modelled, so a quantum can end whenever its timer is counting.

A flag that says that a quantum is over is modelled with a mark for the quantum
that raised it, and so are the operation codes on the interrupt connection. No step
looks at a mark. What happened is kept beside the state in a `Registro`.
-/

namespace SinIdeas
namespace Kernel

open Lib

variable {μ : Type}

/-- Why an interruption was raised: the timer finished the quantum with this number,
counted from 1, when `schedule_next_tcb` had been called `turno` times; or the kernel
raised it. -/
inductive Marca where
  | quantum (numero turno : Nat)
  | kernel
  deriving DecidableEq

/-- Where `run_quantum_counter` is: at `sem_wait(&sem_quantum)`, before it resets
`quantum_interrupted`, in its counting loop, before its last look at the flag, or at
the four statements that raise the interruption. -/
inductive Temporizador where
  | espera
  | tomado
  | contando
  | comprobando
  | completado (marca : Marca)
  | conMutex (marca : Marca)
  | marcado
  | avisado
  deriving DecidableEq

/-- Where `interrupt_cpu` is: at `sem_wait(&sincro_interrupcion)`, before it looks at
the flags, before `send`, or before and inside its critical section. -/
inductive Emisor where
  | espera
  | despierto
  | eligio (marca : Marca)
  | enviado
  | conMutex
  | limpio
  | enviadoKernel
  deriving DecidableEq

/-- Where the CPU is: waiting for a dispatch, before an instruction of the thread, or
after one that was no syscall, before it looks at `interrupcion`. -/
inductive Cpu where
  | libre
  | ejecutando (pid tid : Nat)
  | chequeando (pid tid : Nat)
  deriving DecidableEq

/-- The parties and what they share. `quantumInterruption` and `interrupcion` are the
flags of that name. -/
structure Sistema (μ : Type) where
  kernel : Globals μ
  temporizador : Temporizador
  emisor : Emisor
  mutexQuantumInterruption : Nat
  sincroInterrupcion : Nat
  quantumInterruption : Option Marca
  kernelInterruption : Bool
  conexionInterrupt : List Marca
  interrupcion : Option Marca
  cpu : Cpu
  despachos : List (Nat × Nat)
  respuestas : List (Mensaje Nat)

/-- The steps of the parties. -/
inductive Accion where
  | kernel (e : Evento)
  | tomarQuantum
  | reiniciar
  | salirDelBucle
  | comprobar
  | pedirMutex
  | marcar
  | avisar
  | soltarMutex
  | despertarEmisor
  | elegir
  | enviar
  | pedirMutexEmisor
  | limpiar
  | soltarMutexEmisor
  | escuchar
  | recibir
  | instruccion
  | responder (m : Mensaje Nat)
  | chequear
  deriving DecidableEq

/-- A step of the dispatcher sends the thread to the CPU or takes an answer. -/
def pasoKernel (cfg : Config μ) (s : Sistema μ) : Evento → Option (Sistema μ)
  | .despachar => do
      let k ← paso cfg s.kernel .despachar
      let proximo ← k.currentTcbExecuting
      some { s with
        kernel := k
        despachos := s.despachos ++ [(proximo.parentPid, proximo.tid)] }
  | .respuesta m =>
      match s.respuestas with
      | [] => none
      | primera :: resto =>
          if primera = m then do
            let k ← paso cfg s.kernel (.respuesta m)
            some { s with kernel := k, respuestas := resto }
          else
            none
  | e => do
      let k ← paso cfg s.kernel e
      some { s with kernel := k }

/-- A step of `run_quantum_counter`. The loop ends because its time is over or because
the flag is set; only the look at the flag that follows tells which. -/
def pasoTemporizador (numero turno : Nat) (s : Sistema μ) : Accion → Option (Sistema μ)
  | .tomarQuantum =>
      match s.temporizador, s.kernel.semQuantum with
      | .espera, n + 1 =>
          some { s with kernel := { s.kernel with semQuantum := n }, temporizador := .tomado }
      | _, _ => none
  | .reiniciar =>
      match s.temporizador with
      | .tomado =>
          some { s with
            kernel := { s.kernel with quantumInterrupted := false }
            temporizador := .contando }
      | _ => none
  | .salirDelBucle =>
      match s.temporizador with
      | .contando => some { s with temporizador := .comprobando }
      | _ => none
  | .comprobar =>
      match s.temporizador with
      | .comprobando =>
          if s.kernel.quantumInterrupted then
            some { s with temporizador := .espera }
          else
            some { s with temporizador := .completado (.quantum numero turno) }
      | _ => none
  | .pedirMutex =>
      match s.temporizador, s.mutexQuantumInterruption with
      | .completado marca, n + 1 =>
          some { s with mutexQuantumInterruption := n, temporizador := .conMutex marca }
      | _, _ => none
  | .marcar =>
      match s.temporizador with
      | .conMutex marca =>
          some { s with quantumInterruption := some marca, temporizador := .marcado }
      | _ => none
  | .avisar =>
      match s.temporizador with
      | .marcado =>
          some { s with
            sincroInterrupcion := s.sincroInterrupcion + 1
            temporizador := .avisado }
      | _ => none
  | .soltarMutex =>
      match s.temporizador with
      | .avisado =>
          some { s with
            mutexQuantumInterruption := s.mutexQuantumInterruption + 1
            temporizador := .espera }
      | _ => none
  | _ => none

/-- A step of `interrupt_cpu`. -/
def pasoEmisor (s : Sistema μ) : Accion → Option (Sistema μ)
  | .despertarEmisor =>
      match s.emisor, s.sincroInterrupcion with
      | .espera, n + 1 => some { s with sincroInterrupcion := n, emisor := .despierto }
      | _, _ => none
  | .elegir =>
      match s.emisor with
      | .despierto =>
          match s.quantumInterruption with
          | some marca => some { s with emisor := .eligio marca }
          | none =>
              if s.kernelInterruption then
                some { s with emisor := .eligio .kernel }
              else
                some { s with emisor := .espera }
      | _ => none
  | .enviar =>
      match s.emisor with
      | .eligio (.quantum numero turno) =>
          some { s with
            conexionInterrupt := s.conexionInterrupt ++ [.quantum numero turno]
            emisor := .enviado }
      | .eligio .kernel =>
          some { s with
            conexionInterrupt := s.conexionInterrupt ++ [.kernel]
            emisor := .enviadoKernel }
      | _ => none
  | .pedirMutexEmisor =>
      match s.emisor, s.mutexQuantumInterruption with
      | .enviado, n + 1 =>
          some { s with mutexQuantumInterruption := n, emisor := .conMutex }
      | _, _ => none
  | .limpiar =>
      match s.emisor with
      | .conMutex => some { s with quantumInterruption := none, emisor := .limpio }
      | .enviadoKernel => some { s with kernelInterruption := false, emisor := .espera }
      | _ => none
  | .soltarMutexEmisor =>
      match s.emisor with
      | .limpio =>
          some { s with
            mutexQuantumInterruption := s.mutexQuantumInterruption + 1
            emisor := .espera }
      | _ => none
  | _ => none

/-- What the CPU sends for a syscall or a segmentation fault. -/
def esSyscall : Mensaje Nat → Bool
  | .kernelInterruption _ _ => false
  | _ => true

/-- A step of the CPU: of its interrupt listener, or of `execute_instruction_cycle`,
where an instruction is a syscall or a segmentation fault, which end the cycle, or
anything else, after which the flag is looked at. -/
def pasoCpu (s : Sistema μ) : Accion → Option (Sistema μ)
  | .escuchar =>
      match s.conexionInterrupt with
      | [] => none
      | marca :: resto =>
          some { s with conexionInterrupt := resto, interrupcion := some marca }
  | .recibir =>
      match s.cpu, s.despachos with
      | .libre, (pid, tid) :: resto =>
          some { s with despachos := resto, cpu := .ejecutando pid tid }
      | _, _ => none
  | .instruccion =>
      match s.cpu with
      | .ejecutando pid tid => some { s with cpu := .chequeando pid tid }
      | _ => none
  | .responder m =>
      match s.cpu with
      | .ejecutando _ _ =>
          if esSyscall m then
            some { s with respuestas := s.respuestas ++ [m], cpu := .libre }
          else
            none
      | _ => none
  | .chequear =>
      match s.cpu with
      | .chequeando pid tid =>
          match s.interrupcion with
          | some _ =>
              some { s with
                interrupcion := none
                respuestas := s.respuestas ++ [.kernelInterruption tid pid]
                cpu := .libre }
          | none => some { s with cpu := .ejecutando pid tid }
      | _ => none
  | _ => none

/-- The CPU has been given a thread and has not returned it. -/
def Sistema.enCpu (s : Sistema μ) : Prop := s.despachos ≠ [] ∨ s.cpu ≠ .libre

/-- What happened: the calls of `schedule_next_tcb`, the quanta that the timer has
taken, the turn of each dispatch, the answers of the CPU, each with the mark of the
interruption if it is one, whether a quantum was started after the last
`interrupt_quantum`, and whether one has expired since the last dispatch. -/
structure Registro where
  turno : Nat
  tomados : Nat
  turnos : List Nat
  contestados : List (Option Marca)
  armado : Bool
  vencido : Bool
  deriving DecidableEq

def Registro.vacio : Registro where
  turno := 0
  tomados := 0
  turnos := []
  contestados := []
  armado := false
  vencido := false

/-- The dispatcher is about to call `schedule_next_tcb`. -/
def Fase.agenda : Fase → Bool
  | .planificar false _ => true
  | _ => false

/-- What a step from `s` adds. -/
def Registro.anotar (cfg : Config μ) (r : Registro) (s : Sistema μ) : Accion → Registro
  | .kernel .despachar =>
      if s.kernel.fase.agenda then
        { r with
          turno := r.turno + 1
          turnos := r.turnos ++ [r.turno + 1]
          armado := if cfg.schedulerAlgorithm = .cmn then true else r.armado
          vencido := false }
      else
        { r with turnos := r.turnos ++ [r.turno], vencido := false }
  | .kernel (.respuesta _) => { r with armado := false }
  | .tomarQuantum => { r with tomados := r.tomados + 1 }
  | .comprobar =>
      if s.kernel.quantumInterrupted then r else { r with vencido := true }
  | .responder _ => { r with contestados := r.contestados ++ [none] }
  | .chequear =>
      match s.interrupcion with
      | some marca => { r with contestados := r.contestados ++ [some marca] }
      | none => r
  | _ => r

/-- The parties with what happened. -/
structure Vigilado (μ : Type) where
  sistema : Sistema μ
  registro : Registro

/-- One step of any party. -/
def pasoSistema (cfg : Config μ) (numero turno : Nat) (s : Sistema μ) :
    Accion → Option (Sistema μ)
  | .kernel e => pasoKernel cfg s e
  | a =>
      match pasoTemporizador numero turno s a with
      | some s' => some s'
      | none =>
          match pasoEmisor s a with
          | some s' => some s'
          | none => pasoCpu s a

/-- One step of any party, written down. -/
def pasoVigilado (cfg : Config μ) (x : Vigilado μ) (a : Accion) : Option (Vigilado μ) := do
  let s ← pasoSistema cfg x.registro.tomados x.registro.turno x.sistema a
  some { sistema := s, registro := x.registro.anotar cfg x.sistema a }

/-- The kernel has created its first process; every other party waits. -/
def encendido (cfg : Config μ) (memoria : μ) (path : List Char) (size : Nat) :
    Vigilado μ where
  sistema :=
    { kernel := arranque cfg memoria path size
      temporizador := .espera
      emisor := .espera
      mutexQuantumInterruption := 1
      sincroInterrupcion := 0
      quantumInterruption := none
      kernelInterruption := false
      conexionInterrupt := []
      interrupcion := none
      cpu := .libre
      despachos := []
      respuestas := [] }
  registro := Registro.vacio

/-- `x` is reached from the start by steps that meet `ok`. -/
def AlcanzaQuantum
    (cfg : Config μ)
    (ok : Vigilado μ → Accion → Prop)
    (as : List Accion)
    (x : Vigilado μ) : Prop :=
  ∃ memoria path size,
    Run (fun a e b => pasoVigilado cfg a e = some b) ok (encendido cfg memoria path size) as x

section Reloj

variable {cfg : Config μ} {k k' k'' : Globals μ} {tcb : Tcb}

/-- What the kernel shares with the timer is unchanged. -/
structure MismoReloj (k k' : Globals μ) : Prop where
  semQuantum : k'.semQuantum = k.semQuantum
  quantumInterrupted : k'.quantumInterrupted = k.quantumInterrupted
  viejos : k'.listaTcbsBlockeados = k.listaTcbsBlockeados

/-- Nor has the dispatcher moved. -/
structure Quieto (k k' : Globals μ) : Prop extends MismoReloj k k' where
  fase : k'.fase = k.fase

theorem MismoReloj.trans
    (h₁ : MismoReloj k k')
    (h₂ : MismoReloj k' k'') :
    MismoReloj k k'' :=
  ⟨h₂.semQuantum.trans h₁.semQuantum, h₂.quantumInterrupted.trans h₁.quantumInterrupted,
    h₂.viejos.trans h₁.viejos⟩

/-- Then the dispatcher moves. -/
theorem MismoReloj.conFase
    (h : MismoReloj k k')
    (fase : Fase) :
    MismoReloj k { k' with fase := fase } :=
  ⟨h.semQuantum, h.quantumInterrupted, h.viejos⟩

theorem Quieto.trans
    (h₁ : Quieto k k')
    (h₂ : Quieto k' k'') :
    Quieto k k'' :=
  ⟨h₁.toMismoReloj.trans h₂.toMismoReloj, h₂.fase.trans h₁.fase⟩

theorem Despierta.quieto
    (h : Despierta k k') :
    Quieto k k' := by
  rw [h]
  exact ⟨⟨rfl, rfl, rfl⟩, rfl⟩

theorem Admite.quieto
    (h : Admite k k') :
    Quieto k k' := by
  rw [h]
  exact ⟨⟨rfl, rfl, rfl⟩, rfl⟩

theorem threadExit_quieto
    (h : threadExit cfg tcb k = some k') :
    Quieto k k' := by
  obtain ⟨pcbs, k₁, hk₁, _, _, hrelease⟩ := threadExit_cases h
  have hfirst : Quieto k k₁ := by
    rw [hk₁]
    exact ⟨⟨rfl, rfl, rfl⟩, rfl⟩
  exact (hfirst.trans unlockTcbJoins_despierta.quieto).trans
    (releaseAllMutexes_despierta hrelease).quieto

theorem mutexLock_quieto
    {name : List Char} {reservado : Bool}
    (h : mutexLock cfg name tcb k = some (k', reservado)) :
    Quieto k k' := by
  rcases mutexLock_cases h with ⟨_, rfl, salida, rfl⟩ |
    ⟨m, _, ⟨_, rfl, rfl⟩ | ⟨_, _, rfl, rfl⟩ | ⟨_, _, _, rfl, rfl⟩⟩
  · exact ⟨⟨rfl, rfl, rfl⟩, rfl⟩
  · exact ⟨⟨rfl, rfl, rfl⟩, rfl⟩
  · exact ⟨⟨rfl, rfl, rfl⟩, rfl⟩
  · exact ⟨⟨rfl, rfl, rfl⟩, rfl⟩

theorem finalizarHilo_quieto
    {pid i : Nat} {avance : Avance}
    (hviejos : k.listaTcbsBlockeados = [])
    (h : finalizarHilo cfg pid i k = some (k', avance)) :
    Quieto k k' := by
  rcases finalizarHilo_cases hviejos h with ⟨_, _, rfl⟩ |
    ⟨tcb, _, _, ⟨_, _, rfl⟩ | ⟨_, _, hrelease⟩⟩
  · exact ⟨⟨rfl, rfl, rfl⟩, rfl⟩
  · exact ⟨⟨rfl, rfl, rfl⟩, rfl⟩
  · have hrest := (releaseAllMutexes_despierta hrelease).quieto
    exact ⟨⟨hrest.semQuantum, hrest.quantumInterrupted, hrest.viejos⟩, hrest.fase⟩

theorem reanudarHilo_quieto
    {pid i : Nat}
    (hviejos : k.listaTcbsBlockeados = [])
    (h : reanudarHilo pid i k = some k') :
    Quieto k k' := by
  obtain ⟨n, tcb, _, _, hrelease⟩ := reanudarHilo_cases hviejos h
  have hrest := (releaseAllMutexes_despierta hrelease).quieto
  exact ⟨⟨hrest.semQuantum, hrest.quantumInterrupted, hrest.viejos⟩, hrest.fase⟩

theorem terminarProceso_reloj
    {causa : Causa} {pid : Nat} :
    MismoReloj k (terminarProceso cfg causa pid k) := by
  obtain ⟨pcbs, salida, k₁, hk₁, _, heq⟩ := terminarProceso_cases cfg causa pid k
  have hfirst : MismoReloj k k₁ := by
    rw [hk₁]
    exact ⟨rfl, rfl, rfl⟩
  rw [heq]
  cases causa with
  | processExit =>
      exact hfirst.trans (tryCreateRounds_admite cfg k₁ _).quieto.toMismoReloj
  | segmentationFault =>
      exact hfirst

/-- No syscall starts a quantum; they are interrupted before. -/
theorem atenderSyscall_reloj
    {proximo : Tcb} {pid : Nat} {m : Mensaje Nat}
    (h : atenderSyscall cfg proximo pid m k = some k') :
    MismoReloj k k' := by
  cases m with
  | processCreate path size priority =>
      cases h
      exact (processCreate_admite cfg k path size priority).quieto.conFase _
  | processExit x =>
      cases h
      exact ⟨rfl, rfl, rfl⟩
  | segmentationFault x y =>
      cases h
      exact ⟨rfl, rfl, rfl⟩
  | threadCreate path priority =>
      cases h
      exact (createThread_admite cfg k pid path priority).quieto.conFase _
  | threadJoin tid =>
      cases h
      rcases threadJoin_cases tid proximo k with ⟨_, heq⟩ | ⟨_, _, heq⟩
      · rw [heq]
        exact ⟨rfl, rfl, rfl⟩
      · rw [heq]
        exact ⟨rfl, rfl, rfl⟩
  | threadCancel tid =>
      obtain ⟨k₁, hcancel, hk'⟩ := Option.bind_eq_some_iff.mp h
      cases hk'
      rcases threadCancel_cases hcancel with ⟨tcb, _, rfl⟩ | ⟨_, _, rfl⟩
      · exact unlockTcbJoins_despierta.quieto.conFase _
      · exact ⟨rfl, rfl, rfl⟩
  | threadExit x =>
      obtain ⟨k₁, hexit, hk'⟩ := Option.bind_eq_some_iff.mp h
      cases hk'
      exact (threadExit_quieto hexit).conFase _
  | mutexCreate name x =>
      obtain ⟨k₁, hcreate, hk'⟩ := Option.bind_eq_some_iff.mp h
      cases hk'
      rcases mutexCreate_cases hcreate with rfl | ⟨_, rfl⟩
      · exact ⟨rfl, rfl, rfl⟩
      · exact ⟨rfl, rfl, rfl⟩
  | mutexLock name x =>
      obtain ⟨⟨k₁, reservado⟩, hlock, hk'⟩ := Option.bind_eq_some_iff.mp h
      have hquieto := mutexLock_quieto hlock
      cases hk'
      cases reservado with
      | true =>
          exact hquieto.conFase _
      | false =>
          exact hquieto.conFase _
  | mutexUnlock name x =>
      obtain ⟨k₁, hunlock, hk'⟩ := Option.bind_eq_some_iff.mp h
      cases hk'
      exact (mutexUnlock_despierta hunlock).quieto.conFase _
  | dumpMemory x y =>
      cases h
      exact ⟨rfl, rfl, rfl⟩
  | io milisegundos =>
      obtain ⟨t, _, hk'⟩ := Option.bind_eq_some_iff.mp h
      cases hk'
      exact ⟨rfl, rfl, rfl⟩
  | kernelInterruption x y =>
      cases h
      exact ⟨rfl, rfl, rfl⟩

theorem scheduleNextTcb_semQuantum
    (h : scheduleNextTcb cfg k = some (tcb, k')) :
    k'.semQuantum = if cfg.schedulerAlgorithm = .cmn then k.semQuantum + 1 else k.semQuantum := by
  have hprio : ∀ a : Globals μ, scheduleNextPriorities a = some (tcb, k') →
      k'.semQuantum = a.semQuantum := by
    intro a ha
    unfold scheduleNextPriorities at ha
    split at ha
    · cases ha
    · obtain ⟨t, _, hk'⟩ := Option.bind_eq_some_iff.mp ha
      cases hk'
      rfl
  unfold scheduleNextTcb at h
  split at h
  · rename_i halg
    rw [if_neg (by simp [halg])]
    unfold scheduleNextFifo at h
    split at h
    · cases h
    · cases h
      rfl
  · rename_i halg
    rw [if_neg (by simp [halg])]
    exact hprio k h
  · rename_i halg
    rw [if_pos halg]
    exact hprio _ h
  · cases h

/-- Only the scheduler starts a quantum, and only under CMN. -/
theorem despachar_reloj
    (h : paso cfg k .despachar = some k') :
    ∃ seguir previo proximo, k.fase = .planificar seguir previo ∧
      k'.fase = .ejecutando proximo ∧ k'.currentTcbExecuting = some proximo ∧
      k'.quantumInterrupted = k.quantumInterrupted ∧
      k'.listaTcbsBlockeados = k.listaTcbsBlockeados ∧
      k'.semQuantum =
        if seguir = false ∧ cfg.schedulerAlgorithm = .cmn then k.semQuantum + 1
        else k.semQuantum := by
  obtain ⟨seguir, previo, proximo, k₁, hfase, helegir, rfl, hcases⟩ := despachar_cases h
  refine ⟨seguir, previo, proximo, hfase, rfl, rfl, ?_⟩
  rcases hcases with ⟨rfl, _, rfl⟩ | ⟨rfl, l, m, n, q, _, hsem, hk₁⟩
  · simp
  · refine ⟨by rw [hk₁], by rw [hk₁], ?_⟩
    simp only [elegirTcb, waitThreadCount, hsem, Bool.false_eq_true, if_false,
      Option.bind_eq_bind, Option.bind_some] at helegir
    simpa using scheduleNextTcb_semQuantum helegir

/-- A message interrupts the quantum and ends the turn of the CPU. -/
theorem respuesta_reloj
    {m : Mensaje Nat}
    (h : paso cfg k (.respuesta m) = some k') :
    (∃ proximo, k.fase = .ejecutando proximo) ∧ (∀ proximo, k'.fase ≠ .ejecutando proximo) ∧
      k'.quantumInterrupted = true ∧ k'.semQuantum = k.semQuantum ∧
      k'.listaTcbsBlockeados = k.listaTcbsBlockeados := by
  obtain ⟨proximo, pid, hfase, _, hsyscall⟩ := atenderMensaje_cases h
  have hreloj := atenderSyscall_reloj hsyscall
  refine ⟨⟨proximo, hfase⟩, ?_, hreloj.quantumInterrupted, hreloj.semQuantum, hreloj.viejos⟩
  intro t
  obtain ⟨⟨seguir, hk'⟩ | ⟨causa, hk', _⟩, _⟩ := atenderSyscall_fase hsyscall
  · simp [hk']
  · simp [hk']

/-- Every other step of the kernel leaves the quantum alone and happens without a
dispatch or an answer. -/
theorem otro_reloj
    {e : Evento}
    (hviejos : k.listaTcbsBlockeados = [])
    (hdespachar : e ≠ .despachar)
    (hrespuesta : ∀ m, e ≠ .respuesta m)
    (h : paso cfg k e = some k') :
    MismoReloj k k' ∧ (∀ t, k'.fase = .ejecutando t ↔ k.fase = .ejecutando t) := by
  have hquieto : ∀ {a : Globals μ}, Quieto k a →
      MismoReloj k a ∧ (∀ t, a.fase = .ejecutando t ↔ k.fase = .ejecutando t) := by
    intro a ha
    exact ⟨ha.toMismoReloj, fun t => by rw [ha.fase]⟩
  cases e with
  | despachar =>
      exact absurd rfl hdespachar
  | respuesta m =>
      exact absurd rfl (hrespuesta m)
  | seguirFin =>
      rcases seguirFin_cases h with
        ⟨causa, proximo, i, pid, k₁, avance, hfase, _, hround, hcases⟩ |
        ⟨causa, proximo, i, pid, k₁, hfase, _, hround, rfl⟩
      · have hk₁ := finalizarHilo_quieto hviejos hround
        rcases hcases with ⟨_, rfl⟩ | ⟨_, rfl⟩ | ⟨_, rfl⟩
        · exact ⟨hk₁.conFase _, by simp [hfase]⟩
        · exact ⟨hk₁.conFase _, by simp [hfase]⟩
        · exact ⟨(hk₁.toMismoReloj.trans terminarProceso_reloj).conFase _,
            by simp [hfase, soltar]⟩
      · exact ⟨(reanudarHilo_quieto hviejos hround).conFase _, by simp [hfase]⟩
  | ioFin =>
      obtain ⟨request, resto, _, ⟨l, t, m, _, _, _, rfl⟩ | ⟨_, rfl⟩⟩ := ioFin_cases h
      · exact hquieto ⟨⟨rfl, rfl, rfl⟩, rfl⟩
      · exact hquieto ⟨⟨rfl, rfl, rfl⟩, rfl⟩
  | dumpRespuesta j r =>
      obtain ⟨d, _, _, ⟨_, rfl⟩ | ⟨_, _, rfl⟩ | ⟨_, rfl⟩⟩ := dumpRespuesta_cases h
      · exact hquieto ⟨⟨rfl, rfl, rfl⟩, rfl⟩
      · exact hquieto ⟨⟨rfl, rfl, rfl⟩, rfl⟩
      · exact hquieto ⟨⟨rfl, rfl, rfl⟩, rfl⟩
  | dumpSeguir j =>
      obtain ⟨d, _, ⟨pid, i, k₁, avance, _, hround, hcases⟩ | ⟨pid, i, k₁, _, hround, rfl⟩⟩ :=
        dumpSeguir_cases h
      · have hk₁ := finalizarHilo_quieto hviejos hround
        rcases hcases with ⟨_, rfl⟩ | ⟨_, rfl⟩ | ⟨_, rfl⟩
        · exact hquieto ⟨⟨hk₁.semQuantum, hk₁.quantumInterrupted, hk₁.viejos⟩, hk₁.fase⟩
        · exact hquieto ⟨⟨hk₁.semQuantum, hk₁.quantumInterrupted, hk₁.viejos⟩, hk₁.fase⟩
        · exact hquieto ⟨⟨hk₁.semQuantum, hk₁.quantumInterrupted, hk₁.viejos⟩, hk₁.fase⟩
      · have hk₁ := reanudarHilo_quieto hviejos hround
        exact hquieto ⟨⟨hk₁.semQuantum, hk₁.quantumInterrupted, hk₁.viejos⟩, hk₁.fase⟩

/-- The kernel starts without a quantum. -/
theorem arranque_reloj
    (cfg : Config μ) (memoria : μ) (path : List Char) (size : Nat) :
    Quieto (inicial memoria) (arranque cfg memoria path size) :=
  (processCreate_admite cfg (inicial memoria) path size 0).quieto

end Reloj

end Kernel
end SinIdeas
