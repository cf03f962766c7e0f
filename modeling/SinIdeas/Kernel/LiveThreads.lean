import SinIdeas.Kernel.Residents

/-!
# Live threads and their contexts

What a step does to the threads that take part in scheduling and, at the same time, to
the contexts that memoria keeps of them (`EfectoHilos`). When processes end without a
trace every live thread has its context, whatever happens; if no thread is lost either,
the contexts outside a process that is ending are those of the live threads.
-/

namespace SinIdeas
namespace Kernel

open Lib

variable {μ : Type}

/-- The process that the dispatcher is ending. -/
def pidQueTermina (k : Globals μ) : Option Nat :=
  match k.fase with
  | .finalizando _ _ _ => k.currentPcbExecuting
  | .esperando _ _ _ => k.currentPcbExecuting
  | _ => none

/-- What an event does to the live threads and to memoria. -/
inductive EfectoHilos (cfg : Config μ) (k : Globals μ) (e : Evento) (k' : Globals μ) : Prop
  | quietos :
      (vista k').threads.Subperm (vista k).threads →
      (SinPerdidas cfg k e → (vista k').threads.Perm (vista k).threads) →
      k'.memoria = k.memoria →
      pidQueTermina k' = pidQueTermina k →
      EfectoHilos cfg k e k'
  | sale (p : Tcb) :
      (vista k).threads.Perm (p.hilo :: (vista k').threads) →
      k'.memoria = (cfg.deleteThreadMemory k.memoria p).1 →
      pidQueTermina k = none →
      pidQueTermina k' = none →
      EfectoHilos cfg k e k'
  | crea (p : Tcb) (pid : Nat) (path : List Char) (priority : Nat) :
      e = .respuesta (.threadCreate path priority) →
      k.fase = .ejecutando p →
      k.currentPcbExecuting = some pid →
      k' = seguirCon p (createThread cfg (interruptQuantum k) pid path priority).1 →
      EfectoHilos cfg k e k'
  | procesos (p : Tcb) (path : List Char) (size priority : Nat) :
      k.fase = .ejecutando p →
      k' = seguirCon p (tryCreateNewProcessLoop cfg
        (pedirProceso path size priority (interruptQuantum k))) →
      EfectoHilos cfg k e k'
  | empieza (p : Tcb) (causa : Causa) (pid : Nat) :
      k.fase = .ejecutando p →
      k.currentPcbExecuting = some pid →
      k' = { interruptQuantum k with fase := .finalizando causa p 0 } →
      EfectoHilos cfg k e k'
  | ronda (pid : Nat) (t : Tcb) :
      (vista k').threads.Perm (vista k).threads →
      pidQueTermina k = some pid →
      pidQueTermina k' = some pid →
      t ∈ (k.pcbs pid).tcbs →
      k'.memoria = (cfg.deleteThreadMemory k.memoria t).1 →
      EfectoHilos cfg k e k'
  | termina (p : Tcb) (causa : Causa) (pid : Nat) :
      pidQueTermina k = some pid →
      k.currentPcbExecuting = some pid →
      k.fase.corriendo = none →
      k' = soltar p (terminarProceso cfg causa pid k) →
      EfectoHilos cfg k e k'

section Effects

variable {cfg : Config μ} {k k' : Globals μ} {e : Evento} {proximo : Tcb} {pid : Nat}

/-- Waking threads moves them. -/
theorem threads_perm_of_mueve
    (h : Mueve (fun _ l => ∀ t, l ≠ .enter t ∧ l ≠ .drop t ∧ l ≠ .lose t) k k') :
    (vista k').threads.Perm (vista k).threads :=
  Pool.Reaches.threads_perm h (fun hok => (hok _).1 rfl) (fun hok => (hok _).2.1 rfl)
    (fun hok => (hok _).2.2 rfl)

theorem threads_unlockTcbJoins
    (k : Globals μ) (pid tid : Nat) :
    (vista (unlockTcbJoins pid tid k)).threads.Perm (vista k).threads :=
  threads_perm_of_mueve (mueve_unlockTcbJoins (by simp) (by simp))

theorem threads_releaseAllMutexes
    {tcb : Tcb}
    (h : releaseAllMutexes tcb k = some k') :
    (vista k').threads.Perm (vista k).threads :=
  threads_perm_of_mueve (mueve_releaseAllMutexes (by simp) (by simp) h)

/-- A step that moves threads without creating, dropping or losing any. -/
theorem threads_perm_of_permite
    (hmove : Mueve (Permite cfg k e) k k')
    (henter : ∀ pid, ¬ CreaEn k e pid)
    (hdrop : ∀ p m, k.fase = .ejecutando p → e = .respuesta m → ¬ Retira k p m)
    (hlose : e ≠ .despachar) :
    (vista k').threads.Perm (vista k).threads := by
  refine Pool.Reaches.threads_perm hmove ?_ ?_ ?_
  · rintro a t ⟨hcrea, _⟩
    exact henter t.pid hcrea
  · rintro a t ⟨p, m, hfase, _, he, hretira⟩
    exact hdrop p m hfase he hretira
  · rintro a t ⟨he, _⟩
    exact hlose he

/-- One that leaves memoria alone too. -/
theorem efectoHilos_of_permite
    (hmove : Mueve (Permite cfg k e) k k')
    (henter : ∀ pid, ¬ CreaEn k e pid)
    (hdrop : ∀ p m, k.fase = .ejecutando p → e = .respuesta m → ¬ Retira k p m)
    (hlose : e ≠ .despachar)
    (hmem : k'.memoria = k.memoria)
    (hpid : pidQueTermina k' = pidQueTermina k) :
    EfectoHilos cfg k e k' := by
  have hperm := threads_perm_of_permite hmove henter hdrop hlose
  exact .quietos hperm.subperm (fun _ => hperm) hmem hpid

/-- The running thread, and those that are left when it is dropped. -/
theorem threads_soltar
    (hrun : k.fase.corriendo = some proximo.hilo) :
    (vista k).threads = proximo.hilo :: (vista (soltar proximo k)).threads := by
  have hrunning : (vista k).running = some proximo.hilo := hrun
  rw [vista_soltar, Pool.threads, hrunning]
  rfl

/-- The thread that executes is live. -/
theorem mem_threads_of_ejecutando
    (hrun : k.fase = .ejecutando proximo) :
    proximo.hilo ∈ (vista k).threads := by
  have hrunning : (vista k).running = some proximo.hilo := by
    simp [vista, hrun, Fase.corriendo]
  simp [Pool.threads, hrunning]

theorem pidQueTermina_of_ejecutando
    (hrun : k.fase = .ejecutando proximo) :
    pidQueTermina k = none := by
  rw [pidQueTermina, hrun]

/-- A thread whose message takes it out of scheduling. -/
theorem efectoHilos_mutexLock
    {name : List Char} {x : Nat} {reservado : Bool}
    (hrun : k.fase = .ejecutando proximo)
    (hmove : Mueve (Permite cfg k (.respuesta (.mutexLock name x))) k
      (if reservado then seguirCon proximo k' else soltar proximo k'))
    (h : mutexLock cfg name proximo (interruptQuantum k) = some (k', reservado)) :
    EfectoHilos cfg k (.respuesta (.mutexLock name x))
      (if reservado then seguirCon proximo k' else soltar proximo k') := by
  have hcorre : (interruptQuantum k).fase.corriendo = some proximo.hilo := by
    rw [interruptQuantum, hrun]
    rfl
  have hpid := pidQueTermina_of_ejecutando hrun
  have henter : ∀ pid, ¬ CreaEn k (.respuesta (.mutexLock name x)) pid := by
    rintro pid (⟨_, _, _, _, hno, _⟩ | ⟨⟨hno, _⟩ | ⟨_, _, _, hno⟩, _⟩) <;> cases hno
  have hget : getMutex (interruptQuantum k) name = getMutex k name := rfl
  rcases mutexLock_cases h with ⟨_, rfl, salida, rfl⟩ | ⟨m, hmutex, hcases⟩
  · refine .sale proximo (List.Perm.of_eq ?_) rfl hpid rfl
    exact threads_soltar hcorre
  · have hqueda : m.assignedPid = proximo.parentPid → ∀ p m', k.fase = .ejecutando p →
        Evento.respuesta (.mutexLock name x) = .respuesta m' → ¬ Retira k p m' := by
      rintro hpropio p m' hfase he hretira
      cases he
      rw [hrun] at hfase
      cases hfase
      rcases hretira with hnone | ⟨m', hm', hne⟩
      · rw [← hget, hmutex] at hnone
        cases hnone
      · rw [← hget, hmutex] at hm'
        cases hm'
        exact hne hpropio
    rcases hcases with ⟨hajeno, rfl, rfl⟩ | ⟨hpropio, _, rfl, rfl⟩ | ⟨hpropio, _, _, rfl, rfl⟩
    · -- a mutex of another process: the thread is put nowhere
      have hfree : vista (modificarMutex (interruptQuantum k) name
          (fun m => { m with liberado := true })) = vista k :=
        vista_modificarMutex (fun _ => rfl)
      have hthreads : (vista (soltar proximo (modificarMutex (interruptQuantum k) name
          (fun m => { m with liberado := true })))).threads.Subperm (vista k).threads := by
        rw [vista_soltar, hfree]
        exact (List.sublist_append_right _ _).subperm
      refine .quietos hthreads (fun hok => ?_) rfl hpid.symm
      have hno := hok.1
      simp [mutexAjeno, hrun, Fase.ejecutando?, hget ▸ hmutex, hajeno] at hno
    · exact efectoHilos_of_permite hmove henter (hqueda hpropio) (by simp) rfl hpid.symm
    · exact efectoHilos_of_permite hmove henter (hqueda hpropio) (by simp) rfl hpid.symm

theorem efectoHilos_threadExit
    {x : Nat}
    (hrun : k.fase = .ejecutando proximo)
    (h : threadExit cfg proximo (interruptQuantum k) = some k') :
    EfectoHilos cfg k (.respuesta (.threadExit x)) (soltar proximo k') := by
  obtain ⟨pcbs, k₁, hk₁, _, _, hrelease⟩ := threadExit_cases h
  have hvista : vista k₁ = vista k := by
    rw [hk₁]
    rfl
  have hwakes := unlockTcbJoins_despierta.trans (releaseAllMutexes_despierta hrelease)
  have hcorre : k'.fase.corriendo = some proximo.hilo := by
    rw [hwakes.corriendo, hk₁]
    simp [interruptQuantum, hrun, Fase.corriendo]
  refine .sale proximo ?_ ?_ (pidQueTermina_of_ejecutando hrun) rfl
  · rw [← threads_soltar hcorre, ← hvista]
    exact ((threads_releaseAllMutexes hrelease).trans (threads_unlockTcbJoins _ _ _)).symm
  · simp only [soltar]
    rw [hwakes, hk₁]
    rfl

theorem efectoHilos_respuesta
    {m : Mensaje Nat}
    (hc : Coherente k)
    (h : atenderMensaje cfg m k = some k') :
    EfectoHilos cfg k (.respuesta m) k' := by
  have hmove := (mueve_atenderMensaje hc h).1
  obtain ⟨proximo, pid, hrun, hpid, hsyscall⟩ := atenderMensaje_cases h
  have hnone := pidQueTermina_of_ejecutando hrun
  -- the messages that only move threads
  have hquieta : (∀ path priority, m ≠ .threadCreate path priority) →
      (∀ path size priority, m ≠ .processCreate path size priority) → ¬ Retira k proximo m →
      k'.memoria = k.memoria → pidQueTermina k' = none →
      EfectoHilos cfg k (.respuesta m) k' := by
    intro hthread hprocess hretira hmem hfin
    refine efectoHilos_of_permite hmove ?_ ?_ (by simp) hmem (hfin.trans hnone.symm)
    · rintro q (⟨_, _, _, _, heq, _⟩ | ⟨⟨hno, _⟩ | ⟨_, _, _, heq⟩, _⟩)
      · cases heq
        exact hthread _ _ rfl
      · cases hno
      · cases heq
        exact hprocess _ _ _ rfl
    · rintro p m' hfase he
      cases he
      rw [hrun] at hfase
      cases hfase
      exact hretira
  cases m with
  | processCreate path size priority =>
      cases hsyscall
      exact .procesos proximo path size priority hrun rfl
  | processExit x =>
      cases hsyscall
      rcases hpid with hpid | ⟨_, _, hno⟩
      · exact .empieza proximo .processExit pid hrun hpid rfl
      · cases hno
  | segmentationFault x y =>
      cases hsyscall
      rcases hpid with hpid | ⟨_, _, hno⟩
      · exact .empieza proximo .segmentationFault pid hrun hpid rfl
      · cases hno
  | threadCreate path priority =>
      cases hsyscall
      rcases hpid with hpid | ⟨_, _, hno⟩
      · exact .crea proximo pid path priority rfl hrun hpid rfl
      · cases hno
  | threadJoin tid =>
      cases hsyscall
      rcases threadJoin_cases tid proximo (interruptQuantum k) with ⟨_, heq⟩ | ⟨_, _, heq⟩
      · rw [heq] at hquieta ⊢
        exact hquieta (by simp) (by simp) (by simp [Retira]) rfl rfl
      · rw [heq] at hquieta ⊢
        exact hquieta (by simp) (by simp) (by simp [Retira]) rfl rfl
  | threadCancel tid =>
      obtain ⟨k₁, hcancel, hk'⟩ := Option.bind_eq_some_iff.mp hsyscall
      cases hk'
      refine hquieta (by simp) (by simp) (by simp [Retira]) ?_ rfl
      rcases threadCancel_cases hcancel with ⟨tcb, _, rfl⟩ | ⟨_, _, rfl⟩
      · simp only [seguirCon]
        rw [unlockTcbJoins_despierta]
        rfl
      · rfl
  | threadExit x =>
      obtain ⟨k₁, hexit, hk'⟩ := Option.bind_eq_some_iff.mp hsyscall
      cases hk'
      exact efectoHilos_threadExit hrun hexit
  | mutexCreate name x =>
      obtain ⟨k₁, hcreate, hk'⟩ := Option.bind_eq_some_iff.mp hsyscall
      cases hk'
      refine hquieta (by simp) (by simp) (by simp [Retira]) ?_ rfl
      rcases mutexCreate_cases hcreate with rfl | ⟨_, rfl⟩
      · rfl
      · rfl
  | mutexLock name x =>
      obtain ⟨⟨k₁, reservado⟩, hlock, hk'⟩ := Option.bind_eq_some_iff.mp hsyscall
      cases hk'
      exact efectoHilos_mutexLock hrun hmove hlock
  | mutexUnlock name x =>
      obtain ⟨k₁, hunlock, hk'⟩ := Option.bind_eq_some_iff.mp hsyscall
      cases hk'
      refine hquieta (by simp) (by simp) (by simp [Retira]) ?_ rfl
      simp only [seguirCon]
      rw [mutexUnlock_despierta hunlock]
      rfl
  | dumpMemory x y =>
      cases hsyscall
      exact hquieta (by simp) (by simp) (by simp [Retira]) rfl rfl
  | io milisegundos =>
      obtain ⟨tcb, _, hk'⟩ := Option.bind_eq_some_iff.mp hsyscall
      cases hk'
      exact hquieta (by simp) (by simp) (by simp [Retira]) rfl rfl
  | kernelInterruption x y =>
      cases hsyscall
      exact hquieta (by simp) (by simp) (by simp [Retira]) rfl rfl

theorem efectoHilos_despachar
    (hc : Coherente k)
    (h : despachar cfg k = some k') :
    EfectoHilos cfg k .despachar k' := by
  have hmove := (mueve_despachar hc h).1
  have henter : ∀ {a : Pool Hilo (Nat × Nat) Motivo} {t : Hilo},
      ¬ Permite cfg k .despachar a (.enter t) := by
    rintro a t ⟨⟨_, _, _, _, hno, _⟩ | ⟨⟨hno, _⟩ | ⟨_, _, _, hno⟩, _⟩, _⟩ <;> cases hno
  obtain ⟨seguir, previo, proximo, k₁, hfase, _, rfl, hcases⟩ := despachar_cases h
  have hpid : pidQueTermina k = none := by rw [pidQueTermina, hfase]
  refine .quietos (Pool.Reaches.threads_subperm hmove henter) (fun hok => ?_) ?_ hpid.symm
  · refine Pool.Reaches.threads_perm hmove henter ?_ ?_
    · rintro a t ⟨_, _, _, _, hno, _⟩
      cases hno
    · rintro a t ⟨_, hgemelo⟩
      exact hgemelo (hok.2 rfl)
  · rcases hcases with ⟨_, _, rfl⟩ | ⟨_, l, m, n, q, _, _, rfl⟩
    · rfl
    · rfl

theorem efectoHilos_seguirFin
    (hviejos : k.listaTcbsBlockeados = [])
    (h : seguirFin cfg k = some k') :
    EfectoHilos cfg k .seguirFin k' := by
  rcases seguirFin_cases h with
    ⟨causa, proximo, i, pid, k₁, avance, hfase, hpid, hround, hcases⟩ |
    ⟨causa, proximo, i, pid, k₁, hfase, hpid, hround, rfl⟩
  · have hfin : pidQueTermina k = some pid := by
      rw [pidQueTermina, hfase]
      exact hpid
    rcases finalizarHilo_cases hviejos hround with ⟨rfl, _, rfl⟩ |
      ⟨tcb, _, htcb, ⟨rfl, _, rfl⟩ | ⟨rfl, _, hrelease⟩⟩
    · rcases hcases with ⟨hno, _⟩ | ⟨hno, _⟩ | ⟨_, rfl⟩
      · cases hno
      · cases hno
      · exact .termina proximo causa pid hfin hpid (by rw [hfase]; rfl) rfl
    · rcases hcases with ⟨_, rfl⟩ | ⟨hno, _⟩ | ⟨hno, _⟩
      · refine .ronda pid tcb (List.Perm.of_eq ?_) hfin hpid (List.mem_of_getElem? htcb) rfl
        simp [vista, Pool.threads, hfase, Fase.corriendo]
      · cases hno
      · cases hno
    · rcases hcases with ⟨hno, _⟩ | ⟨_, rfl⟩ | ⟨hno, _⟩
      · cases hno
      · have hrest := releaseAllMutexes_despierta hrelease
        have hfase₁ : k₁.fase = k.fase := by rw [hrest]
        have hpid₁ : k₁.currentPcbExecuting = some pid := by rw [hrest]; exact hpid
        have hmem₁ : k₁.memoria = (cfg.deleteThreadMemory k.memoria tcb).1 := by rw [hrest]
        refine .ronda pid tcb ?_ hfin hpid₁ (List.mem_of_getElem? htcb) hmem₁
        have hthreads := threads_releaseAllMutexes hrelease
        simp only [vista, Pool.threads, hfase₁, hfase, Fase.corriendo] at hthreads ⊢
        exact hthreads
      · cases hno
  · have hfin : pidQueTermina k = some pid := by
      rw [pidQueTermina, hfase]
      exact hpid
    obtain ⟨n, tcb, _, _, hrelease⟩ := reanudarHilo_cases hviejos hround
    have hrest := releaseAllMutexes_despierta hrelease
    have hfase₁ : k₁.fase = k.fase := by rw [hrest]
    have hpid₁ : k₁.currentPcbExecuting = some pid := by rw [hrest]; exact hpid
    have hmem₁ : k₁.memoria = k.memoria := by rw [hrest]
    have hthreads : (vista { k₁ with fase := .finalizando causa proximo (i + 1) }).threads.Perm
        (vista k).threads := by
      have hperm := threads_releaseAllMutexes hrelease
      simp only [vista, Pool.threads, hfase₁, hfase, Fase.corriendo] at hperm ⊢
      exact hperm
    exact .quietos hthreads.subperm (fun _ => hthreads) hmem₁ (hpid₁.trans hfin.symm)

theorem efectoHilos_ioFin
    (h : ioFin k = some k') :
    EfectoHilos cfg k .ioFin k' := by
  obtain ⟨hmove, _, hmisma⟩ := mueve_ioFin
    (fun _ l => ∀ t, l ≠ .enter t ∧ l ≠ .drop t ∧ l ≠ .lose t) (by simp) (by simp) h
  have hperm := threads_perm_of_mueve hmove
  refine .quietos hperm.subperm (fun _ => hperm) ?_ ?_
  · obtain ⟨request, resto, _, ⟨l, t, m, _, _, _, rfl⟩ | ⟨_, rfl⟩⟩ := ioFin_cases h
    · rfl
    · rfl
  · rw [pidQueTermina, pidQueTermina, hmisma.1, hmisma.2.2]

theorem efectoHilos_dumpRespuesta
    {j : Nat} {r : RespuestaDump}
    (h : dumpRespuesta j r k = some k') :
    EfectoHilos cfg k (.dumpRespuesta j r) k' := by
  obtain ⟨hmove, _, hmisma⟩ := mueve_dumpRespuesta
    (fun _ l => ∀ t, l ≠ .enter t ∧ l ≠ .drop t ∧ l ≠ .lose t) (by simp) (by simp) (by simp) h
  have hperm := threads_perm_of_mueve hmove
  refine .quietos hperm.subperm (fun _ => hperm) ?_ ?_
  · obtain ⟨d, _, _, ⟨_, rfl⟩ | ⟨_, _, rfl⟩ | ⟨_, rfl⟩⟩ := dumpRespuesta_cases h
    · rfl
    · rfl
    · rfl
  · rw [pidQueTermina, pidQueTermina, hmisma.1, hmisma.2.2]

/-- What every step does, when no dump is ending its process. -/
theorem efectoHilos_paso
    (hc : Coherente k)
    (hdumps : ∀ d ∈ k.dumps, d.fase = .enVuelo)
    (h : paso cfg k e = some k') :
    EfectoHilos cfg k e k' := by
  cases e with
  | despachar =>
      exact efectoHilos_despachar hc h
  | respuesta m =>
      exact efectoHilos_respuesta hc h
  | seguirFin =>
      exact efectoHilos_seguirFin hc.viejos h
  | ioFin =>
      exact efectoHilos_ioFin h
  | dumpRespuesta j r =>
      exact efectoHilos_dumpRespuesta h
  | dumpSeguir j =>
      obtain ⟨d, hd, hcases⟩ := dumpSeguir_cases h
      have hvuelo := hdumps d (List.mem_of_getElem? hd)
      rcases hcases with ⟨pid, i, _, _, hfase, _⟩ | ⟨pid, i, _, hfase, _⟩
      · rw [hfase] at hvuelo
        cases hvuelo
      · rw [hfase] at hvuelo
        cases hvuelo

end Effects

/-- The TCBs that a PCB keeps are of its process. -/
def TcbsPropios (k : Globals μ) : Prop := ∀ q, ∀ t ∈ (k.pcbs q).tcbs, t.parentPid = q

section Pcbs

variable {cfg : Config μ} {k k' : Globals μ} {e : Evento} {pid : Nat}

theorem TcbsPropios.of_tcbs
    (h : TcbsPropios k)
    (htcbs : ∀ q, (k'.pcbs q).tcbs = (k.pcbs q).tcbs) :
    TcbsPropios k' := by
  intro q t ht
  exact h q t (htcbs q ▸ ht)

theorem TcbsPropios.createThread
    (h : TcbsPropios k)
    (cfg : Config μ) (pid : Nat) (path : List Char) (priority : Nat) :
    TcbsPropios (createThread cfg k pid path priority).1 := by
  intro q t ht
  rw [createThread_resto] at ht
  by_cases hq : q = pid
  · subst hq
    simp only [Function.update_self, addTcbToPcb] at ht
    rcases List.mem_append.mp ht with ht | ht
    · exact h q t ht
    · rw [List.mem_singleton.mp ht]
      rfl
  · simp only [Function.update_of_ne hq] at ht
    exact h q t ht

theorem TcbsPropios.rounds
    (h : TcbsPropios k)
    (cfg : Config μ) (n : Nat) :
    TcbsPropios (tryCreateRounds cfg n k) := by
  refine tryCreateRounds_invariant cfg (I := TcbsPropios) n h ?_ ?_
  · exact fun ha => ha
  · intro a pid resto peticion peticiones ha _ _
    exact ha.createThread cfg pid peticion.nombreArchivo peticion.prioridad

theorem TcbsPropios.pedir
    (h : TcbsPropios k)
    (path : List Char) (size priority : Nat) :
    TcbsPropios (pedirProceso path size priority k) := by
  intro q t ht
  simp only [pedirProceso, createProcess] at ht
  by_cases hq : q = k.globalPid
  · subst hq
    simp at ht
  · simp only [Function.update_of_ne hq] at ht
    exact h q t ht

theorem movePcbToExit_tcbs
    (k : Globals μ) (pid q : Nat) :
    ((movePcbToExit k pid).pcbs q).tcbs = (k.pcbs q).tcbs := by
  unfold movePcbToExit
  split_ifs
  · by_cases hq : q = pid
    · subst hq
      simp [modificarPcb]
    · simp [modificarPcb, hq]
  · rfl

theorem TcbsPropios.terminarProceso
    (h : TcbsPropios k)
    (cfg : Config μ) (causa : Causa) (pid : Nat) :
    TcbsPropios (terminarProceso cfg causa pid k) := by
  have hend : TcbsPropios (Kernel.terminarProceso cfg .segmentationFault pid k) := by
    intro q t ht
    by_cases hq : q = pid
    · subst hq
      simp [Kernel.terminarProceso, movePcbToExit_tcbs, modificarPcb] at ht
    · obtain ⟨pcbs, salida, k₁, rfl, hpcbs, heq⟩ :=
        terminarProceso_cases cfg .segmentationFault pid k
      rw [heq] at ht
      simp only [hpcbs q hq] at ht
      exact h q t ht
  cases causa with
  | segmentationFault =>
      exact hend
  | processExit =>
      exact hend.rounds cfg _

theorem TcbsPropios.respuesta
    {m : Mensaje Nat}
    (h : TcbsPropios k)
    (hstep : atenderMensaje cfg m k = some k') :
    TcbsPropios k' := by
  obtain ⟨proximo, pid, hrun, hpid, hsyscall⟩ := atenderMensaje_cases hstep
  cases m with
  | processCreate path size priority =>
      cases hsyscall
      exact (TcbsPropios.pedir (k := interruptQuantum k) h path size priority).rounds cfg _
  | threadCreate path priority =>
      cases hsyscall
      exact TcbsPropios.createThread (k := interruptQuantum k) h cfg pid path priority
  | threadJoin tid =>
      cases hsyscall
      rcases threadJoin_cases tid proximo (interruptQuantum k) with ⟨_, heq⟩ | ⟨_, _, heq⟩
      · rw [heq]
        exact h
      · rw [heq]
        exact h
  | threadCancel tid =>
      obtain ⟨k₁, hcancel, hk'⟩ := Option.bind_eq_some_iff.mp hsyscall
      cases hk'
      rcases threadCancel_cases hcancel with ⟨tcb, _, rfl⟩ | ⟨_, _, rfl⟩
      · refine h.of_tcbs (fun q => ?_)
        simp only [seguirCon]
        rw [unlockTcbJoins_despierta]
        rfl
      · exact h
  | threadExit x =>
      obtain ⟨k₁, hexit, hk'⟩ := Option.bind_eq_some_iff.mp hsyscall
      cases hk'
      obtain ⟨pcbs, k₂, hk₂, htcbs, _, hrelease⟩ := threadExit_cases hexit
      have hwakes := unlockTcbJoins_despierta.trans (releaseAllMutexes_despierta hrelease)
      refine h.of_tcbs (fun q => ?_)
      simp only [soltar]
      rw [hwakes, hk₂]
      exact (htcbs q).1
  | mutexCreate name x =>
      obtain ⟨k₁, hcreate, hk'⟩ := Option.bind_eq_some_iff.mp hsyscall
      cases hk'
      rcases mutexCreate_cases hcreate with rfl | ⟨_, rfl⟩
      · exact h
      · refine h.of_tcbs (fun q => ?_)
        by_cases hq : q = pid
        · subst hq
          simp [seguirCon, addMutexToPcb, interruptQuantum]
        · simp [seguirCon, interruptQuantum, hq]
  | mutexLock name x =>
      obtain ⟨⟨k₁, reservado⟩, hlock, hk'⟩ := Option.bind_eq_some_iff.mp hsyscall
      cases hk'
      refine h.of_tcbs (fun q => ?_)
      rcases mutexLock_cases hlock with ⟨_, rfl, salida, rfl⟩ |
        ⟨m, _, ⟨_, rfl, rfl⟩ | ⟨_, _, rfl, rfl⟩ | ⟨_, _, _, rfl, rfl⟩⟩ <;> rfl
  | mutexUnlock name x =>
      obtain ⟨k₁, hunlock, hk'⟩ := Option.bind_eq_some_iff.mp hsyscall
      cases hk'
      refine h.of_tcbs (fun q => ?_)
      simp only [seguirCon]
      rw [mutexUnlock_despierta hunlock]
      rfl
  | io milisegundos =>
      obtain ⟨tcb, _, hk'⟩ := Option.bind_eq_some_iff.mp hsyscall
      cases hk'
      exact h
  | _ =>
      cases hsyscall
      exact h

/-- They stay so in every step. -/
theorem TcbsPropios.paso
    (h : TcbsPropios k)
    (hviejos : k.listaTcbsBlockeados = [])
    (hstep : paso cfg k e = some k') :
    TcbsPropios k' := by
  cases e with
  | despachar =>
      obtain ⟨seguir, previo, proximo, k₁, _, _, rfl, hcases⟩ := despachar_cases hstep
      rcases hcases with ⟨_, _, rfl⟩ | ⟨_, l, m, n, q, _, _, rfl⟩
      · exact h
      · exact h
  | respuesta m =>
      exact h.respuesta hstep
  | seguirFin =>
      rcases seguirFin_cases hstep with
        ⟨causa, proximo, i, pid, k₁, avance, _, _, hround, hcases⟩ |
        ⟨causa, proximo, i, pid, k₁, _, _, hround, rfl⟩
      · obtain ⟨_, _, salida, m, hresto⟩ := mueve_finalizarHilo .seguirFin hviejos hround
        have h₁ : TcbsPropios k₁ := h.of_tcbs (fun q => by rw [hresto])
        rcases hcases with ⟨_, rfl⟩ | ⟨_, rfl⟩ | ⟨_, rfl⟩
        · exact h₁
        · exact h₁
        · exact h₁.terminarProceso cfg causa pid
      · obtain ⟨n, tcb, _, _, hrelease⟩ := reanudarHilo_cases hviejos hround
        exact h.of_tcbs (fun q => by rw [releaseAllMutexes_despierta hrelease])
  | ioFin =>
      obtain ⟨request, resto, _, ⟨l, t, m, _, _, _, rfl⟩ | ⟨_, rfl⟩⟩ := ioFin_cases hstep
      · exact h
      · exact h
  | dumpRespuesta j r =>
      obtain ⟨d, _, _, ⟨_, rfl⟩ | ⟨_, _, rfl⟩ | ⟨_, rfl⟩⟩ := dumpRespuesta_cases hstep
      · exact h
      · exact h
      · exact h
  | dumpSeguir j =>
      obtain ⟨d, _, hcases⟩ := dumpSeguir_cases hstep
      rcases hcases with ⟨q, i, k₁, avance, _, hround, hcases⟩ | ⟨q, i, k₁, _, hround, rfl⟩
      · obtain ⟨_, _, salida, m, hresto⟩ := mueve_finalizarHilo (.dumpSeguir j) hviejos hround
        have h₁ : TcbsPropios k₁ := h.of_tcbs (fun q => by rw [hresto])
        rcases hcases with ⟨_, rfl⟩ | ⟨_, rfl⟩ | ⟨_, rfl⟩
        · exact h₁
        · exact h₁
        · exact h₁
      · obtain ⟨n, tcb, _, _, hrelease⟩ := reanudarHilo_cases hviejos hround
        exact h.of_tcbs (fun q => by rw [releaseAllMutexes_despierta hrelease])

end Pcbs

/-- `s` has everything in `t`; if `exacto`, nothing else. -/
def Cubre {α : Type} (exacto : Prop) (s t : Multiset α) : Prop :=
  ∃ sobra, (exacto → sobra = 0) ∧ s = t + sobra

section Cover

variable {α : Type} {exacto : Prop} {s t : Multiset α} {c : α}

theorem Cubre.le
    (h : Cubre exacto s t) :
    t ≤ s := by
  obtain ⟨sobra, _, rfl⟩ := h
  exact Multiset.le_add_right t sobra

theorem Cubre.eq
    (h : Cubre exacto s t)
    (hexacto : exacto) :
    s = t := by
  obtain ⟨sobra, hsobra, rfl⟩ := h
  rw [hsobra hexacto, Multiset.add_zero]

theorem Cubre.cons
    (h : Cubre exacto s t) (c : α) :
    Cubre exacto (c ::ₘ s) (c ::ₘ t) := by
  obtain ⟨sobra, hsobra, rfl⟩ := h
  exact ⟨sobra, hsobra, (Multiset.cons_add c t sobra).symm⟩

theorem Cubre.erase
    [DecidableEq α]
    (h : Cubre exacto s (c ::ₘ t)) :
    Cubre exacto (s.erase c) t := by
  obtain ⟨sobra, hsobra, rfl⟩ := h
  refine ⟨sobra, hsobra, ?_⟩
  rw [Multiset.cons_add, Multiset.erase_cons_head]

theorem Cubre.filter
    (p : α → Prop) [DecidablePred p]
    (h : Cubre exacto s t) :
    Cubre exacto (s.filter p) (t.filter p) := by
  obtain ⟨sobra, hsobra, rfl⟩ := h
  refine ⟨sobra.filter p, fun hexacto => ?_, Multiset.filter_add p t sobra⟩
  rw [hsobra hexacto, Multiset.filter_zero]

theorem filter_erase_of_not
    [DecidableEq α]
    {p : α → Prop} [DecidablePred p]
    (hc : ¬ p c) :
    (s.erase c).filter p = s.filter p := by
  by_cases hmem : c ∈ s
  · obtain ⟨t, rfl⟩ := Multiset.exists_cons_of_mem hmem
    rw [Multiset.erase_cons_head, Multiset.filter_cons_of_neg _ hc]
  · rw [Multiset.erase_of_notMem hmem]

/-- Some of `t` may go, unless the cover is to be exact. -/
theorem Cubre.menos
    {t' : Multiset α}
    (h : Cubre exacto s t)
    (hle : t' ≤ t)
    (heq : exacto → t' = t) :
    Cubre exacto s t' := by
  obtain ⟨sobra, hsobra, rfl⟩ := h
  obtain ⟨u, rfl⟩ := Multiset.le_iff_exists_add.mp hle
  refine ⟨u + sobra, fun hexacto => ?_, Multiset.add_assoc t' u sobra⟩
  have hu : u = 0 :=
    Multiset.add_right_inj.mp ((heq hexacto).symm.trans (Multiset.add_zero t').symm)
  rw [hu, hsobra hexacto, Multiset.add_zero]

end Cover

/-- The live threads, as they are sent to memoria. -/
def vivos (k : Globals μ) : Multiset (UInt32 × UInt32) := ↑((vista k).threads.map Hilo.clave)

/-- The contexts outside the process that is ending. -/
def Residencia.fuera (r : Residencia) : Option Nat → Multiset (UInt32 × UInt32)
  | none => r.hilos
  | some pid => r.hilos.filter (fun i => i.1 ≠ .ofNat pid)

/-- Every live thread, and every one that the device has in `mano`, has its context in
memoria; if `exacto`, only they have one. -/
def Contextos (res : μ → Residencia) (exacto : Prop) (mano : Multiset (UInt32 × UInt32))
    (k : Globals μ) : Prop :=
  Cubre exacto ((res k.memoria).fuera (pidQueTermina k)) (vivos k + mano)

section Contexts

variable {cfg : Config μ} {res : μ → Residencia} {I : μ → Prop} {exacto : Prop}
  {mano : Multiset (UInt32 × UInt32)} {k k' : Globals μ} {e : Evento} {pid : Nat} {p : Tcb}

theorem vivos_of_threads
    (h : (vista k').threads.Perm (vista k).threads) :
    vivos k' = vivos k :=
  Multiset.coe_eq_coe.mpr (h.map Hilo.clave)

theorem vivos_cons
    {h : Hilo}
    (hperm : (vista k').threads.Perm (h :: (vista k).threads)) :
    vivos k' = h.clave ::ₘ vivos k :=
  Multiset.coe_eq_coe.mpr (hperm.map Hilo.clave)

theorem vivos_soltar
    (h : k.fase.corriendo = none) :
    vivos (soltar p k) = vivos k := by
  have hvista : vista (soltar p k) = vista k := by
    rw [vista_soltar]
    simp [vista, h]
  rw [vivos, vivos, hvista]

/-- A thread of another process is sent with another PID. -/
theorem Residentes.clave_ne
    {h : Hilo}
    (hres : Residentes res I k)
    (hpids : k.globalPid ≤ pidsDisponibles)
    (hh : h ∈ (vista k).threads)
    (hpid : pid < k.globalPid)
    (hne : h.pid ≠ pid) :
    h.clave.1 ≠ .ofNat pid := by
  intro heq
  have hlt := (hres.coherente.hilos h (List.mem_append_left _ hh)).1
  exact hne (ofNat_inj_of_lt (lt_of_lt_of_le hlt hpids) (lt_of_lt_of_le hpid hpids) heq)

/-- Threads of other processes are all outside. -/
theorem filter_vivos
    (hres : Residentes res I k)
    (hpids : k.globalPid ≤ pidsDisponibles)
    (hsin : SinHilos k pid) :
    (vivos k).filter (fun i => i.1 ≠ .ofNat pid) = vivos k := by
  rw [Multiset.filter_eq_self]
  intro i hi
  obtain ⟨h, hh, rfl⟩ := List.mem_map.mp (Multiset.mem_coe.mp hi)
  exact hres.clave_ne hpids hh hsin.emitido (hsin.hilos h hh)

theorem tryCreateNewProcess_fase
    (cfg : Config μ) (k : Globals μ) :
    (tryCreateNewProcess cfg k).1.fase = k.fase := by
  rcases tryCreateNewProcess_cases cfg k with ⟨m, heq⟩ | ⟨pid, resto, _, _, m, _, _, heq⟩
  · rw [heq]
  · rw [heq]
    simp only [procesoCreado]
    rw [createThread_resto]

/-- A created thread has its context. -/
theorem Cubre.createThread
    (hspec : Reside cfg res I)
    (hm : I k.memoria)
    (h : Cubre exacto (res k.memoria).hilos (vivos k + mano))
    (pid : Nat) (path : List Char) (priority : Nat) :
    Cubre exacto (res (createThread cfg k pid path priority).1.memoria).hilos
      (vivos (createThread cfg k pid path priority).1 + mano) := by
  obtain ⟨_, ⟨_, t, _, hperm, hres⟩ | ⟨_, hthreads, hres⟩⟩ :=
    createThread_residencia hspec pid path priority hm
  · rw [vivos_cons hperm, hres, Multiset.cons_add]
    exact h.cons t.clave
  · rw [vivos_of_threads (List.Perm.of_eq hthreads), hres]
    exact h

/-- A process that memoria creates has no context at first. -/
theorem Residentes.hilos_createProcessMemory
    {resto : List Nat}
    (hspec : Reside cfg res I)
    (hres : Residentes res I k)
    (hpids : k.globalPid ≤ pidsDisponibles)
    (hnew : k.listPcbNew = pid :: resto) :
    I (cfg.createProcessMemory k.memoria pid (k.pcbs pid).size).1 ∧
      (res (cfg.createProcessMemory k.memoria pid (k.pcbs pid).size).1).hilos =
        (res k.memoria).hilos := by
  obtain ⟨hpid, -, hout⟩ := hres.noActivo hpids hnew
  obtain ⟨hm, hmem⟩ := hspec.crear (k.pcbs pid).size hres.memoria hpid hout
  refine ⟨hm, ?_⟩
  rw [hmem]
  split_ifs <;> rfl

/-- So has the first thread of a process that the long-term scheduler creates. -/
theorem Cubre.intento
    (hspec : Reside cfg res I)
    (hres : Residentes res I k)
    (hpids : k.globalPid ≤ pidsDisponibles)
    (h : Cubre exacto (res k.memoria).hilos (vivos k + mano)) :
    Cubre exacto (res (tryCreateNewProcess cfg k).1.memoria).hilos
      (vivos (tryCreateNewProcess cfg k).1 + mano) := by
  rcases tryCreateNewProcess_pedidos cfg k with ⟨heq, _⟩ | ⟨pid, resto, hnew, _, heq⟩ |
    ⟨pid, resto, peticion, peticiones, hnew, _, _, heq⟩
  · rw [heq]
    exact h
  · rw [heq]
    exact (hres.hilos_createProcessMemory hspec hpids hnew).2 ▸ h
  · obtain ⟨hm, hhilos⟩ := hres.hilos_createProcessMemory hspec hpids hnew
    rw [heq]
    exact Cubre.createThread
      (k := { k with memoria := (cfg.createProcessMemory k.memoria pid (k.pcbs pid).size).1 })
      hspec hm (hhilos ▸ h) pid peticion.nombreArchivo peticion.prioridad

/-- The long-term scheduler, for a dispatcher that ends no process. -/
theorem Cubre.bucle
    (hspec : Reside cfg res I)
    (hres : Residentes res I k)
    (hpids : k.globalPid ≤ pidsDisponibles)
    (h : Cubre exacto (res k.memoria).hilos (vivos k + mano)) :
    Cubre exacto (res (tryCreateNewProcessLoop cfg k).memoria).hilos
        (vivos (tryCreateNewProcessLoop cfg k) + mano) ∧
      (tryCreateNewProcessLoop cfg k).fase = k.fase := by
  refine ((tryCreateNewProcessLoop_run cfg k).invariant
    (I := fun v => (Residentes res I v ∧ v.globalPid = k.globalPid) ∧
      Cubre exacto (res v.memoria).hilos (vivos v + mano) ∧ v.fase = k.fase)
    ⟨⟨hres, rfl⟩, h, rfl⟩ ?_).2.2
  rintro v ⟨⟨hv, hglobal⟩, hcubre, hfase⟩
  exact ⟨⟨hv.intento hspec (hglobal ▸ hpids),
      (tryCreateNewProcess_globalPid cfg v).trans hglobal⟩,
    hcubre.intento hspec hv (hglobal ▸ hpids), (tryCreateNewProcess_fase cfg v).trans hfase⟩

/-- What the proof of a step needs of the kernel before it. -/
structure Previo (cfg : Config μ) (res : μ → Residencia) (I : μ → Prop) (k : Globals μ) :
    Prop where
  residentes : Residentes res I k
  cerrados : ProcesosCerrados k
  propios : TcbsPropios k

/-- The executing process starts to end: its only live thread was the running one. -/
theorem Contextos.empieza
    {causa : Causa}
    (h : Contextos res exacto mano k)
    (hres : Residentes res I k')
    (hpids : k'.globalPid ≤ pidsDisponibles)
    (hcoherente : Coherente k)
    (hrun : k.fase = .ejecutando p)
    (hpid : k.currentPcbExecuting = some pid)
    (hk' : k' = { interruptQuantum k with fase := .finalizando causa p 0 })
    (hsin : SinHilos k' pid)
    (hmano : ∀ i ∈ mano, i.1 ≠ .ofNat pid) :
    Contextos res exacto mano k' := by
  have hp : pid = p.parentPid := hcoherente.pcbActual p (by rw [hrun]; rfl) pid hpid
  have hvivos : vivos k = p.hilo.clave ::ₘ vivos k' := by
    refine vivos_cons (List.Perm.of_eq ?_)
    simp [hk', vista, Pool.threads, hrun, Fase.corriendo, interruptQuantum]
  have hfin : pidQueTermina k' = some pid := by
    rw [hk', pidQueTermina]
    exact hpid
  have hmem : k'.memoria = k.memoria := by
    rw [hk']
    rfl
  have hclave : ¬ p.hilo.clave.1 ≠ .ofNat pid := by
    rw [hp]
    exact not_not_intro rfl
  rw [Contextos, pidQueTermina_of_ejecutando hrun, Residencia.fuera, hvivos,
    Multiset.cons_add] at h
  rw [Contextos, hfin, hmem]
  have hsale : (p.hilo.clave ::ₘ (vivos k' + mano)).filter (fun i => i.1 ≠ .ofNat pid) =
      vivos k' + mano := by
    rw [Multiset.filter_cons_of_neg (p := fun i : UInt32 × UInt32 => i.1 ≠ .ofNat pid) _ hclave,
      Multiset.filter_add, filter_vivos hres hpids hsin, Multiset.filter_eq_self.mpr hmano]
  have hfuera := h.filter (fun i => i.1 ≠ .ofNat pid)
  rw [hsale] at hfuera
  exact hfuera

/-- A round takes out the context of a TCB of the process that is ending. -/
theorem Contextos.ronda
    {t : Tcb}
    (hspec : Reside cfg res I)
    (h : Contextos res exacto mano k)
    (hprevio : Previo cfg res I k)
    (hthreads : (vista k').threads.Perm (vista k).threads)
    (hpid : pidQueTermina k = some pid)
    (hpid' : pidQueTermina k' = some pid)
    (ht : t ∈ (k.pcbs pid).tcbs)
    (hmem : k'.memoria = (cfg.deleteThreadMemory k.memoria t).1) :
    Contextos res exacto mano k' := by
  have hclave : t.hilo.clave.1 = .ofNat pid := by
    rw [← hprevio.propios pid t ht]
    rfl
  have hfuera : (res k'.memoria).fuera (some pid) = (res k.memoria).fuera (some pid) := by
    rw [hmem, (hspec.quitar t hprevio.residentes.memoria).2]
    exact filter_erase_of_not (fun hne => hne hclave)
  rw [Contextos, hpid', hfuera, vivos_of_threads hthreads, ← hpid]
  exact h

/-- The process is over: what memoria keeps is what was outside. -/
theorem Contextos.termina
    {causa : Causa}
    (hspec : Reside cfg res I)
    (h : Contextos res exacto mano k)
    (hprevio : Previo cfg res I k)
    (hpids : k.globalPid ≤ pidsDisponibles)
    (hfin : pidQueTermina k = some pid)
    (hpid : k.currentPcbExecuting = some pid)
    (hcorre : k.fase.corriendo = none) :
    Contextos res exacto mano (soltar p (terminarProceso cfg causa pid k)) := by
  obtain ⟨pcbs, salida, k₁, hk₁, _, hrest⟩ := terminarProceso_cases cfg .segmentationFault pid k
  have hres := hprevio.residentes.terminarProceso hspec hpids hpid .segmentationFault
  have hglobal : (terminarProceso cfg .segmentationFault pid k).globalPid = k.globalPid := by
    rw [hrest, hk₁]
  have hcubre : Cubre exacto (res (terminarProceso cfg .segmentationFault pid k).memoria).hilos
      (vivos (terminarProceso cfg .segmentationFault pid k) + mano) := by
    rw [Contextos, hfin] at h
    have hvivos : vivos k₁ = vivos k := by
      rw [hk₁]
      rfl
    have hmem := (hspec.borrar pid (k.pcbs pid).size hprevio.residentes.memoria).2
    rw [hrest]
    simp only
    rw [hvivos, hk₁, hmem]
    exact h
  have hcorre₁ : (terminarProceso cfg .segmentationFault pid k).fase.corriendo = none := by
    rw [hrest, hk₁]
    exact hcorre
  cases causa with
  | segmentationFault =>
      rw [Contextos, vivos_soltar hcorre₁]
      exact hcubre
  | processExit =>
      obtain ⟨hloop, hfase⟩ := hcubre.bucle hspec hres (hglobal.symm ▸ hpids)
      rw [Contextos]
      have hlast : (tryCreateNewProcessLoop cfg
          (terminarProceso cfg .segmentationFault pid k)).fase.corriendo = none := by
        rw [hfase]
        exact hcorre₁
      exact (vivos_soltar hlast (p := p)).symm ▸ hloop

/-- The contexts follow the threads in every step that starts to end a process cleanly. -/
theorem Contextos.paso
    (hspec : Reside cfg res I)
    (h : Contextos res exacto mano k)
    (hprevio : Previo cfg res I k)
    (hres' : Residentes res I k')
    (hpids : k'.globalPid ≤ pidsDisponibles)
    (hlimpio : FinLimpio k e)
    (hpierde : exacto → SinPerdidas cfg k e)
    (hmano : ∀ pid ∈ pidQueTermina k', ∀ i ∈ mano, i.1 ≠ .ofNat pid)
    (hstep : paso cfg k e = some k') :
    Contextos res exacto mano k' := by
  obtain ⟨hres, hcerrados, hpropios⟩ := hprevio
  have hpids₀ : k.globalPid ≤ pidsDisponibles := (globalPid_le_paso hres.fila hstep).trans hpids
  cases efectoHilos_paso hres.coherente hcerrados.dumps hstep with
  | quietos hsub hperm hmem hfin =>
      rw [Contextos, hmem, hfin]
      refine Cubre.menos h ?_
        (fun hexacto => congrArg (· + mano) (vivos_of_threads (hperm (hpierde hexacto))))
      exact Multiset.add_le_add_right
        (Multiset.map_le_map (f := Hilo.clave) (Multiset.coe_le.mpr hsub))
  | sale p hperm hmem hnone hnone' =>
      rw [Contextos, hnone, Residencia.fuera, vivos_cons hperm, Multiset.cons_add] at h
      rw [Contextos, hnone', Residencia.fuera, hmem, (hspec.quitar p hres.memoria).2]
      exact h.erase
  | crea p pid path priority _ hrun _ hk' =>
      have hcubre : Cubre exacto (res k.memoria).hilos (vivos k + mano) := by
        rwa [Contextos, pidQueTermina_of_ejecutando hrun] at h
      have hcorre : (createThread cfg (interruptQuantum k) pid path priority).1.fase.corriendo =
          some p.hilo := by
        rw [createThread_resto]
        simp [interruptQuantum, hrun, Fase.corriendo]
      rw [hk', Contextos, vivos, vista_seguirCon hcorre]
      exact Cubre.createThread (k := interruptQuantum k) hspec hres.memoria hcubre pid path
        priority
  | procesos p path size priority hrun hk' =>
      have hcubre : Cubre exacto (res k.memoria).hilos (vivos k + mano) := by
        rwa [Contextos, pidQueTermina_of_ejecutando hrun] at h
      have hwait := hres.interruptQuantum.pedir path size priority
      have hsame : (pedirProceso path size priority (interruptQuantum k)).globalPid ≤
          pidsDisponibles := by
        have hloop : k'.globalPid =
            (pedirProceso path size priority (interruptQuantum k)).globalPid := by
          obtain ⟨_, _, hfila⟩ := hwait.fila
          rw [hk']
          exact (Fila.bucle cfg hfila).2.emitidos.trans hfila.emitidos.symm
        exact hloop ▸ hpids
      obtain ⟨hloop, hfase⟩ := Cubre.bucle
        (k := pedirProceso path size priority (interruptQuantum k)) hspec hwait hsame hcubre
      have hcorre : (tryCreateNewProcessLoop cfg
          (pedirProceso path size priority (interruptQuantum k))).fase.corriendo =
            some p.hilo := by
        rw [hfase]
        simp [pedirProceso, createProcess, interruptQuantum, hrun, Fase.corriendo]
      rw [hk', Contextos, vivos, vista_seguirCon hcorre]
      exact hloop
  | empieza p causa pid hrun hpid hk' =>
      have hfin : k'.currentPcbExecuting = some pid := by
        rw [hk']
        exact hpid
      have hsin := (hcerrados.fin_paso hlimpio hstep causa p 0 pid (Or.inl (by rw [hk'])) hfin).1
      have htermina : pidQueTermina k' = some pid := by
        rw [hk', pidQueTermina]
        exact hpid
      exact h.empieza hres' hpids hres.coherente hrun hpid hk' hsin (hmano pid htermina)
  | ronda pid t hperm hpid hpid' ht hmem =>
      exact h.ronda hspec ⟨hres, hcerrados, hpropios⟩ hperm hpid hpid' ht hmem
  | termina p causa pid hfin hpid hcorre hk' =>
      rw [hk']
      exact h.termina hspec ⟨hres, hcerrados, hpropios⟩ hpids₀ hfin hpid hcorre

end Contexts

section Runs

variable {cfg : Config μ} {res : μ → Residencia} {I : μ → Prop} {exacto : Prop}
  {mano : Multiset (UInt32 × UInt32)} {k k' : Globals μ} {e : Evento} {m : μ}

theorem ProcesosCerrados.conMemoria
    (h : ProcesosCerrados k) (m : μ) :
    ProcesosCerrados { k with memoria := m } := by
  refine ⟨h.coherente.conMemoria m, h.solida, ⟨h.colas.1, h.colas.2⟩, h.joins, h.activos,
    h.dumps, ?_⟩
  intro causa p i pid hfase hpid
  obtain ⟨hsin, hmutexes⟩ := h.fin causa p i pid hfase hpid
  exact ⟨⟨hsin.hilos, hsin.emitido, hsin.noNuevo⟩, ⟨hmutexes.sinCola, hmutexes.duenos⟩⟩

theorem Contextos.conMemoria
    (h : Contextos res exacto mano k)
    (hres : res m = res k.memoria) :
    Contextos res exacto mano { k with memoria := m } := by
  unfold Contextos at h ⊢
  rw [← hres] at h
  exact h

/-- The start: an empty table, and the first thread of the first process. -/
theorem previo_arranque
    (hspec : Reside cfg res I)
    (hm : I m)
    (hempty : (res m).procesos = 0)
    (path : List Char) (size : Nat) :
    Previo cfg res I (arranque cfg m path size) where
  residentes := residentes_arranque hspec hm hempty path size
  cerrados := procesosCerrados_of_alcanza ⟨m, path, size, Run.nil⟩
  propios := by
    have hstart : TcbsPropios (inicial m) := by
      intro q t ht
      cases ht
    exact (hstart.pedir path size 0).rounds cfg _

theorem contextos_arranque
    (hspec : Reside cfg res I)
    (hm : I m)
    (hempty : res m = ⟨0, 0⟩)
    (path : List Char) (size : Nat) :
    Contextos res exacto 0 (arranque cfg m path size) := by
  have hstart : Residentes res I (inicial m) :=
    ⟨coherente_inicial m, ⟨[], [], fila_inicial m⟩, by simp [inicial], hm,
      congrArg Residencia.procesos hempty, List.nodup_nil⟩
  have hcubre : Cubre exacto (res m).hilos (vivos (pedirProceso path size 0 (inicial m)) + 0) :=
    ⟨0, fun _ => rfl, congrArg Residencia.hilos hempty⟩
  have huno : (pedirProceso path size 0 (inicial m)).globalPid ≤ pidsDisponibles :=
    (by decide : 1 ≤ pidsDisponibles)
  obtain ⟨hloop, hfase⟩ := Cubre.bucle hspec (hstart.pedir path size 0) huno hcubre
  have hplanifica : (arranque cfg m path size).fase = .planificar false none := hfase
  rw [Contextos, pidQueTermina, hplanifica]
  exact hloop

end Runs

end Kernel
end SinIdeas
