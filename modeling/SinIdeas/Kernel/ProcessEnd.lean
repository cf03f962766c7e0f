import SinIdeas.Kernel.JoinWakeups
import SinIdeas.Kernel.MutexQueues

/-!
# The end of a process

PROCESS_EXIT and SEGMENTATION_FAULT release the mutexes of the first `tid_count` TCBs
of the process and take none of its threads out of READY or BLOCKED; a dump that fails
leaves its own thread in BLOCKED. A process leaves no trace when it ends with its only
thread, and every mutex that it owns is owned under the TID of one of those TCBs.
-/

namespace SinIdeas
namespace Kernel

open Lib

variable {μ : Type}

/-- The TIDs whose mutexes the loop that ends the process still has to release. -/
def tidsDeFin (k : Globals μ) (pid i : Nat) : List Nat :=
  (((k.pcbs pid).tcbs.take (k.pcbs pid).tidCount).drop i).map Tcb.tid

/-- The process that the event starts to end. -/
def procesoQueTermina (k : Globals μ) : Evento → Option Nat
  | .respuesta (.processExit _) => do
      let _ ← k.fase.ejecutando?
      k.currentPcbExecuting
  | .respuesta (.segmentationFault _ _) => do
      let _ ← k.fase.ejecutando?
      k.currentPcbExecuting
  | .dumpRespuesta j .error => (k.dumps[j]?).map (fun d => d.tcb.parentPid)
  | _ => none

/-- A process that starts to end has no thread in READY or BLOCKED, and its mutexes are
owned under the TIDs of the TCBs that it counts. -/
def FinLimpio (k : Globals μ) (e : Evento) : Prop :=
  ∀ pid ∈ procesoQueTermina k e,
    (∀ t ∈ k.listReadyTcb ++ k.listBlockedTcb, t.parentPid ≠ pid) ∧
    ∀ m ∈ k.globalMutexes, m.assigned = true → m.assignedPid = pid →
      m.assignedTid ∈ tidsDeFin k pid 0

instance (k : Globals μ) (e : Evento) : Decidable (FinLimpio k e) :=
  inferInstanceAs (Decidable (∀ pid ∈ procesoQueTermina k e,
    (∀ t ∈ k.listReadyTcb ++ k.listBlockedTcb, t.parentPid ≠ pid) ∧
    ∀ m ∈ k.globalMutexes, m.assigned = true → m.assignedPid = pid →
      m.assignedTid ∈ tidsDeFin k pid 0))

/-- The event is the last one of the handler that ends the process. -/
def TerminaProceso (a : Globals μ) (e : Evento) (b : Globals μ) (pid : Nat) : Prop :=
  (e = .seguirFin ∧ a.currentPcbExecuting = some pid ∧
    (∃ causa p i, a.fase = .finalizando causa p i) ∧ b.fase.proximo? = none) ∨
  (∃ j d i, e = .dumpSeguir j ∧ a.dumps[j]? = some d ∧ d.fase = .finalizando pid i ∧
    b.dumps = a.dumps.eraseIdx j)

/-- No thread of the process takes part in scheduling, and none will. -/
structure SinHilos (k : Globals μ) (pid : Nat) : Prop where
  hilos : ∀ h ∈ (vista k).threads, h.pid ≠ pid
  emitido : pid < k.globalPid
  noNuevo : pid ∉ k.listPcbNew

/-- The processes of the threads are active. -/
def Activos (k : Globals μ) : Prop := ∀ h ∈ (vista k).threads, h.pid ∈ k.listPcbActive

/-- The lists of processes are as they were. -/
def MismosProcesos (k k' : Globals μ) : Prop :=
  k'.listPcbNew = k.listPcbNew ∧ k'.globalPid = k.globalPid ∧
    k'.listPcbActive = k.listPcbActive

/-- What an event does to the lists of processes. -/
inductive EfectoProcesos (cfg : Config μ) (k : Globals μ) (e : Evento) (k' : Globals μ) : Prop
  | igual :
      ¬ CreaProcesos k e →
      MismosProcesos k k' →
      EfectoProcesos cfg k e k'
  | crea (p : Tcb) (path : List Char) (size priority : Nat) :
      e = .respuesta (.processCreate path size priority) →
      k.fase = .ejecutando p →
      k' = seguirCon p (processCreate cfg path size priority (interruptQuantum k)) →
      EfectoProcesos cfg k e k'
  | fin (causa : Causa) (p : Tcb) (i pid : Nat) :
      e = .seguirFin →
      k.fase = .finalizando causa p i →
      k.currentPcbExecuting = some pid →
      (k.pcbs pid).tidCount ≤ i →
      k' = soltar p (terminarProceso cfg causa pid k) →
      EfectoProcesos cfg k e k'
  | finDump (j : Nat) (d : Dump) (pid i : Nat) :
      e = .dumpSeguir j →
      k.dumps[j]? = some d →
      d.fase = .finalizando pid i →
      k'.listPcbNew = k.listPcbNew →
      k'.globalPid = k.globalPid →
      EfectoProcesos cfg k e k'

section Effects

variable {cfg : Config μ} {k k' : Globals μ} {e : Evento}

theorem Despierta.mismosProcesos
    (h : Despierta k k') :
    MismosProcesos k k' := by
  rw [h]
  exact ⟨rfl, rfl, rfl⟩

theorem not_creaProcesos_respuesta
    {m : Mensaje Nat}
    (h : ∀ path size priority, m ≠ .processCreate path size priority) :
    ¬ CreaProcesos k (.respuesta m) := by
  rintro (⟨hno, _⟩ | ⟨path, size, priority, hm⟩)
  · cases hno
  · cases hm
    exact h path size priority rfl

theorem efectoProcesos_atenderSyscall
    {p : Tcb} {pid : Nat} {m : Mensaje Nat}
    (hrun : k.fase = .ejecutando p)
    (h : atenderSyscall cfg p pid m (interruptQuantum k) = some k') :
    EfectoProcesos cfg k (.respuesta m) k' := by
  cases m with
  | processCreate path size priority =>
      exact .crea p path size priority rfl hrun (Option.some.inj h).symm
  | processExit x =>
      cases h
      exact .igual (not_creaProcesos_respuesta (by simp)) ⟨rfl, rfl, rfl⟩
  | segmentationFault x y =>
      cases h
      exact .igual (not_creaProcesos_respuesta (by simp)) ⟨rfl, rfl, rfl⟩
  | threadCreate path priority =>
      cases h
      refine .igual (not_creaProcesos_respuesta (by simp)) ?_
      unfold MismosProcesos
      simp only [seguirCon]
      rw [createThread_resto]
      exact ⟨rfl, rfl, rfl⟩
  | threadJoin tid =>
      cases h
      refine .igual (not_creaProcesos_respuesta (by simp)) ?_
      rcases threadJoin_cases tid p (interruptQuantum k) with ⟨_, heq⟩ | ⟨_, _, heq⟩
      · rw [heq]
        exact ⟨rfl, rfl, rfl⟩
      · rw [heq]
        exact ⟨rfl, rfl, rfl⟩
  | threadCancel tid =>
      obtain ⟨k₁, hcancel, hk'⟩ := Option.bind_eq_some_iff.mp h
      cases hk'
      refine .igual (not_creaProcesos_respuesta (by simp)) ?_
      rcases threadCancel_cases hcancel with ⟨tcb, _, rfl⟩ | ⟨_, _, rfl⟩
      · have hsame : MismosProcesos (interruptQuantum k)
            (unlockTcbJoins tcb.parentPid tcb.tid (interruptQuantum k)) :=
          unlockTcbJoins_despierta.mismosProcesos
        exact hsame
      · exact ⟨rfl, rfl, rfl⟩
  | threadExit x =>
      obtain ⟨k₁, hexit, hk'⟩ := Option.bind_eq_some_iff.mp h
      cases hk'
      refine .igual (not_creaProcesos_respuesta (by simp)) ?_
      obtain ⟨pcbs, k₂, hk₂, _, _, hrelease⟩ := threadExit_cases hexit
      have hsame := (unlockTcbJoins_despierta.trans
        (releaseAllMutexes_despierta hrelease)).mismosProcesos
      rw [hk₂] at hsame
      exact hsame
  | mutexCreate name x =>
      obtain ⟨k₁, hcreate, hk'⟩ := Option.bind_eq_some_iff.mp h
      cases hk'
      refine .igual (not_creaProcesos_respuesta (by simp)) ?_
      rcases mutexCreate_cases hcreate with rfl | ⟨_, rfl⟩ <;> exact ⟨rfl, rfl, rfl⟩
  | mutexLock name x =>
      obtain ⟨⟨k₁, reservado⟩, hlock, hk'⟩ := Option.bind_eq_some_iff.mp h
      cases hk'
      refine .igual (not_creaProcesos_respuesta (by simp)) ?_
      rcases mutexLock_cases hlock with ⟨_, rfl, salida, rfl⟩ |
        ⟨m, _, ⟨_, rfl, rfl⟩ | ⟨_, _, rfl, rfl⟩ | ⟨_, _, _, rfl, rfl⟩⟩ <;>
        exact ⟨rfl, rfl, rfl⟩
  | mutexUnlock name x =>
      obtain ⟨k₁, hunlock, hk'⟩ := Option.bind_eq_some_iff.mp h
      cases hk'
      refine .igual (not_creaProcesos_respuesta (by simp)) ?_
      have hsame := (mutexUnlock_despierta hunlock).mismosProcesos
      exact hsame
  | dumpMemory x y =>
      cases h
      exact .igual (not_creaProcesos_respuesta (by simp)) ⟨rfl, rfl, rfl⟩
  | io milisegundos =>
      obtain ⟨tcb, _, hk'⟩ := Option.bind_eq_some_iff.mp h
      cases hk'
      exact .igual (not_creaProcesos_respuesta (by simp)) ⟨rfl, rfl, rfl⟩
  | kernelInterruption x y =>
      cases h
      exact .igual (not_creaProcesos_respuesta (by simp)) ⟨rfl, rfl, rfl⟩

/-- Every event does one of these to the lists of processes. -/
theorem efectoProcesos_paso
    (hviejos : k.listaTcbsBlockeados = [])
    (h : paso cfg k e = some k') :
    EfectoProcesos cfg k e k' := by
  have hno : e ≠ .seguirFin → (∀ m, e ≠ .respuesta m) → ¬ CreaProcesos k e := by
    rintro hfin hmsg (⟨hcrea, _⟩ | ⟨path, size, priority, hcrea⟩)
    · exact hfin hcrea
    · exact hmsg _ hcrea
  cases e with
  | despachar =>
      obtain ⟨seguir, previo, proximo, k₁, _, _, rfl, hcases⟩ := despachar_cases h
      refine .igual (hno (by simp) (by simp)) ?_
      rcases hcases with ⟨rfl, rfl, rfl⟩ | ⟨rfl, l, m, n, q, _, _, rfl⟩ <;> exact ⟨rfl, rfl, rfl⟩
  | respuesta m =>
      obtain ⟨proximo, pid, hfase, _, hsyscall⟩ := atenderMensaje_cases h
      exact efectoProcesos_atenderSyscall hfase hsyscall
  | seguirFin =>
      rcases seguirFin_cases h with
        ⟨causa, proximo, i, pid, k₁, avance, hfase, hpid, hround, hcases⟩ |
        ⟨causa, proximo, i, pid, k₁, hfase, hpid, hround, rfl⟩
      · rcases finalizarHilo_cases hviejos hround with ⟨rfl, hend, rfl⟩ | ⟨tcb, hi, _, hround⟩
        · rcases hcases with ⟨hno, _⟩ | ⟨hno, _⟩ | ⟨_, rfl⟩
          · cases hno
          · cases hno
          · exact .fin causa proximo i pid rfl hfase hpid hend rfl
        · have hcrea : ¬ CreaProcesos k .seguirFin := by
            rintro (⟨_, causa', p', i', pid', hfase', hpid', hend⟩ | ⟨_, _, _, hno⟩)
            · rw [hfase] at hfase'
              rw [hpid] at hpid'
              cases hfase'
              cases hpid'
              omega
            · cases hno
          refine .igual hcrea ?_
          rcases hround with ⟨rfl, _, rfl⟩ | ⟨rfl, _, hrelease⟩
          · rcases hcases with ⟨_, rfl⟩ | ⟨hno, _⟩ | ⟨hno, _⟩
            · exact ⟨rfl, rfl, rfl⟩
            · cases hno
            · cases hno
          · have hsame := (releaseAllMutexes_despierta hrelease).mismosProcesos
            rcases hcases with ⟨hno, _⟩ | ⟨_, rfl⟩ | ⟨hno, _⟩
            · cases hno
            · exact hsame
            · cases hno
      · have hcrea : ¬ CreaProcesos k .seguirFin := by
          rintro (⟨_, _, _, _, _, hfase', _⟩ | ⟨_, _, _, hno⟩)
          · rw [hfase] at hfase'
            cases hfase'
          · cases hno
        obtain ⟨n, tcb, _, _, hrelease⟩ := reanudarHilo_cases hviejos hround
        have hsame := (releaseAllMutexes_despierta hrelease).mismosProcesos
        exact .igual hcrea hsame
  | ioFin =>
      refine .igual (hno (by simp) (by simp)) ?_
      obtain ⟨request, resto, _, ⟨l, t, m, _, _, _, rfl⟩ | ⟨_, rfl⟩⟩ := ioFin_cases h <;>
        exact ⟨rfl, rfl, rfl⟩
  | dumpRespuesta j r =>
      refine .igual (hno (by simp) (by simp)) ?_
      obtain ⟨d, _, _, ⟨_, rfl⟩ | ⟨_, _, rfl⟩ | ⟨_, rfl⟩⟩ := dumpRespuesta_cases h <;>
        exact ⟨rfl, rfl, rfl⟩
  | dumpSeguir j =>
      obtain ⟨d, hd, ⟨pid, i, k₁, avance, hfase, hround, hcases⟩ |
        ⟨pid, i, k₁, hfase, hround, rfl⟩⟩ := dumpSeguir_cases h
      · obtain ⟨_, _, salida, m, hresto⟩ :=
          mueve_finalizarHilo (.dumpSeguir j) hviejos hround
        have hsame := hresto.mismosProcesos
        rcases hcases with ⟨_, rfl⟩ | ⟨_, rfl⟩ | ⟨_, rfl⟩
        · exact .igual (hno (by simp) (by simp)) hsame
        · exact .igual (hno (by simp) (by simp)) hsame
        · exact .finDump j d pid i rfl hd hfase hsame.1 hsame.2.1
      · obtain ⟨n, tcb, _, _, hrelease⟩ := reanudarHilo_cases hviejos hround
        have hsame := (releaseAllMutexes_despierta hrelease).mismosProcesos
        exact .igual (hno (by simp) (by simp)) hsame

end Effects

section Invariants

variable {cfg : Config μ} {k k' : Globals μ} {e : Evento}

/-- Whoever waits for something is blocked. -/
theorem blocked_of_motivo
    {i : Nat × Nat} {r : Motivo}
    (hs : Pool.Sound Hilo.ident (vista k))
    (h : (i, r) ∈ motivos k) :
    ∃ t ∈ k.listBlockedTcb, t.ident = i := by
  have hwait : 1 ≤ (vista k).waitsOf i :=
    Multiset.one_le_count_iff_mem.mpr (Multiset.mem_map_of_mem Prod.fst h)
  obtain ⟨u, hu, hident⟩ := List.countP_pos_iff.mp (hwait.trans (hs.waits_le i))
  obtain ⟨t, ht, rfl⟩ := List.mem_map.mp hu
  exact ⟨t, ht, of_decide_eq_true hident⟩

theorem tryCreateRounds_nuevos
    (cfg : Config μ) (k : Globals μ) (n : Nat) :
    (tryCreateRounds cfg n k).globalPid = k.globalPid ∧
      ∀ q ∈ (tryCreateRounds cfg n k).listPcbNew, q ∈ k.listPcbNew := by
  refine tryCreateRounds_invariant cfg
    (I := fun a => a.globalPid = k.globalPid ∧ ∀ q ∈ a.listPcbNew, q ∈ k.listPcbNew) n
    ⟨rfl, fun _ h => h⟩ ?_ ?_
  · exact fun h => h
  · rintro a pid resto peticion peticiones ⟨hglobal, hsub⟩ hnew _
    constructor
    · simp only [procesoCreado]
      rw [createThread_resto]
      exact hglobal
    · intro q hq
      exact hsub q (hnew ▸ List.mem_cons_of_mem _ hq)

theorem terminarProceso_nuevos
    (cfg : Config μ) (k : Globals μ) (causa : Causa) (pid : Nat) :
    (terminarProceso cfg causa pid k).globalPid = k.globalPid ∧
      ∀ q ∈ (terminarProceso cfg causa pid k).listPcbNew, q ∈ k.listPcbNew := by
  obtain ⟨pcbs, salida, k₁, hk₁, _, heq⟩ := terminarProceso_cases cfg causa pid k
  rw [heq]
  cases causa with
  | processExit =>
      have hrounds := tryCreateRounds_nuevos cfg k₁ (k₁.listPcbNew.length + 1)
      rw [hk₁] at hrounds ⊢
      exact hrounds
  | segmentationFault =>
      rw [hk₁]
      exact ⟨rfl, fun _ h => h⟩

/-- PIDs are given out once: one that waits in NEW after the event waited before, or is
a new one. -/
theorem nuevos_paso
    (hviejos : k.listaTcbsBlockeados = [])
    (h : paso cfg k e = some k') :
    k.globalPid ≤ k'.globalPid ∧
      ∀ q ∈ k'.listPcbNew, q ∈ k.listPcbNew ∨ k.globalPid ≤ q := by
  cases efectoProcesos_paso hviejos h with
  | igual _ hsame =>
      rw [hsame.1, hsame.2.1]
      exact ⟨le_rfl, fun q hq => Or.inl hq⟩
  | crea p path size priority _ _ hk' =>
      obtain ⟨hglobal, hsub⟩ := tryCreateRounds_nuevos cfg
        ({ createProcess (interruptQuantum k) size with
          listFirstThreadParams := (createProcess (interruptQuantum k) size).listFirstThreadParams ++
            [{ nombreArchivo := path, tamanioProceso := size, prioridad := priority }] })
        (k.listPcbNew.length + 1 + 1)
      have hlen : (createProcess (interruptQuantum k) size).listPcbNew.length =
          k.listPcbNew.length + 1 := by simp [createProcess, interruptQuantum]
      have hsame : k'.globalPid = (processCreate cfg path size priority
          (interruptQuantum k)).globalPid ∧ k'.listPcbNew = (processCreate cfg path size priority
          (interruptQuantum k)).listPcbNew := by
        rw [hk']
        exact ⟨rfl, rfl⟩
      rw [hsame.1, hsame.2]
      simp only [processCreate, tryCreateNewProcessLoop, hlen]
      constructor
      · rw [hglobal]
        exact Nat.le_succ _
      · intro q hq
        rcases List.mem_append.mp (hsub q hq) with hq | hq
        · exact Or.inl hq
        · exact Or.inr (Nat.le_of_eq (List.mem_singleton.mp hq).symm)
  | fin causa p i pid _ _ _ _ hk' =>
      obtain ⟨hglobal, hsub⟩ := terminarProceso_nuevos cfg k causa pid
      rw [hk']
      exact ⟨Nat.le_of_eq hglobal.symm, fun q hq => Or.inl (hsub q hq)⟩
  | finDump j d pid i _ _ _ hnew hglobal =>
      rw [hnew, hglobal]
      exact ⟨le_rfl, fun q hq => Or.inl hq⟩

/-- A process without threads gets none. -/
theorem SinHilos.paso
    {pid : Nat}
    (h : SinHilos k pid)
    (hc : Coherente k)
    (hstep : paso cfg k e = some k') :
    SinHilos k' pid := by
  obtain ⟨hglobal, hnew⟩ := nuevos_paso hc.viejos hstep
  refine ⟨?_, Nat.lt_of_lt_of_le h.emitido hglobal, ?_⟩
  · refine (paso_mueve hc hstep).1.invariant (I := fun a => ∀ t ∈ a.threads, t.pid ≠ pid)
      h.hilos ?_
    intro a b l ha hpermite hmove t ht
    rcases hmove.mem_threads_of_mem ht with ht | rfl
    · exact ha t ht
    · rcases hpermite.1 with ⟨p, _, _, hfase, _, hpid⟩ | ⟨_, hpid | hpid⟩
      · have heq : t.pid = p.parentPid := hc.pcbActual p (by rw [hfase]; rfl) t.pid hpid
        rw [heq]
        refine h.hilos p.hilo ?_
        simp [vista, Pool.threads, hfase, Fase.corriendo]
      · exact fun heq => h.noNuevo (heq ▸ hpid)
      · exact fun heq => Nat.lt_irrefl _ (heq ▸ hpid ▸ h.emitido)
  · intro hmem
    rcases hnew pid hmem with hmem | hmem
    · exact h.noNuevo hmem
    · exact Nat.lt_irrefl _ (Nat.lt_of_lt_of_le h.emitido hmem)

/-- A round that creates a process makes it active if its thread is ready. -/
theorem activos_procesoCreado
    {pid : Nat} {resto : List Nat} {peticion : ProcessCreate} {peticiones : List ProcessCreate}
    (hc : Coherente k)
    (hactive : Activos k)
    (hnew : k.listPcbNew = pid :: resto) :
    Activos (procesoCreado cfg k pid resto peticion peticiones) := by
  have hpid : pid ∈ k.listPcbNew := by simp [hnew]
  have hrest := createThread_resto cfg k pid peticion.nombreArchivo peticion.prioridad
  rcases createThread_cases cfg k pid peticion.nombreArchivo peticion.prioridad with
    ⟨l, t, m, hsplit, htpid, _, _, heq⟩ | ⟨_, heq⟩
  · -- no other TCB in NEW belongs to the process, so the new one is admitted
    have ht : t = nuevoTcb k pid peticion.nombreArchivo peticion.prioridad := by
      have hmem : t ∈ k.listNewTcb ++
          [nuevoTcb k pid peticion.nombreArchivo peticion.prioridad] := by simp [hsplit]
      rcases List.mem_append.mp hmem with hmem | hmem
      · have hfresh : t.hilo ∈ (vista k).threads ++ (vista k).fresh :=
          List.mem_append_right _ (List.mem_map_of_mem hmem)
        refine absurd ?_ (hc.hilos t.hilo hfresh).2
        exact (congrArg (· ∈ k.listPcbNew) htpid).mpr hpid
      · exact List.mem_singleton.mp hmem
    intro h hh
    simp only [procesoCreado, heq] at hh ⊢
    have hdir : t.dir = k.nextDir := by
      rw [ht]
      rfl
    rw [if_pos (by simp [hdir])]
    have hh' : h ∈ (vista k).threads ∨ h = t.hilo := by
      simp only [Pool.threads, vista, registrarTcb, modificarPcb, List.map_append,
        List.map_cons, List.map_nil, Tcb.hilo_with_state, List.mem_append,
        List.mem_singleton] at hh ⊢
      rcases hh with hh | (hh | hh) | hh
      · exact Or.inl (Or.inl hh)
      · exact Or.inl (Or.inr (Or.inl hh))
      · exact Or.inr hh
      · exact Or.inl (Or.inr (Or.inr hh))
    rcases hh' with hh' | rfl
    · exact List.mem_append_left _ (hactive h hh')
    · exact List.mem_append_right _ (List.mem_singleton.mpr htpid)
  · intro h hh
    simp only [procesoCreado, heq] at hh ⊢
    exact hactive h hh

theorem activos_tryCreateRounds
    (hc : Coherente k)
    (hactive : Activos k)
    (n : Nat) :
    Activos (tryCreateRounds cfg n k) := by
  have hinv := tryCreateRounds_invariant cfg (k := k)
    (I := fun a => Coherente a ∧ Activos a) n ⟨hc, hactive⟩ ?_ ?_
  · exact hinv.2
  · rintro a m ⟨hca, ha⟩
    exact ⟨⟨hca.viejos, hca.nuevos, hca.emitidos, hca.hilos, hca.tcbActual, hca.pcbActual⟩, ha⟩
  · rintro a pid resto peticion peticiones ⟨hca, ha⟩ hnew _
    refine ⟨?_, activos_procesoCreado hca ha hnew⟩
    exact (mueve_procesoCreado (fun _ _ => True) hca hnew (fun _ => trivial)
      (fun _ _ => trivial)).2.1

end Invariants

/-- What holds all along when processes end without a trace. -/
structure ProcesosCerrados (k : Globals μ) : Prop where
  coherente : Coherente k
  solida : Pool.Sound Hilo.ident (vista k)
  colas : ColasPropias k
  joins : ∀ j ∈ k.listTcbJoins, j.blockingTcb.parentPid = j.blockedTcb.parentPid
  activos : Activos k
  dumps : ∀ d ∈ k.dumps, d.fase = .enVuelo
  fin : ∀ causa p i pid, k.fase = .finalizando causa p i ∨ k.fase = .esperando causa p i →
    k.currentPcbExecuting = some pid →
    SinHilos k pid ∧ MutexesDe k pid (tidsDeFin k pid i)

section Closing

variable {cfg : Config μ} {k k' : Globals μ} {e : Evento} {pid : Nat}

/-- The first TID that is left is that of the TCB of the round. -/
theorem mem_tidsDeFin
    {i : Nat} {tcb : Tcb}
    (htcb : (k.pcbs pid).tcbs[i]? = some tcb) :
    ∀ tid ∈ tidsDeFin k pid i, tid ∈ tcb.tid :: tidsDeFin k pid (i + 1) := by
  intro tid htid
  unfold tidsDeFin at htid ⊢
  by_cases hi : i < ((k.pcbs pid).tcbs.take (k.pcbs pid).tidCount).length
  · rw [List.drop_eq_getElem_cons hi, List.map_cons] at htid
    have hget : ((k.pcbs pid).tcbs.take (k.pcbs pid).tidCount)[i] = tcb := by
      rw [List.getElem_take]
      exact (List.getElem?_eq_some_iff.mp htcb).2
    rw [hget] at htid
    exact htid
  · rw [List.drop_eq_nil_of_le (not_lt.mp hi)] at htid
    cases htid

theorem MutexesDe.mono
    {tids tids' : List Nat}
    (h : MutexesDe k pid tids)
    (hsub : ∀ tid ∈ tids, tid ∈ tids') :
    MutexesDe k pid tids' :=
  ⟨h.sinCola, fun m hm hpid hassigned => hsub _ (h.duenos m hm hpid hassigned)⟩

/-- A round that releases the mutexes of its TCB leaves the TIDs of the rest. -/
theorem MutexesDe.ronda
    {k₁ : Globals μ} {i : Nat} {tcb : Tcb}
    (h : MutexesDe k pid (tidsDeFin k pid i))
    (hcolas : ColasPropias k)
    (htcb : (k.pcbs pid).tcbs[i]? = some tcb)
    (hmutexes : k₁.globalMutexes = k.globalMutexes)
    (hrelease : Kernel.releaseAllMutexes tcb k₁ = some k') :
    MutexesDe k' pid (tidsDeFin k pid (i + 1)) :=
  MutexesDe.releaseAllMutexes ((h.mono (mem_tidsDeFin htcb)).of_mutexes hmutexes)
    (hcolas.of_mutexes hmutexes) hrelease

/-- A dump that fails has its own thread in BLOCKED. -/
theorem not_finLimpio_dumpError
    {j : Nat} {d : Dump}
    (hs : Pool.Sound Hilo.ident (vista k))
    (hd : k.dumps[j]? = some d)
    (hfase : d.fase = .enVuelo) :
    ¬ FinLimpio k (.dumpRespuesta j .error) := by
  intro hok
  have hwait : (d.tcb.ident, Motivo.dump) ∈ motivos k := by
    simp only [motivos, Multiset.mem_coe, List.mem_append]
    refine Or.inr (Or.inr (Or.inr (List.mem_filterMap.mpr ⟨d, List.mem_of_getElem? hd, ?_⟩)))
    simp [Dump.espera?, hfase]
  obtain ⟨t, ht, hident⟩ := blocked_of_motivo hs hwait
  refine (hok d.tcb.parentPid ?_).1 t (List.mem_append_right _ ht) (congrArg Prod.fst hident)
  simp [procesoQueTermina, hd]

/-- With a clean start of the end of a process, only mutexes of the TCBs that it counts
are left, and no thread. -/
theorem ProcesosCerrados.fin_inicio
    {causa : Causa} {p : Tcb}
    (hk : ProcesosCerrados k)
    (hrun : k.fase = .ejecutando p)
    (hpid : k.currentPcbExecuting = some pid)
    (hok : (∀ t ∈ k.listReadyTcb ++ k.listBlockedTcb, t.parentPid ≠ pid) ∧
      ∀ m ∈ k.globalMutexes, m.assigned = true → m.assignedPid = pid →
        m.assignedTid ∈ tidsDeFin k pid 0)
    (hk' : k' = { interruptQuantum k with fase := .finalizando causa p 0 }) :
    SinHilos k' pid ∧ MutexesDe k' pid (tidsDeFin k' pid 0) := by
  have hp : pid = p.parentPid := hk.coherente.pcbActual p (by rw [hrun]; rfl) pid hpid
  have hold := hk.coherente.hilos p.hilo (by simp [vista, Pool.threads, hrun, Fase.corriendo])
  subst hk'
  refine ⟨⟨?_, ?_, ?_⟩, ⟨?_, ?_⟩⟩
  · intro h hh
    have hh' : h ∈ (k.listReadyTcb ++ k.listBlockedTcb).map Tcb.hilo := by
      simpa [vista, Pool.threads, Fase.corriendo, interruptQuantum] using hh
    obtain ⟨t, ht, rfl⟩ := List.mem_map.mp hh'
    exact hok.1 t ht
  · rw [hp]
    exact hold.1
  · rw [hp]
    exact hold.2
  · intro m hm hmpid
    cases hqueue : m.blockedTcbs with
    | nil =>
        rfl
    | cons t resto =>
        -- who waits is blocked, and the queue has threads of the process only
        have htmem : t ∈ m.blockedTcbs := by simp [hqueue]
        have hwait : (t.ident, Motivo.mutex m.name) ∈ motivos k := by
          simp only [motivos, Multiset.mem_coe, List.mem_append]
          refine Or.inr (Or.inl (List.mem_flatMap.mpr ⟨m, hm, ?_⟩))
          exact List.mem_map_of_mem htmem
        obtain ⟨u, hu, hident⟩ := blocked_of_motivo hk.solida hwait
        refine absurd ?_ (hok.1 u (List.mem_append_right _ hu))
        exact (congrArg Prod.fst hident).trans ((hk.colas.propias m hm t htmem).trans hmpid)
  · exact fun m hm hmpid hassigned => hok.2 m hm hassigned hmpid

/-- Where an event leaves the dispatcher alone, the end of a process goes on as it was. -/
theorem ProcesosCerrados.fin_aparte
    (hk : ProcesosCerrados k)
    (hstep : paso cfg k e = some k')
    (hfase : MismaFase k k')
    (hmutexes : k'.globalMutexes = k.globalMutexes)
    (hpcbs : k'.pcbs = k.pcbs) :
    ∀ causa p i pid, k'.fase = .finalizando causa p i ∨ k'.fase = .esperando causa p i →
      k'.currentPcbExecuting = some pid →
      SinHilos k' pid ∧ MutexesDe k' pid (tidsDeFin k' pid i) := by
  intro causa p i pid hend hpid
  rw [hfase.1] at hend
  rw [hfase.2.2] at hpid
  obtain ⟨hsin, hde⟩ := hk.fin causa p i pid hend hpid
  have htids : tidsDeFin k' pid i = tidsDeFin k pid i := by
    unfold tidsDeFin
    rw [hpcbs]
  rw [htids]
  exact ⟨hsin.paso hk.coherente hstep, hde.of_mutexes hmutexes⟩

theorem ProcesosCerrados.fin_seguirFin
    (hk : ProcesosCerrados k)
    (h : paso cfg k .seguirFin = some k') :
    ∀ causa p i pid, k'.fase = .finalizando causa p i ∨ k'.fase = .esperando causa p i →
      k'.currentPcbExecuting = some pid →
      SinHilos k' pid ∧ MutexesDe k' pid (tidsDeFin k' pid i) := by
  have hviejos := hk.coherente.viejos
  intro causa p i pid hend hpid
  rcases seguirFin_cases h with
    ⟨causa', proximo, i', pid', k₁, avance, hfase, hpid', hround, hcases⟩ |
    ⟨causa', proximo, i', pid', k₁, hfase, hpid', hround, rfl⟩
  · obtain ⟨hsin, hde⟩ := hk.fin causa' proximo i' pid' (Or.inl hfase) hpid'
    have hsin' : SinHilos k' pid' := hsin.paso hk.coherente h
    rcases finalizarHilo_cases hviejos hround with ⟨rfl, _, rfl⟩ |
      ⟨tcb, _, htcb, ⟨rfl, _, rfl⟩ | ⟨rfl, _, hrelease⟩⟩
    · rcases hcases with ⟨hno, _⟩ | ⟨hno, _⟩ | ⟨_, rfl⟩
      · cases hno
      · cases hno
      · rcases hend with hend | hend <;> cases hend
    · rcases hcases with ⟨_, rfl⟩ | ⟨hno, _⟩ | ⟨hno, _⟩
      · have hsame : pid = pid' := Option.some.inj (hpid.symm.trans hpid')
        subst hsame
        rcases hend with hend | hend
        · cases hend
        · cases hend
          exact ⟨hsin', hde.of_mutexes rfl⟩
      · cases hno
      · cases hno
    · have hde' := hde.ronda hk.colas htcb (by rfl) hrelease
      have hrest := releaseAllMutexes_despierta hrelease
      rcases hcases with ⟨hno, _⟩ | ⟨_, rfl⟩ | ⟨hno, _⟩
      · cases hno
      · have hpid₁ : k₁.currentPcbExecuting = k.currentPcbExecuting := by rw [hrest]
        have hsame : pid = pid' := Option.some.inj (hpid.symm.trans (hpid₁.trans hpid'))
        subst hsame
        have hpcbs : k₁.pcbs = k.pcbs := by rw [hrest]
        rcases hend with hend | hend
        · cases hend
          refine ⟨hsin', ?_⟩
          unfold tidsDeFin at hde' ⊢
          rw [← hpcbs] at hde'
          exact hde'.of_mutexes rfl
        · cases hend
      · cases hno
  · obtain ⟨hsin, hde⟩ := hk.fin causa' proximo i' pid' (Or.inr hfase) hpid'
    have hsin' := hsin.paso hk.coherente h
    obtain ⟨n, tcb, _, htcb, hrelease⟩ := reanudarHilo_cases hviejos hround
    have hde' := hde.ronda hk.colas htcb (by rfl) hrelease
    have hrest := releaseAllMutexes_despierta hrelease
    have hpid₁ : k₁.currentPcbExecuting = k.currentPcbExecuting := by rw [hrest]
    have hsame : pid = pid' := Option.some.inj (hpid.symm.trans (hpid₁.trans hpid'))
    subst hsame
    have hpcbs : k₁.pcbs = k.pcbs := by rw [hrest]
    rcases hend with hend | hend
    · cases hend
      refine ⟨hsin', ?_⟩
      unfold tidsDeFin at hde' ⊢
      rw [← hpcbs] at hde'
      exact hde'.of_mutexes rfl
    · cases hend

theorem ProcesosCerrados.fin_paso
    (hk : ProcesosCerrados k)
    (hok : FinLimpio k e)
    (h : paso cfg k e = some k') :
    ∀ causa p i pid, k'.fase = .finalizando causa p i ∨ k'.fase = .esperando causa p i →
      k'.currentPcbExecuting = some pid →
      SinHilos k' pid ∧ MutexesDe k' pid (tidsDeFin k' pid i) := by
  cases e with
  | despachar =>
      obtain ⟨seguir, previo, proximo, k₁, _, _, rfl, _⟩ := despachar_cases h
      rintro causa p i pid (hend | hend) <;> cases hend
  | respuesta m =>
      obtain ⟨proximo, pcb, hrun, _, hsyscall⟩ := atenderMensaje_cases h
      obtain ⟨hfase, _⟩ := atenderSyscall_fase hsyscall
      rintro causa p i pid hend hpid
      rcases hfase with ⟨seguir, hfase⟩ | ⟨causa', rfl, hm⟩
      · rw [hfase] at hend
        rcases hend with hend | hend <;> cases hend
      · have hpid : k.currentPcbExecuting = some pid := hpid
        have hstart : procesoQueTermina k (.respuesta m) = some pid := by
          rcases hm with ⟨x, rfl⟩ | ⟨x, y, rfl⟩
          · simpa [procesoQueTermina, hrun, Fase.ejecutando?] using hpid
          · simpa [procesoQueTermina, hrun, Fase.ejecutando?] using hpid
        rcases hend with hend | hend
        · cases hend
          exact hk.fin_inicio hrun hpid (hok pid hstart) rfl
        · cases hend
  | seguirFin =>
      exact hk.fin_seguirFin h
  | ioFin =>
      obtain ⟨_, _, hmisma⟩ := mueve_ioFin (fun _ _ => True) trivial trivial h
      obtain ⟨request, resto, _, ⟨l, t, m, _, _, _, rfl⟩ | ⟨_, rfl⟩⟩ := ioFin_cases h
      · exact hk.fin_aparte h hmisma rfl rfl
      · exact hk.fin_aparte h hmisma rfl rfl
  | dumpRespuesta j r =>
      obtain ⟨_, _, hmisma⟩ := mueve_dumpRespuesta (fun _ _ => True) trivial trivial
        trivial h
      obtain ⟨d, hd, hfase, ⟨_, rfl⟩ | ⟨rfl, _, rfl⟩ | ⟨_, rfl⟩⟩ := dumpRespuesta_cases h
      · exact hk.fin_aparte h hmisma rfl rfl
      · exact absurd hok (not_finLimpio_dumpError hk.solida hd hfase)
      · exact hk.fin_aparte h hmisma rfl rfl
  | dumpSeguir j =>
      obtain ⟨d, hd, hcases⟩ := dumpSeguir_cases h
      have hvuelo := hk.dumps d (List.mem_of_getElem? hd)
      rcases hcases with ⟨pid, i, _, _, hfase, _⟩ | ⟨pid, i, _, hfase, _⟩
      · rw [hfase] at hvuelo
        cases hvuelo
      · rw [hfase] at hvuelo
        cases hvuelo

/-- The dumps in flight stay in flight until they are over. -/
theorem ProcesosCerrados.dumps_paso
    (hk : ProcesosCerrados k)
    (hok : FinLimpio k e)
    (h : paso cfg k e = some k') :
    ∀ d ∈ k'.dumps, d.fase = .enVuelo := by
  have hviejos := hk.coherente.viejos
  cases e with
  | despachar =>
      obtain ⟨seguir, previo, proximo, k₁, _, _, rfl, hcases⟩ := despachar_cases h
      rcases hcases with ⟨rfl, rfl, rfl⟩ | ⟨rfl, l, m, n, q, _, _, rfl⟩
      · exact hk.dumps
      · exact hk.dumps
  | respuesta m =>
      obtain ⟨proximo, pcb, hrun, _, hsyscall⟩ := atenderMensaje_cases h
      obtain ⟨_, hdumps | hdumps⟩ := atenderSyscall_fase hsyscall
      · rw [hdumps]
        exact hk.dumps
      · rw [hdumps]
        intro d hd
        rcases List.mem_append.mp hd with hd | hd
        · exact hk.dumps d hd
        · rw [List.mem_singleton.mp hd]
  | seguirFin =>
      rcases seguirFin_cases h with
        ⟨causa, proximo, i, pid, k₁, avance, _, _, hround, hcases⟩ |
        ⟨causa, proximo, i, pid, k₁, hfase, _, hround, rfl⟩
      · obtain ⟨_, _, salida, m, hresto⟩ :=
          mueve_finalizarHilo .seguirFin hviejos hround
        have hdumps : k₁.dumps = k.dumps := by rw [hresto]
        rcases hcases with ⟨_, rfl⟩ | ⟨_, rfl⟩ | ⟨_, rfl⟩
        · simp only [hdumps]
          exact hk.dumps
        · simp only [hdumps]
          exact hk.dumps
        · simp only [soltar]
          rw [terminarProceso_dumps, hdumps]
          exact hk.dumps
      · obtain ⟨n, tcb, _, _, hrelease⟩ := reanudarHilo_cases hviejos hround
        have hdumps : k₁.dumps = k.dumps := by rw [releaseAllMutexes_despierta hrelease]
        simp only [hdumps]
        exact hk.dumps
  | ioFin =>
      obtain ⟨request, resto, _, ⟨l, t, m, _, _, _, rfl⟩ | ⟨_, rfl⟩⟩ := ioFin_cases h
      · exact hk.dumps
      · exact hk.dumps
  | dumpRespuesta j r =>
      obtain ⟨d, hd, hfase, ⟨_, rfl⟩ | ⟨rfl, _, rfl⟩ | ⟨_, rfl⟩⟩ := dumpRespuesta_cases h
      · exact fun d hd => hk.dumps d (List.mem_of_mem_eraseIdx hd)
      · exact absurd hok (not_finLimpio_dumpError hk.solida hd hfase)
      · exact fun d hd => hk.dumps d (List.mem_of_mem_eraseIdx hd)
  | dumpSeguir j =>
      obtain ⟨d, hd, hcases⟩ := dumpSeguir_cases h
      have hvuelo := hk.dumps d (List.mem_of_getElem? hd)
      rcases hcases with ⟨pid, i, _, _, hfase, _⟩ | ⟨pid, i, _, hfase, _⟩
      · rw [hfase] at hvuelo
        cases hvuelo
      · rw [hfase] at hvuelo
        cases hvuelo

theorem activos_of_mueve
    {ok : Pool Hilo (Nat × Nat) Motivo → PoolLabel Hilo (Nat × Nat) Motivo → Prop}
    (hmove : Mueve ok k k')
    (henter : ∀ {a t}, ok a (.enter t) → t.pid ∈ k'.listPcbActive)
    (hkeeps : ∀ t ∈ (vista k).threads, t.pid ∈ k'.listPcbActive) :
    Activos k' := by
  refine hmove.invariant (I := fun a => ∀ t ∈ a.threads, t.pid ∈ k'.listPcbActive) hkeeps ?_
  intro a b l ha hok hstep t ht
  rcases hstep.mem_threads_of_mem ht with ht | rfl
  · exact ha t ht
  · exact henter hok

/-- The threads of active processes, when the process that ends has none. -/
theorem activos_terminarProceso
    (cfg : Config μ) (causa : Causa)
    (hc : Coherente k)
    (hactive : Activos k)
    (hsin : SinHilos k pid) :
    Activos (terminarProceso cfg causa pid k) := by
  obtain ⟨pcbs, salida, k₁, hk₁, _, heq⟩ := terminarProceso_cases cfg causa pid k
  have hcoh : Coherente k₁ := by
    rw [hk₁]
    exact ⟨hc.viejos, hc.nuevos, hc.emitidos, hc.hilos, hc.tcbActual, hc.pcbActual⟩
  have hactive₁ : Activos k₁ := by
    intro t ht
    have ht' : t ∈ (vista k).threads := by
      rw [hk₁] at ht
      exact ht
    have hmem : t.pid ∈ k.listPcbActive.eraseP (fun p => p == pid) := by
      refine (List.mem_eraseP_of_neg ?_).mpr (hactive t ht')
      simpa using hsin.hilos t ht'
    rw [hk₁]
    exact hmem
  rw [heq]
  cases causa with
  | processExit =>
      exact activos_tryCreateRounds hcoh hactive₁ _
  | segmentationFault =>
      exact hactive₁

theorem activos_processCreate
    (cfg : Config μ) (path : List Char) (size priority : Nat)
    (hc : Coherente k)
    (hactive : Activos k) :
    Activos (processCreate cfg path size priority k) := by
  refine activos_tryCreateRounds (coherente_createProcess hc) ?_ _
  exact hactive

theorem ProcesosCerrados.activos_paso
    (hk : ProcesosCerrados k)
    (h : paso cfg k e = some k') :
    Activos k' := by
  have hc := hk.coherente
  have hmove := (paso_mueve hc h).1
  cases efectoProcesos_paso hc.viejos h with
  | igual hno hsame =>
      refine activos_of_mueve hmove ?_ ?_
      · intro a t hpermite
        rw [hsame.2.2]
        rcases hpermite.1 with ⟨p, _, _, hfase, _, hpid⟩ | ⟨hcrea, _⟩
        · have heq : t.pid = p.parentPid := hc.pcbActual p (by rw [hfase]; rfl) t.pid hpid
          rw [heq]
          refine hk.activos p.hilo ?_
          simp [vista, Pool.threads, hfase, Fase.corriendo]
        · exact absurd hcrea hno
      · rw [hsame.2.2]
        exact hk.activos
  | crea p path size priority _ hfase hk' =>
      have hcreated : Activos (processCreate cfg path size priority (interruptQuantum k)) :=
        activos_processCreate cfg path size priority hc.interruptQuantum hk.activos
      have hrun : (processCreate cfg path size priority (interruptQuantum k)).fase.corriendo =
          some p.hilo := by
        rw [processCreate_admite]
        simp [interruptQuantum, hfase, Fase.corriendo]
      rw [hk']
      unfold Activos
      rw [vista_seguirCon hrun]
      exact hcreated
  | fin causa p i pid _ hfase hpid _ hk' =>
      obtain ⟨hsin, _⟩ := hk.fin causa p i pid (Or.inl hfase) hpid
      have hended := activos_terminarProceso cfg causa hc hk.activos hsin
      rw [hk']
      intro t ht
      refine hended t ?_
      simp only [vista_soltar, Pool.threads, Option.toList, List.nil_append] at ht
      exact List.mem_append_right _ ht
  | finDump j d pid i _ hd hfase _ _ =>
      have hvuelo := hk.dumps d (List.mem_of_getElem? hd)
      rw [hfase] at hvuelo
      cases hvuelo

theorem ProcesosCerrados.paso
    (hk : ProcesosCerrados k)
    (hok : FinLimpio k e)
    (h : paso cfg k e = some k') :
    ProcesosCerrados k' := by
  obtain ⟨hcoh, hsolida⟩ := solida_paso ⟨hk.coherente, hk.solida⟩ h
  refine ⟨hcoh, hsolida, hk.colas.paso hk.coherente.viejos h, ?_, hk.activos_paso h,
    hk.dumps_paso hok h, hk.fin_paso hok h⟩
  intro j hj
  rcases (efectoJoins_paso hk.coherente.viejos h).mem hj with ⟨hold, _⟩ | ⟨tid, _, _, hfind, _⟩
  · exact hk.joins j hold
  · exact (findTcbFromTid_some hfind).1

end Closing

section Runs

variable {cfg : Config μ} {es fs : List Evento} {a b c : Globals μ} {e : Evento} {pid : Nat}

theorem procesosCerrados_of_alcanza
    (h : Alcanza cfg FinLimpio es a) :
    ProcesosCerrados a := by
  obtain ⟨memoria, path, size, hrun⟩ := h
  refine hrun.invariant (I := ProcesosCerrados) ?_ ?_
  · have hsolida := solida_arranque cfg memoria path size
    have hnone : (arranque cfg memoria path size).listTcbJoins = [] ∧
        (arranque cfg memoria path size).globalMutexes = [] ∧
        (arranque cfg memoria path size).dumps = [] ∧
        (arranque cfg memoria path size).fase = .planificar false none := by
      rw [arranque, processCreate_admite]
      exact ⟨rfl, rfl, rfl, rfl⟩
    obtain ⟨hjoins, hmutexes, hdumps, hfase⟩ := hnone
    refine ⟨hsolida.1, hsolida.2, ⟨by simp [hmutexes], by simp [hmutexes]⟩, by simp [hjoins],
      ?_, by simp [hdumps], by simp [hfase]⟩
    refine activos_processCreate cfg path size 0 (coherente_inicial memoria) ?_
    intro t ht
    simp [vista, inicial, Pool.threads, Fase.corriendo] at ht
  · intro x y ev hx hok hstep
    exact hx.paso hok hstep

/-- The end of the handler leaves no thread of the process and no mutex that it owns. -/
theorem sinRastro_of_termina
    (hk : ProcesosCerrados a)
    (hstep : paso cfg a e = some b)
    (hend : TerminaProceso a e b pid) :
    SinHilos b pid ∧ MutexesDe b pid [] := by
  rcases hend with ⟨rfl, hpid, ⟨causa, p, i, hfase⟩, htop⟩ | ⟨j, d, i, rfl, hd, hfase, _⟩
  · obtain ⟨hsin, hde⟩ := hk.fin causa p i pid (Or.inl hfase) hpid
    refine ⟨hsin.paso hk.coherente hstep, ?_⟩
    have hcount : (a.pcbs pid).tidCount ≤ i := by
      rcases seguirFin_cases hstep with
        ⟨causa', p', i', pid', k₁, avance, hfase', hpid', hround, hcases⟩ |
        ⟨_, _, _, _, _, hfase', _⟩
      · rw [hfase] at hfase'
        cases hfase'
        rw [hpid] at hpid'
        cases hpid'
        rcases finalizarHilo_cases hk.coherente.viejos hround with ⟨_, hend, _⟩ |
          ⟨_, _, _, ⟨rfl, _, _⟩ | ⟨rfl, _, _⟩⟩
        · exact hend
        · rcases hcases with ⟨_, rfl⟩ | ⟨hno, _⟩ | ⟨hno, _⟩
          · cases htop
          · cases hno
          · cases hno
        · rcases hcases with ⟨hno, _⟩ | ⟨_, rfl⟩ | ⟨hno, _⟩
          · cases hno
          · cases htop
          · cases hno
      · rw [hfase] at hfase'
        cases hfase'
    have hnil : tidsDeFin a pid i = [] := by
      unfold tidsDeFin
      rw [List.drop_eq_nil_of_le ((List.length_take_le _ _).trans hcount)]
      rfl
    rw [hnil] at hde
    refine hde.paso hk.coherente.viejos ?_ ?_ hstep
    · intro q hq
      rw [hfase] at hq
      cases hq
    · intro q r hq
      rw [hfase] at hq
      cases hq
  · have hvuelo := hk.dumps d (List.mem_of_getElem? hd)
    rw [hfase] at hvuelo
    cases hvuelo

end Runs

end Kernel
end SinIdeas
