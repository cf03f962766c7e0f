import SinIdeas.Kernel.Vista

/-!
# Steps of the kernel as moves of threads

`Permite` says which moves an event may make and under which condition, and
`paso_mueve` that every step of a coherent kernel is a sequence of such moves.
`Coherente` is what the argument needs to know of every reachable state.
-/

namespace SinIdeas
namespace Kernel

open Lib

variable {μ : Type}

/-- The thread that the CPU runs. -/
def Fase.ejecutando? : Fase → Option Tcb
  | .ejecutando proximo => some proximo
  | _ => none

/-- The thread in whose name the dispatcher works. -/
def Fase.proximo? : Fase → Option Tcb
  | .ejecutando proximo => some proximo
  | .finalizando _ proximo _ => some proximo
  | .esperando _ proximo _ => some proximo
  | .planificar _ _ => none

/-- What every reachable state satisfies. -/
structure Coherente (k : Globals μ) : Prop where
  viejos : k.listaTcbsBlockeados = []
  nuevos : k.listPcbNew.Nodup
  emitidos : ∀ pid ∈ k.listPcbNew, pid < k.globalPid
  hilos : ∀ h ∈ (vista k).threads ++ (vista k).fresh, h.pid < k.globalPid ∧ h.pid ∉ k.listPcbNew
  tcbActual : ∀ p, k.fase = .ejecutando p → k.currentTcbExecuting = some p
  pcbActual : ∀ p ∈ k.fase.proximo?, ∀ pid ∈ k.currentPcbExecuting, pid = p.parentPid

/-- The event is a THREAD_CREATE that gives a thread the identifiers `i`. -/
def CreaHilo (k : Globals μ) (e : Evento) (i : Nat × Nat) : Prop :=
  ∃ path priority pid, e = .respuesta (.threadCreate path priority) ∧
    k.currentPcbExecuting = some pid ∧ i = (pid, (k.pcbs pid).tidCount)

/-- The event runs the long-term scheduler: a PROCESS_CREATE, or the last round of the
loop that ends a process. -/
def CreaProcesos (k : Globals μ) (e : Evento) : Prop :=
  (e = .seguirFin ∧ ∃ causa p i pid, k.fase = .finalizando causa p i ∧
    k.currentPcbExecuting = some pid ∧ (k.pcbs pid).tidCount ≤ i) ∨
  ∃ path size priority, e = .respuesta (.processCreate path size priority)

/-- The event may create threads of the process. -/
def CreaEn (k : Globals μ) (e : Evento) (pid : Nat) : Prop :=
  (∃ p path priority, k.fase = .ejecutando p ∧ e = .respuesta (.threadCreate path priority) ∧
    k.currentPcbExecuting = some pid) ∨
  (CreaProcesos k e ∧ (pid ∈ k.listPcbNew ∨ pid = k.globalPid))

/-- The event undoes the joins on the thread: its THREAD_EXIT, or a THREAD_CANCEL of it. -/
def DeshaceJoins (k : Globals μ) (e : Evento) (pid tid : Nat) : Prop :=
  ∃ p, k.fase = .ejecutando p ∧ p.parentPid = pid ∧
    ((∃ x, e = .respuesta (.threadExit x) ∧ p.tid = tid) ∨ e = .respuesta (.threadCancel tid))

/-- The message takes the running thread out of scheduling. -/
def Retira (k : Globals μ) (p : Tcb) : Mensaje Nat → Prop
  | .threadExit _ => True
  | .processExit _ => True
  | .segmentationFault _ _ => True
  | .mutexLock name _ =>
      getMutex k name = some none ∨
      ∃ m, getMutex k name = some (some m) ∧ m.assignedPid ≠ p.parentPid
  | _ => False

/-- The event goes on after the `sem_wait` of a process that ends. -/
def EsperaFin (k : Globals μ) (e : Evento) : Prop :=
  (e = .seguirFin ∧ ∃ causa p i, k.fase = .esperando causa p i) ∨
  (∃ j d pid i, e = .dumpSeguir j ∧ k.dumps[j]? = some d ∧ d.fase = .esperando pid i)

/-- Which moves of the threads an event may make from `k`. -/
def Permite (cfg : Config μ) (k : Globals μ) (e : Evento)
    (s : Pool Hilo (Nat × Nat) Motivo) :
    PoolLabel Hilo (Nat × Nat) Motivo → Prop
  | .create t => CreaEn k e t.pid
  | .enter t =>
      CreaEn k e t.pid ∧ ((∀ u ∈ s.threads, u.pid ≠ t.pid) ∨
        (CreaHilo k e t.ident ∧ s.threads = (vista k).threads))
  | .pick _ => e = .despachar
  | .lose _ => e = .despachar ∧ gemeloEnReady cfg k ≠ none
  | .wake _ r => ∀ pid tid, r = .join pid tid → DeshaceJoins k e pid tid
  | .post _ r => ∀ pid tid, r = .join pid tid → DeshaceJoins k e pid tid
  | .forget _ r => r = .io ∨ r = .dump
  | .drop t => ∃ p m, k.fase = .ejecutando p ∧ p.hilo = t ∧ e = .respuesta m ∧ Retira k p m
  | .spend => EsperaFin k e
  | _ => True

section Coherence

variable {cfg : Config μ} {k k' : Globals μ} {e : Evento}

/-- No process was created, and the older list of joins is as it was. -/
def MismosPids (k k' : Globals μ) : Prop :=
  k'.listaTcbsBlockeados = k.listaTcbsBlockeados ∧ k'.listPcbNew = k.listPcbNew ∧
    k'.globalPid = k.globalPid

theorem Despierta.mismosPids
    (h : Despierta k k') :
    MismosPids k k' := by
  rw [h]
  exact ⟨rfl, rfl, rfl⟩

/-- A step that creates no process keeps the kernel coherent. -/
theorem Coherente.mueve
    {ok : Pool Hilo (Nat × Nat) Motivo → PoolLabel Hilo (Nat × Nat) Motivo → Prop}
    (hc : Coherente k)
    (h : Mueve ok k k')
    (hcreate : ∀ {a t}, ok a (.create t) →
      ∃ p, k.fase = .ejecutando p ∧ k.currentPcbExecuting = some t.pid)
    (hresto : MismosPids k k')
    (htcb : ∀ p, k'.fase = .ejecutando p → k'.currentTcbExecuting = some p)
    (hpcb : ∀ p ∈ k'.fase.proximo?, ∀ pid ∈ k'.currentPcbExecuting, pid = p.parentPid) :
    Coherente k' := by
  obtain ⟨hviejos, hnuevos, hglobal⟩ := hresto
  refine ⟨hviejos.trans hc.viejos, ?_, ?_, ?_, htcb, hpcb⟩
  · rw [hnuevos]
    exact hc.nuevos
  · rw [hnuevos, hglobal]
    exact hc.emitidos
  · intro t ht
    rw [hnuevos, hglobal]
    rcases h.mem_all ht with ht | ⟨a, ha⟩
    · exact hc.hilos t ht
    · -- a new thread belongs to the process of the running one
      obtain ⟨p, hfase, hpid⟩ := hcreate ha
      have heq : t.pid = p.parentPid := hc.pcbActual p (by rw [hfase]; rfl) t.pid hpid
      have hrun : p.hilo ∈ (vista k).threads := by
        simp [vista, Pool.threads, hfase, Fase.corriendo]
      rw [heq]
      exact hc.hilos p.hilo (List.mem_append_left _ hrun)

/-- An event without the long-term scheduler creates threads as `Coherente.mueve` asks. -/
theorem Permite.create
    {a : Pool Hilo (Nat × Nat) Motivo} {t : Hilo}
    (hsin : ¬ CreaProcesos k e)
    (h : Permite cfg k e a (.create t)) :
    ∃ p, k.fase = .ejecutando p ∧ k.currentPcbExecuting = some t.pid := by
  rcases h with ⟨p, _, _, hfase, _, hpid⟩ | ⟨hcrea, _⟩
  · exact ⟨p, hfase, hpid⟩
  · exact absurd hcrea hsin

/-- A round of the long-term scheduler that creates the first waiting process. -/
theorem mueve_procesoCreado
    (ok : Pool Hilo (Nat × Nat) Motivo → PoolLabel Hilo (Nat × Nat) Motivo → Prop)
    {pid : Nat} {resto : List Nat} {peticion : ProcessCreate} {peticiones : List ProcessCreate}
    (hc : Coherente k)
    (hnew : k.listPcbNew = pid :: resto)
    (hcreate : ∀ {a t}, t.pid = pid → ok a (.create t))
    (henter : ∀ {a t}, t.pid = pid → (∀ u ∈ a.threads, u.pid ≠ t.pid) → ok a (.enter t)) :
    Mueve ok k (procesoCreado cfg k pid resto peticion peticiones) ∧
      Coherente (procesoCreado cfg k pid resto peticion peticiones) ∧
      (procesoCreado cfg k pid resto peticion peticiones).fase = k.fase := by
  have hpid : pid ∈ k.listPcbNew := by simp [hnew]
  have hrest := createThread_resto cfg k pid peticion.nombreArchivo peticion.prioridad
  have hpids : Mueve (fun _ l => ∀ t, l = .create t → t.pid = pid) k
      (procesoCreado cfg k pid resto peticion peticiones) := by
    refine mueve_createThread ?_ ?_
    · rintro b t ht u hu
      cases hu
      exact ht
    · rintro b t _ _ u hu
      cases hu
  have hnodup := hc.nuevos
  rw [hnew] at hnodup
  have hout := List.nodup_cons.mp hnodup
  refine ⟨?_, ⟨?_, hout.2, ?_, ?_, ?_, ?_⟩, ?_⟩
  · refine mueve_createThread hcreate ?_
    intro b t ht hthreads
    have ht' : t.pid = pid := congrArg Prod.fst ht
    refine henter ht' (fun u hu heq => ?_)
    rw [hthreads] at hu
    exact (hc.hilos u (List.mem_append_left _ hu)).2 (heq.trans ht' ▸ hpid)
  · simp only [procesoCreado]
    rw [hrest]
    exact hc.viejos
  · intro q hq
    simp only [procesoCreado]
    rw [hrest]
    exact hc.emitidos q (hnew ▸ List.mem_cons_of_mem _ hq)
  · intro t ht
    have hglobal : (procesoCreado cfg k pid resto peticion peticiones).globalPid =
        k.globalPid := by
      simp only [procesoCreado]
      rw [hrest]
    rw [hglobal]
    rcases hpids.mem_all ht with ht | ⟨_, heq⟩
    · have hold := hc.hilos t ht
      rw [hnew] at hold
      exact ⟨hold.1, fun hmem => hold.2 (List.mem_cons_of_mem _ hmem)⟩
    · rw [heq t rfl]
      exact ⟨hc.emitidos pid hpid, hout.1⟩
  · simp only [procesoCreado]
    rw [hrest]
    exact hc.tcbActual
  · simp only [procesoCreado]
    rw [hrest]
    exact hc.pcbActual
  · simp only [procesoCreado]
    rw [hrest]

/-- The rounds of the long-term scheduler. -/
theorem mueve_tryCreateRounds
    (cfg : Config μ)
    (ok : Pool Hilo (Nat × Nat) Motivo → PoolLabel Hilo (Nat × Nat) Motivo → Prop)
    (hc : Coherente k)
    (hcreate : ∀ {a t}, t.pid ∈ k.listPcbNew → ok a (.create t))
    (henter : ∀ {a t}, t.pid ∈ k.listPcbNew → (∀ u ∈ a.threads, u.pid ≠ t.pid) →
      ok a (.enter t))
    (n : Nat) :
    Mueve ok k (tryCreateRounds cfg n k) ∧ Coherente (tryCreateRounds cfg n k) ∧
      (tryCreateRounds cfg n k).fase = k.fase := by
  have hinv := tryCreateRounds_invariant cfg (k := k)
    (I := fun a => Mueve ok k a ∧ Coherente a ∧ (∀ pid ∈ a.listPcbNew, pid ∈ k.listPcbNew) ∧
      a.fase = k.fase)
    n ⟨Pool.Reaches.refl, hc, fun _ h => h, rfl⟩ ?_ ?_
  · exact ⟨hinv.1, hinv.2.1, hinv.2.2.2⟩
  · rintro a m ⟨hmove, hca, hsub, hfase⟩
    exact ⟨hmove, ⟨hca.viejos, hca.nuevos, hca.emitidos, hca.hilos, hca.tcbActual,
      hca.pcbActual⟩, hsub, hfase⟩
  · rintro a pid resto peticion peticiones ⟨hmove, hca, hsub, hfase⟩ hnew _
    have hpid : pid ∈ k.listPcbNew := hsub pid (by simp [hnew])
    obtain ⟨hcreated, hcoh, hfase'⟩ : Mueve ok a (procesoCreado cfg a pid resto peticion
          peticiones) ∧ Coherente (procesoCreado cfg a pid resto peticion peticiones) ∧
        (procesoCreado cfg a pid resto peticion peticiones).fase = a.fase :=
      mueve_procesoCreado ok hca hnew (fun ht => hcreate (ht ▸ hpid))
        (fun ht hfresh => henter (ht ▸ hpid) hfresh)
    refine ⟨hmove.trans hcreated, hcoh, ?_, hfase'.trans hfase⟩
    intro q hq
    exact hsub q (hnew ▸ List.mem_cons_of_mem _ hq)

end Coherence

section Steps

variable {cfg : Config μ} {k k' : Globals μ}

theorem mueve_despachar
    (hc : Coherente k)
    (h : despachar cfg k = some k') :
    Mueve (Permite cfg k .despachar) k k' ∧ Coherente k' := by
  obtain ⟨seguir, previo, proximo, k₁, hfase, helegir, rfl, hcases⟩ := despachar_cases h
  have hlose : findTcbInList k₁.listReadyTcb proximo.parentPid proximo.tid ≠ none →
      ∀ {a t}, Permite cfg k .despachar a (.lose t) := by
    intro hfind a t
    refine ⟨rfl, ?_⟩
    rw [gemeloEnReady, hfase]
    simpa [helegir] using hfind
  have hmove : Mueve (Permite cfg k .despachar) k { k₁ with
      currentPcbExecuting := findPcbByPid k proximo.parentPid
      listReadyTcb := k₁.listReadyTcb.eraseP (Tcb.es proximo.parentPid proximo.tid)
      currentTcbExecuting := some proximo
      fase := .ejecutando proximo } := by
    rcases hcases with ⟨rfl, rfl, rfl⟩ | ⟨rfl, l, m, n, q, hready, hsem, rfl⟩
    · refine mueve_quitarGemelo hlose ?_
      simp [vista, motivos, hfase, Fase.corriendo]
    · have hstep : Pool.Move Hilo.ident (vista k) (.pick proximo.hilo) _ :=
        Pool.Move.pick (l := l.map Tcb.hilo) (m := m.map Tcb.hilo) (n := n)
          (by simp [vista, hfase, Fase.corriendo]) (by simp [vista, hready]) hsem
      have hpicked : Mueve (Permite cfg k .despachar) k { k with
          listReadyTcb := l ++ m
          semThreadCount := n
          fase := .ejecutando proximo } := by
        refine Pool.Reaches.single (l := .pick proximo.hilo) rfl ?_
        convert hstep using 1
        simp [vista, motivos, Fase.corriendo]
      refine hpicked.trans (mueve_quitarGemelo hlose ?_)
      simp [vista, motivos, Fase.corriendo]
  refine ⟨hmove, hc.mueve hmove (Permite.create ?_) ?_ ?_ ?_⟩
  · rintro (⟨hcrea, _⟩ | ⟨_, _, _, hcrea⟩) <;> cases hcrea
  · rcases hcases with ⟨rfl, rfl, rfl⟩ | ⟨rfl, l, m, n, q, hready, hsem, rfl⟩ <;>
      exact ⟨rfl, rfl, rfl⟩
  · intro p hp
    cases hp
    rfl
  · intro p hp pid hpid
    cases hp
    exact (findPcbByPid_some hpid).1

end Steps

section Messages

variable {cfg : Config μ} {k k' : Globals μ} {proximo : Tcb} {pid : Nat}

theorem vista_seguirCon
    (hrun : k.fase.corriendo = some proximo.hilo) :
    vista (seguirCon proximo k) = vista k := by
  simp only [vista, seguirCon, hrun]
  rfl

theorem vista_soltar : vista (soltar proximo k) = { vista k with running := none } := rfl

theorem Despierta.corriendo
    (h : Despierta k k') :
    k'.fase.corriendo = k.fase.corriendo := by
  rw [h]

variable (cfg) (hrun : k.fase = .ejecutando proximo)

include hrun

theorem mueve_threadJoin
    (tid : Nat) :
    Mueve (Permite cfg k (.respuesta (.threadJoin tid))) k (threadJoin tid proximo k) := by
  have hcorre : k.fase.corriendo = some proximo.hilo := by rw [hrun]; rfl
  rcases threadJoin_cases tid proximo k with ⟨_, heq⟩ | ⟨blocking, _, heq⟩
  · rw [heq]
    exact Pool.Reaches.of_eq (vista_seguirCon hcorre)
  · rw [heq]
    refine mueve_bloquear (r := .join blocking.parentPid blocking.tid) trivial hcorre rfl rfl ?_
      rfl ⟨rfl, rfl, rfl, rfl⟩
    refine motivos_eq_cons ?_
    simp only [soltar, addTcbJoin, List.map_append, List.append_assoc]
    exact List.perm_middle

theorem mueve_threadCancel
    {tid : Nat}
    (h : threadCancel tid proximo k = some k') :
    Mueve (Permite cfg k (.respuesta (.threadCancel tid))) k (seguirCon proximo k') := by
  have hcorre : k.fase.corriendo = some proximo.hilo := by rw [hrun]; rfl
  rcases threadCancel_cases h with ⟨tcb, hfind, rfl⟩ | ⟨_, _, rfl⟩
  · obtain ⟨hpid, htid, _⟩ := findTcbFromTid_some hfind
    have hdeshace : DeshaceJoins k (.respuesta (.threadCancel tid)) tcb.parentPid tcb.tid :=
      ⟨proximo, hrun, hpid.symm, Or.inr (by rw [htid])⟩
    have hmove : Mueve (Permite cfg k (.respuesta (.threadCancel tid))) k
        (unlockTcbJoins tcb.parentPid tcb.tid k) := by
      refine mueve_unlockTcbJoins ?_ ?_
      · rintro a t p u hr
        cases hr
        exact hdeshace
      · rintro a t p u hr
        cases hr
        exact hdeshace
    refine hmove.trans (Pool.Reaches.of_eq (vista_seguirCon ?_))
    rw [Despierta.corriendo unlockTcbJoins_despierta]
    exact hcorre
  · exact Pool.Reaches.of_eq (vista_seguirCon hcorre)

/-- THREAD_EXIT: the joins and the mutexes, and then the thread is gone. -/
theorem mueve_threadExit
    {x : Nat}
    (h : threadExit cfg proximo k = some k') :
    Mueve (Permite cfg k (.respuesta (.threadExit x))) k (soltar proximo k') := by
  obtain ⟨pcbs, k₁, hk₁, _, _, hrelease⟩ := threadExit_cases h
  have hvista : vista k₁ = vista k := by
    rw [hk₁]
    rfl
  have hdeshace :
      DeshaceJoins k (.respuesta (.threadExit x)) proximo.parentPid proximo.tid :=
    ⟨proximo, hrun, rfl, Or.inl ⟨x, rfl, rfl⟩⟩
  have hjoins : Mueve (Permite cfg k (.respuesta (.threadExit x))) k₁
      (unlockTcbJoins proximo.parentPid proximo.tid k₁) := by
    refine mueve_unlockTcbJoins ?_ ?_
    · rintro a t p u hr
      cases hr
      exact hdeshace
    · rintro a t p u hr
      cases hr
      exact hdeshace
  have hmutexes : Mueve (Permite cfg k (.respuesta (.threadExit x)))
      (unlockTcbJoins proximo.parentPid proximo.tid k₁) k' := by
    refine mueve_releaseAllMutexes ?_ ?_ hrelease
    · rintro a t name p u hr
      cases hr
    · rintro a t name p u hr
      cases hr
  have hretira : Mueve (Permite cfg k (.respuesta (.threadExit x))) k' (soltar proximo k') := by
    refine mueve_retirar proximo ?_ ?_ vista_soltar
    · exact ⟨proximo, _, hrun, rfl, rfl, trivial⟩
    · rw [(releaseAllMutexes_despierta hrelease).corriendo,
        Despierta.corriendo unlockTcbJoins_despierta, hk₁]
      simp [hrun, Fase.corriendo]
  refine (Pool.Reaches.of_eq hvista).trans ?_
  exact hjoins.trans (hmutexes.trans hretira)

theorem mueve_mutexCreate
    {name : List Char} {x : Nat}
    (h : mutexCreate name pid k = some k') :
    Mueve (Permite cfg k (.respuesta (.mutexCreate name x))) k (seguirCon proximo k') := by
  have hcorre : k.fase.corriendo = some proximo.hilo := by rw [hrun]; rfl
  rcases mutexCreate_cases h with rfl | ⟨_, rfl⟩
  · exact Pool.Reaches.of_eq (vista_seguirCon hcorre)
  · refine Pool.Reaches.of_eq (Eq.trans (vista_seguirCon ?_) ?_)
    · exact hcorre
    · simp [vista, motivos, nuevoMutex, Mutex.esperas]

theorem mueve_mutexLock
    {name : List Char} {x : Nat} {reservado : Bool}
    (h : mutexLock cfg name proximo k = some (k', reservado)) :
    Mueve (Permite cfg k (.respuesta (.mutexLock name x))) k
      (if reservado then seguirCon proximo k' else soltar proximo k') := by
  have hcorre : k.fase.corriendo = some proximo.hilo := by rw [hrun]; rfl
  rcases mutexLock_cases h with ⟨hget, rfl, salida, rfl⟩ |
    ⟨m, hget, ⟨hpid, rfl, rfl⟩ | ⟨_, _, rfl, rfl⟩ | ⟨_, _, _, rfl, rfl⟩⟩
  · refine mueve_retirar proximo ?_ hcorre ?_
    · exact ⟨proximo, _, hrun, rfl, rfl, Or.inl hget⟩
    · exact vista_soltar
  · refine mueve_retirar proximo ?_ hcorre ?_
    · exact ⟨proximo, _, hrun, rfl, rfl, Or.inr ⟨m, hget, hpid⟩⟩
    · have hfree : vista (modificarMutex k name (fun m => { m with liberado := true })) =
          vista k := vista_modificarMutex (fun _ => rfl)
      rw [if_neg Bool.false_ne_true, vista_soltar, hfree]
  · refine Pool.Reaches.of_eq (Eq.trans (vista_seguirCon ?_) ?_)
    · exact hcorre
    · exact vista_modificarMutex (fun _ => rfl)
  · obtain ⟨hfind, hname, _⟩ := getMutex_some hget
    rw [if_neg Bool.false_ne_true]
    have hsame : Tcb.hilo { proximo with state := .blocked } = proximo.hilo := rfl
    refine mueve_bloquear (r := .mutex name) trivial hcorre hsame rfl ?_ rfl
      ⟨rfl, rfl, rfl, rfl⟩
    exact motivos_encolar (t := { proximo with state := .blocked }) hfind hname rfl
      ⟨rfl, rfl, rfl⟩

theorem mueve_mutexUnlock_evento
    {name : List Char} {x : Nat}
    (h : mutexUnlock name proximo k = some k') :
    Mueve (Permite cfg k (.respuesta (.mutexUnlock name x))) k (seguirCon proximo k') := by
  have hmove : Mueve (Permite cfg k (.respuesta (.mutexUnlock name x))) k k' := by
    refine mueve_mutexUnlock ?_ ?_ h
    · rintro a t p u hr
      cases hr
    · rintro a t p u hr
      cases hr
  refine hmove.trans (Pool.Reaches.of_eq (vista_seguirCon ?_))
  rw [(mutexUnlock_despierta h).corriendo, hrun]
  rfl

theorem mueve_dumpMemory
    {x y : Nat} :
    Mueve (Permite cfg k (.respuesta (.dumpMemory x y))) k
      (soltar proximo (dumpMemory proximo k)) := by
  have hcorre : k.fase.corriendo = some proximo.hilo := by rw [hrun]; rfl
  refine mueve_bloquear (r := .dump) trivial hcorre rfl rfl ?_ rfl ⟨rfl, rfl, rfl, rfl⟩
  refine motivos_eq_cons ?_
  simp only [soltar, dumpMemory, List.filterMap_append, ← List.append_assoc]
  exact List.perm_append_comm

theorem mueve_requestIo
    (milisegundos : Nat) :
    Mueve (Permite cfg k (.respuesta (.io milisegundos))) k
      (soltar proximo (requestIo proximo milisegundos k)) := by
  have hcorre : k.fase.corriendo = some proximo.hilo := by rw [hrun]; rfl
  have hsame : Tcb.hilo { proximo with state := .blocked } = proximo.hilo := rfl
  refine mueve_bloquear (r := .io) trivial hcorre hsame rfl ?_ rfl ⟨rfl, rfl, rfl, rfl⟩
  refine motivos_eq_cons ?_
  simp only [soltar, requestIo, List.map_append, List.append_assoc]
  rw [← List.append_assoc, ← List.append_assoc]
  refine List.perm_middle.trans ?_
  simp only [List.append_assoc]
  exact List.Perm.refl _

theorem mueve_interrupcion
    {x y : Nat} :
    Mueve (Permite cfg k (.respuesta (.kernelInterruption x y))) k
      (soltar proximo (postThreadCount
        { k with listReadyTcb := addTcbToList k.listReadyTcb proximo })) := by
  have hcorre : k.fase.corriendo = some proximo.hilo := by rw [hrun]; rfl
  have hstep : Pool.Move Hilo.ident (vista k) (.preempt proximo.hilo) _ :=
    Pool.Move.preempt hcorre
  refine Pool.Reaches.single (l := .preempt proximo.hilo) trivial ?_
  convert hstep using 1
  simp [vista, motivos, soltar, postThreadCount, addTcbToList, Fase.corriendo]

omit hrun

variable {cfg}

/-- Resetting the quantum does not change what a message may do. -/
theorem Permite.of_interruptQuantum
    {m : Mensaje Nat} {a : Pool Hilo (Nat × Nat) Motivo}
    {l : PoolLabel Hilo (Nat × Nat) Motivo}
    (h : Permite cfg (interruptQuantum k) (.respuesta m) a l) :
    Permite cfg k (.respuesta m) a l := by
  cases l with
  | lose t =>
      obtain ⟨hno, _⟩ := h
      cases hno
  | _ => exact h

/-- A step to the top of the loop that creates no process keeps the kernel coherent. -/
theorem Coherente.mueve_planificar
    {e : Evento}
    (hc : Coherente k)
    (h : Mueve (Permite cfg k e) k k')
    (hsin : ¬ CreaProcesos k e)
    (hresto : MismosPids k k')
    (hfase : k'.fase.proximo? = none) :
    Coherente k' := by
  refine hc.mueve h (Permite.create hsin) hresto ?_ ?_
  · intro p hp
    rw [hp] at hfase
    cases hfase
  · intro p hp
    rw [hfase] at hp
    cases hp

theorem Coherente.seguirCon
    (hc : Coherente k)
    (hrun : k.fase.corriendo = some proximo.hilo) :
    Coherente (seguirCon proximo k) := by
  refine ⟨hc.viejos, hc.nuevos, hc.emitidos, ?_, ?_, ?_⟩
  · rw [vista_seguirCon hrun]
    exact hc.hilos
  · intro p hp
    cases hp
  · intro p hp
    cases hp

theorem Coherente.interruptQuantum
    (hc : Coherente k) :
    Coherente (interruptQuantum k) :=
  ⟨hc.viejos, hc.nuevos, hc.emitidos, hc.hilos, hc.tcbActual, hc.pcbActual⟩

/-- A new PID keeps the kernel coherent. -/
theorem coherente_createProcess
    {size : Nat} {peticiones : List ProcessCreate}
    (hc : Coherente k) :
    Coherente { createProcess k size with listFirstThreadParams := peticiones } := by
  refine ⟨hc.viejos, ?_, ?_, ?_, hc.tcbActual, hc.pcbActual⟩
  · refine List.nodup_append.mpr ⟨hc.nuevos, by simp, ?_⟩
    rintro a ha b hb rfl
    rw [List.mem_singleton.mp hb] at ha
    exact absurd (hc.emitidos _ ha) (Nat.lt_irrefl _)
  · intro q hq
    rcases List.mem_append.mp hq with hq | hq
    · exact Nat.lt_succ_of_lt (hc.emitidos q hq)
    · rw [List.mem_singleton.mp hq]
      exact Nat.lt_succ_self _
  · intro t ht
    have hold := hc.hilos t ht
    refine ⟨Nat.lt_succ_of_lt hold.1, fun hmem => ?_⟩
    rcases List.mem_append.mp hmem with hmem | hmem
    · exact hold.2 hmem
    · rw [List.mem_singleton.mp hmem] at hold
      exact Nat.lt_irrefl _ hold.1

/-- PROCESS_CREATE: a new PID, and the rounds of the long-term scheduler. -/
theorem mueve_processCreate
    (cfg : Config μ) (path : List Char) (size priority : Nat)
    (hc : Coherente k)
    (ok : Pool Hilo (Nat × Nat) Motivo → PoolLabel Hilo (Nat × Nat) Motivo → Prop)
    (hcreate : ∀ {a t}, t.pid ∈ k.listPcbNew ∨ t.pid = k.globalPid → ok a (.create t))
    (henter : ∀ {a t}, t.pid ∈ k.listPcbNew ∨ t.pid = k.globalPid →
      (∀ u ∈ a.threads, u.pid ≠ t.pid) → ok a (.enter t)) :
    Mueve ok k (processCreate cfg path size priority k) ∧
      Coherente (processCreate cfg path size priority k) ∧
      (processCreate cfg path size priority k).fase = k.fase := by
  have hpid : ∀ q ∈ k.listPcbNew ++ [k.globalPid], q ∈ k.listPcbNew ∨ q = k.globalPid := by
    intro q hq
    rcases List.mem_append.mp hq with hq | hq
    · exact Or.inl hq
    · exact Or.inr (List.mem_singleton.mp hq)
  exact mueve_tryCreateRounds cfg ok (coherente_createProcess hc) (fun ht => hcreate (hpid _ ht))
    (fun ht => henter (hpid _ ht)) _

/-- The process of the running thread begins to end. -/
theorem mueve_finalizar
    {m : Mensaje Nat} (causa : Causa)
    (hc : Coherente k)
    (hrun : k.fase = .ejecutando proximo)
    (hretira : Retira k proximo m)
    (hsin : ¬ CreaProcesos k (.respuesta m)) :
    Mueve (Permite cfg k (.respuesta m)) k { k with fase := .finalizando causa proximo 0 } ∧
      Coherente { k with fase := .finalizando causa proximo 0 } := by
  have hcorre : k.fase.corriendo = some proximo.hilo := by rw [hrun]; rfl
  have hmove : Mueve (Permite cfg k (.respuesta m)) k
      { k with fase := .finalizando causa proximo 0 } :=
    mueve_retirar proximo ⟨proximo, _, hrun, rfl, rfl, hretira⟩ hcorre rfl
  refine ⟨hmove, hc.mueve hmove (Permite.create hsin) ⟨rfl, rfl, rfl⟩ ?_ ?_⟩
  · intro p hp
    cases hp
  · intro p hp q hq
    cases hp
    exact hc.pcbActual proximo (by rw [hrun]; rfl) q hq

/-- THREAD_CREATE: a new thread of the running process. -/
theorem mueve_threadCreate
    (cfg : Config μ)
    (hrun : k.fase = .ejecutando proximo)
    (path : List Char) (priority : Nat)
    (hcurrent : k.currentPcbExecuting = some pid) :
    Mueve (Permite cfg k (.respuesta (.threadCreate path priority))) k
      (createThread cfg k pid path priority).1 := by
  refine mueve_createThread ?_ ?_
  · intro a t ht
    exact Or.inl ⟨proximo, path, priority, hrun, rfl, by rw [ht]; exact hcurrent⟩
  · intro a t ht hthreads
    have htpid : t.pid = pid := congrArg Prod.fst ht
    exact ⟨Or.inl ⟨proximo, path, priority, hrun, rfl, by rw [htpid]; exact hcurrent⟩,
      Or.inr ⟨⟨path, priority, pid, rfl, hcurrent, ht⟩, hthreads⟩⟩

theorem mueve_atenderSyscall
    {m : Mensaje Nat}
    (hc : Coherente k)
    (hrun : k.fase = .ejecutando proximo)
    (hpid : k.currentPcbExecuting = some pid ∨ ∃ tid ppid, m = .kernelInterruption tid ppid)
    (h : atenderSyscall cfg proximo pid m k = some k') :
    Mueve (Permite cfg k (.respuesta m)) k k' ∧ Coherente k' := by
  have hcorre : k.fase.corriendo = some proximo.hilo := by rw [hrun]; rfl
  have hsin : (∀ path size priority, m ≠ .processCreate path size priority) →
      ¬ CreaProcesos k (.respuesta m) := by
    rintro hno (⟨hcrea, _⟩ | ⟨path, size, priority, hcrea⟩)
    · cases hcrea
    · cases hcrea
      exact hno path size priority rfl
  cases m with
  | processCreate path size priority =>
      cases h
      obtain ⟨hmove, hcoh, hfase⟩ := mueve_processCreate cfg path size priority hc
        (Permite cfg k (.respuesta (.processCreate path size priority)))
        (fun ht => Or.inr ⟨Or.inr ⟨path, size, priority, rfl⟩, ht⟩)
        (fun ht hfresh => ⟨Or.inr ⟨Or.inr ⟨path, size, priority, rfl⟩, ht⟩, Or.inl hfresh⟩)
      have hcorre' : (processCreate cfg path size priority k).fase.corriendo =
          some proximo.hilo := by rw [hfase, hcorre]
      exact ⟨hmove.trans (Pool.Reaches.of_eq (vista_seguirCon hcorre')),
        hcoh.seguirCon hcorre'⟩
  | processExit x =>
      cases h
      exact mueve_finalizar .processExit hc hrun trivial (hsin (by simp))
  | segmentationFault x y =>
      cases h
      exact mueve_finalizar .segmentationFault hc hrun trivial (hsin (by simp))
  | threadCreate path priority =>
      cases h
      have hcurrent : k.currentPcbExecuting = some pid := by
        rcases hpid with hpid | ⟨_, _, hno⟩
        · exact hpid
        · cases hno
      have hmove := mueve_threadCreate cfg hrun path priority hcurrent
      have hcorre' : (createThread cfg k pid path priority).1.fase.corriendo =
          some proximo.hilo := by
        rw [createThread_resto]
        exact hcorre
      have hall := hmove.trans (Pool.Reaches.of_eq (vista_seguirCon hcorre'))
      refine ⟨hall, hc.mueve_planificar hall (hsin (by simp)) ?_ rfl⟩
      simp only [seguirCon]
      rw [createThread_resto]
      exact ⟨rfl, rfl, rfl⟩
  | threadJoin tid =>
      cases h
      have hmove := mueve_threadJoin cfg hrun tid
      rcases threadJoin_cases tid proximo k with ⟨_, heq⟩ | ⟨_, _, heq⟩
      · rw [heq] at hmove ⊢
        exact ⟨hmove, hc.mueve_planificar hmove (hsin (by simp)) ⟨rfl, rfl, rfl⟩ rfl⟩
      · rw [heq] at hmove ⊢
        exact ⟨hmove, hc.mueve_planificar hmove (hsin (by simp)) ⟨rfl, rfl, rfl⟩ rfl⟩
  | threadCancel tid =>
      simp only [atenderSyscall, Option.bind_eq_bind] at h
      obtain ⟨k₁, hcancel, hk'⟩ := Option.bind_eq_some_iff.mp h
      cases hk'
      have hmove := mueve_threadCancel cfg hrun hcancel
      refine ⟨hmove, hc.mueve_planificar hmove (hsin (by simp)) ?_ rfl⟩
      rcases threadCancel_cases hcancel with ⟨tcb, _, rfl⟩ | ⟨_, _, rfl⟩
      · exact unlockTcbJoins_despierta.mismosPids
      · exact ⟨rfl, rfl, rfl⟩
  | threadExit x =>
      simp only [atenderSyscall, Option.bind_eq_bind] at h
      obtain ⟨k₁, hexit, hk'⟩ := Option.bind_eq_some_iff.mp h
      cases hk'
      have hmove := mueve_threadExit cfg (x := x) hrun hexit
      refine ⟨hmove, hc.mueve_planificar hmove (hsin (by simp)) ?_ rfl⟩
      obtain ⟨pcbs, k₂, hk₂, _, _, hrelease⟩ := threadExit_cases hexit
      have hpids := (unlockTcbJoins_despierta.trans
        (releaseAllMutexes_despierta hrelease)).mismosPids
      rw [hk₂] at hpids
      exact hpids
  | mutexCreate name x =>
      simp only [atenderSyscall, Option.bind_eq_bind] at h
      obtain ⟨k₁, hcreate, hk'⟩ := Option.bind_eq_some_iff.mp h
      cases hk'
      have hmove := mueve_mutexCreate cfg (x := x) hrun hcreate
      refine ⟨hmove, hc.mueve_planificar hmove (hsin (by simp)) ?_ rfl⟩
      rcases mutexCreate_cases hcreate with rfl | ⟨_, rfl⟩
      · exact ⟨rfl, rfl, rfl⟩
      · exact ⟨rfl, rfl, rfl⟩
  | mutexLock name x =>
      simp only [atenderSyscall, Option.bind_eq_bind] at h
      obtain ⟨⟨k₁, reservado⟩, hlock, hk'⟩ := Option.bind_eq_some_iff.mp h
      have hmove := mueve_mutexLock cfg (x := x) hrun hlock
      simp only [Option.some.injEq] at hk'
      rw [hk'] at hmove
      refine ⟨hmove, hc.mueve_planificar hmove (hsin (by simp)) ?_ ?_⟩
      · rw [← hk']
        rcases mutexLock_cases hlock with ⟨_, rfl, salida, rfl⟩ |
          ⟨m, _, ⟨_, rfl, rfl⟩ | ⟨_, _, rfl, rfl⟩ | ⟨_, _, _, rfl, rfl⟩⟩ <;>
          exact ⟨rfl, rfl, rfl⟩
      · rw [← hk']
        split_ifs <;> rfl
  | mutexUnlock name x =>
      simp only [atenderSyscall, Option.bind_eq_bind] at h
      obtain ⟨k₁, hunlock, hk'⟩ := Option.bind_eq_some_iff.mp h
      cases hk'
      have hmove := mueve_mutexUnlock_evento cfg (x := x) hrun hunlock
      refine ⟨hmove, hc.mueve_planificar hmove (hsin (by simp)) ?_ rfl⟩
      exact (mutexUnlock_despierta hunlock).mismosPids
  | dumpMemory x y =>
      cases h
      have hmove := mueve_dumpMemory cfg (x := x) (y := y) hrun
      exact ⟨hmove, hc.mueve_planificar hmove (hsin (by simp)) ⟨rfl, rfl, rfl⟩ rfl⟩
  | io milisegundos =>
      have hcurrent := hc.tcbActual proximo hrun
      simp only [atenderSyscall, hcurrent, Option.bind_eq_bind, Option.bind_some,
        Option.some.injEq] at h
      subst h
      have hmove := mueve_requestIo cfg hrun milisegundos
      exact ⟨hmove, hc.mueve_planificar hmove (hsin (by simp)) ⟨rfl, rfl, rfl⟩ rfl⟩
  | kernelInterruption x y =>
      cases h
      have hmove := mueve_interrupcion cfg (x := x) (y := y) hrun
      exact ⟨hmove, hc.mueve_planificar hmove (hsin (by simp)) ⟨rfl, rfl, rfl⟩ rfl⟩

theorem mueve_atenderMensaje
    {m : Mensaje Nat}
    (hc : Coherente k)
    (h : atenderMensaje cfg m k = some k') :
    Mueve (Permite cfg k (.respuesta m)) k k' ∧ Coherente k' := by
  obtain ⟨proximo, pid, hrun, hpid, hsyscall⟩ := atenderMensaje_cases h
  obtain ⟨hmove, hcoh⟩ := mueve_atenderSyscall hc.interruptQuantum hrun hpid hsyscall
  exact ⟨hmove.mono Permite.of_interruptQuantum, hcoh⟩

end Messages

section Endings

variable {cfg : Config μ} {k k' : Globals μ} {e : Evento}

/-- Releasing mutexes never needs more than a mutex wait. -/
theorem mueve_release
    (cfg : Config μ) (e : Evento) {tcb : Tcb}
    (h : releaseAllMutexes tcb k = some k')
    (k₀ : Globals μ) :
    Mueve (Permite cfg k₀ e) k k' := by
  refine mueve_releaseAllMutexes ?_ ?_ h
  · rintro a t name p u hr
    cases hr
  · rintro a t name p u hr
    cases hr

/-- Releasing mutexes creates no thread. -/
theorem crea_release
    {tcb : Tcb}
    (h : releaseAllMutexes tcb k = some k') :
    Mueve (fun _ l => ∀ t, l ≠ .create t) k k' :=
  mueve_releaseAllMutexes (by simp) (by simp) h

/-- After the `sem_wait` of a process that ends, a permit is spent. -/
theorem mueve_reanudarHilo
    (cfg : Config μ) (e : Evento) {pid i : Nat}
    (hviejos : k.listaTcbsBlockeados = [])
    (hespera : EsperaFin k e)
    (h : reanudarHilo pid i k = some k') :
    Mueve (Permite cfg k e) k k' ∧ Mueve (fun _ l => ∀ t, l ≠ .create t) k k' ∧
      (∃ salida n, Despierta { k with listExitTcb := salida, semThreadCount := n } k') := by
  obtain ⟨n, tcb, hsem, _, hrelease⟩ := reanudarHilo_cases hviejos h
  have hspend : Pool.Move Hilo.ident (vista k) .spend (vista { k with
      semThreadCount := n
      listExitTcb := addTcbToList k.listExitTcb tcb }) := Pool.Move.spend hsem
  refine ⟨?_, ?_, _, n, releaseAllMutexes_despierta hrelease⟩
  · refine Pool.Reaches.trans (Pool.Reaches.single (l := .spend) hespera hspend) ?_
    exact mueve_release cfg e hrelease k
  · refine Pool.Reaches.trans (Pool.Reaches.single (l := .spend) (by simp) hspend) ?_
    exact crea_release hrelease

/-- A round of the loop that ends a process wakes threads at most. -/
theorem mueve_finalizarHilo
    (e : Evento) {pid i : Nat} {avance : Avance}
    (hviejos : k.listaTcbsBlockeados = [])
    (h : finalizarHilo cfg pid i k = some (k', avance)) :
    Mueve (Permite cfg k e) k k' ∧ Mueve (fun _ l => ∀ t, l ≠ .create t) k k' ∧
      (∃ salida m, Despierta { k with listExitTcb := salida, memoria := m } k') := by
  rcases finalizarHilo_cases hviejos h with ⟨_, _, rfl⟩ | ⟨tcb, _, _, ⟨_, _, rfl⟩ |
    ⟨_, _, hrelease⟩⟩
  · exact ⟨Pool.Reaches.refl, Pool.Reaches.refl, k'.listExitTcb, k'.memoria, Despierta.refl k'⟩
  · exact ⟨Pool.Reaches.refl, Pool.Reaches.refl, k.listExitTcb,
      (cfg.deleteThreadMemory k.memoria tcb).1, Despierta.refl _⟩
  · have hmove := mueve_release cfg e hrelease k
    have hcrea := crea_release hrelease
    exact ⟨hmove, hcrea, _, _, releaseAllMutexes_despierta hrelease⟩

/-- A step that creates no thread and leaves the dispatcher where it was. -/
theorem Coherente.mueve_sinCrear
    (hc : Coherente k)
    (h : Mueve (fun _ l => ∀ t, l ≠ .create t) k k')
    (hresto : MismosPids k k')
    (htcb : ∀ p, k'.fase = .ejecutando p → k'.currentTcbExecuting = some p)
    (hpcb : ∀ p ∈ k'.fase.proximo?, ∀ pid ∈ k'.currentPcbExecuting, pid = p.parentPid) :
    Coherente k' :=
  hc.mueve h (fun hno => absurd rfl (hno _)) hresto htcb hpcb

theorem mueve_terminarProceso
    (cfg : Config μ) (causa : Causa) (pid : Nat)
    (hc : Coherente k)
    (ok : Pool Hilo (Nat × Nat) Motivo → PoolLabel Hilo (Nat × Nat) Motivo → Prop)
    (hcreate : ∀ {a t}, t.pid ∈ k.listPcbNew → ok a (.create t))
    (henter : ∀ {a t}, t.pid ∈ k.listPcbNew → (∀ u ∈ a.threads, u.pid ≠ t.pid) →
      ok a (.enter t)) :
    Mueve ok k (terminarProceso cfg causa pid k) ∧
      Coherente (terminarProceso cfg causa pid k) ∧
      (terminarProceso cfg causa pid k).fase = k.fase := by
  obtain ⟨pcbs, salida, k₁, hk₁, _, heq⟩ := terminarProceso_cases cfg causa pid k
  have hcoh : Coherente k₁ := by
    rw [hk₁]
    exact ⟨hc.viejos, hc.nuevos, hc.emitidos, hc.hilos, hc.tcbActual, hc.pcbActual⟩
  have hvista : vista k₁ = vista k := by
    rw [hk₁]
    rfl
  have hfase : k₁.fase = k.fase := by rw [hk₁]
  have hnew : k₁.listPcbNew = k.listPcbNew := by rw [hk₁]
  rw [heq]
  cases causa with
  | processExit =>
      obtain ⟨hmove, hcoh', hfase'⟩ := mueve_tryCreateRounds cfg ok hcoh
        (fun ht => hcreate (hnew ▸ ht)) (fun ht => henter (hnew ▸ ht)) (k₁.listPcbNew.length + 1)
      exact ⟨(Pool.Reaches.of_eq hvista).trans hmove, hcoh', hfase'.trans hfase⟩
  | segmentationFault =>
      exact ⟨Pool.Reaches.of_eq hvista, hcoh, hfase⟩

theorem mueve_seguirFin
    (hc : Coherente k)
    (h : seguirFin cfg k = some k') :
    Mueve (Permite cfg k .seguirFin) k k' ∧ Coherente k' := by
  rcases seguirFin_cases h with
    ⟨causa, proximo, i, pid, k₁, avance, hfase, hpid, hround, hcases⟩ |
    ⟨causa, proximo, i, pid, k₁, hfase, _, hround, rfl⟩
  · obtain ⟨hmove, hcrea, salida, m, hresto⟩ :=
      mueve_finalizarHilo .seguirFin hc.viejos hround
    have hfase₁ : k₁.fase = k.fase := by rw [hresto]
    have hpcb₁ : k₁.currentPcbExecuting = k.currentPcbExecuting := by rw [hresto]
    have hcorre₁ : k₁.fase.corriendo = none := by
      rw [hfase₁, hfase]
      rfl
    have hcoh₁ : Coherente k₁ := by
      refine hc.mueve_sinCrear hcrea ?_ ?_ ?_
      · exact hresto.mismosPids
      · intro p hp
        rw [hfase₁, hfase] at hp
        cases hp
      · rw [hfase₁, hpcb₁]
        exact hc.pcbActual
    have hsigue : ∀ f : Fase, f.corriendo = none → f.proximo? = some proximo →
        (∀ p, f ≠ .ejecutando p) →
        Mueve (Permite cfg k .seguirFin) k { k₁ with fase := f } ∧
          Coherente { k₁ with fase := f } := by
      intro f hcorre hproximo hno
      have heq : vista { k₁ with fase := f } = vista k₁ := by
        simp only [vista, hcorre₁, hcorre]
        rfl
      refine ⟨hmove.trans (Pool.Reaches.of_eq heq), ?_⟩
      refine hcoh₁.mueve_sinCrear (Pool.Reaches.of_eq heq) ⟨rfl, rfl, rfl⟩ ?_ ?_
      · exact fun p hp => absurd hp (hno p)
      · have hold := hcoh₁.pcbActual
        rw [hfase₁, hfase] at hold
        simp only [hproximo]
        exact hold
    rcases hcases with ⟨_, rfl⟩ | ⟨_, rfl⟩ | ⟨rfl, rfl⟩
    · exact hsigue _ rfl rfl (by simp)
    · exact hsigue _ rfl rfl (by simp)
    · have hnew : k₁.listPcbNew = k.listPcbNew := by rw [hresto]
      have hcrea : CreaProcesos k .seguirFin := by
        refine Or.inl ⟨rfl, causa, proximo, i, pid, hfase, hpid, ?_⟩
        rcases finalizarHilo_cases hc.viejos hround with ⟨_, hend, _⟩ |
          ⟨_, _, _, ⟨hno, _⟩ | ⟨hno, _⟩⟩
        · exact hend
        · cases hno
        · cases hno
      obtain ⟨hmove', hcoh', hfase'⟩ := mueve_terminarProceso cfg causa pid hcoh₁ (Permite cfg k .seguirFin)
        (fun ht => Or.inr ⟨hcrea, Or.inl (hnew ▸ ht)⟩)
        (fun ht hfresh => ⟨Or.inr ⟨hcrea, Or.inl (hnew ▸ ht)⟩, Or.inl hfresh⟩)
      have hcorre' : (terminarProceso cfg causa pid k₁).fase.corriendo = none := by
        rw [hfase', hcorre₁]
      have hsoltar : vista (soltar proximo (terminarProceso cfg causa pid k₁)) =
          vista (terminarProceso cfg causa pid k₁) := by
        simp only [vista, hcorre']
        rfl
      refine ⟨hmove.trans (hmove'.trans (Pool.Reaches.of_eq hsoltar)), ?_⟩
      refine hcoh'.mueve_sinCrear (Pool.Reaches.of_eq hsoltar) ⟨rfl, rfl, rfl⟩ ?_ ?_
      · intro p hp
        cases hp
      · intro p hp
        cases hp
  · obtain ⟨hmove, hcrea, salida, n, hresto⟩ := mueve_reanudarHilo cfg .seguirFin
      hc.viejos (Or.inl ⟨rfl, causa, proximo, i, hfase⟩) hround
    have hpcb₁ : k₁.currentPcbExecuting = k.currentPcbExecuting := by rw [hresto]
    have hcorre₁ : k₁.fase.corriendo = none := by
      rw [hresto]
      simp [hfase, Fase.corriendo]
    have hvista : vista { k₁ with fase := .finalizando causa proximo (i + 1) } = vista k₁ := by
      simp only [vista, hcorre₁]
      rfl
    refine ⟨hmove.trans (Pool.Reaches.of_eq hvista), ?_⟩
    refine hc.mueve_sinCrear (hcrea.trans (Pool.Reaches.of_eq hvista)) hresto.mismosPids ?_ ?_
    · intro p hp
      cases hp
    · have hold := hc.pcbActual
      rw [hfase] at hold
      simp only [hpcb₁]
      exact hold

/-- Taking away a reason and nothing else. -/
theorem mueve_olvidar
    {ok : Pool Hilo (Nat × Nat) Motivo → PoolLabel Hilo (Nat × Nat) Motivo → Prop}
    {i : Nat × Nat} {r : Motivo}
    (hforget : ∀ {a}, ok a (.forget i r))
    (hmotivos : motivos k = (i, r) ::ₘ motivos k')
    (hresto : vista k' = { vista k with waits := motivos k' }) :
    Mueve ok k k' := by
  have hstep : Pool.Move Hilo.ident (vista k) (.forget i r) _ :=
    Pool.Move.forget (w := motivos k') hmotivos
  rw [← hresto] at hstep
  exact Pool.Reaches.single hforget hstep

/-- The dispatcher is where it was. -/
def MismaFase (k k' : Globals μ) : Prop :=
  k'.fase = k.fase ∧ k'.currentTcbExecuting = k.currentTcbExecuting ∧
    k'.currentPcbExecuting = k.currentPcbExecuting

theorem Despierta.mismaFase
    (h : Despierta k k') :
    MismaFase k k' := by
  rw [h]
  exact ⟨rfl, rfl, rfl⟩

/-- The end of an IO request: its thread is woken, or the request forgotten. -/
theorem mueve_ioFin
    (ok : Pool Hilo (Nat × Nat) Motivo → PoolLabel Hilo (Nat × Nat) Motivo → Prop)
    (hwake : ∀ {a t}, ok a (.wake t .io))
    (hforget : ∀ {a i}, ok a (.forget i .io))
    (h : ioFin k = some k') :
    Mueve ok k k' ∧ MismosPids k k' ∧ MismaFase k k' := by
  obtain ⟨request, resto, hqueue, hcases⟩ := ioFin_cases h
  have hmotivos : motivos k =
      ((request.pid, request.tid), .io) ::ₘ motivos { k with ioRequestQueue := resto } := by
    refine motivos_eq_cons ?_
    rw [hqueue, List.map_cons, List.cons_append]
    refine (List.Perm.append_left _ List.perm_middle).trans ?_
    exact List.perm_middle
  rcases hcases with ⟨l, t, m, hsplit, hpid, htid, rfl⟩ | ⟨_, rfl⟩
  · refine ⟨?_, ⟨rfl, rfl, rfl⟩, ⟨rfl, rfl, rfl⟩⟩
    have hident : t.hilo.ident = (request.pid, request.tid) := Tcb.ident_eq.mpr ⟨hpid, htid⟩
    have hstep : Pool.Move Hilo.ident (vista k) (.wake t.hilo .io) _ :=
      Pool.Move.wake (l := l.map Tcb.hilo) (m := m.map Tcb.hilo)
        (by simp [vista, hsplit]) (by
          rw [hident]
          exact hmotivos)
    refine Pool.Reaches.single (l := .wake t.hilo .io) hwake ?_
    convert hstep using 1
    simp [vista, motivos]
  · exact ⟨mueve_olvidar hforget hmotivos rfl, ⟨rfl, rfl, rfl⟩, ⟨rfl, rfl, rfl⟩⟩

/-- The reasons of the dumps when one of them is replaced. -/
theorem motivos_dumps
    {j : Nat} {d : Dump}
    (hd : k.dumps[j]? = some d)
    (hl : (k.dumps.eraseIdx j).filterMap Dump.espera? = k'.dumps.filterMap Dump.espera?)
    (hresto : k'.listTcbJoins = k.listTcbJoins ∧ k'.globalMutexes = k.globalMutexes ∧
      k'.ioRequestQueue = k.ioRequestQueue) :
    (d.fase = .enVuelo → motivos k = (d.tcb.ident, .dump) ::ₘ motivos k') ∧
    (d.fase ≠ .enVuelo → motivos k' = motivos k) := by
  obtain ⟨hjoins, hmutexes, hio⟩ := hresto
  obtain ⟨hlt, hget⟩ := List.getElem?_eq_some_iff.mp hd
  have hsplit : k.dumps = k.dumps.take j ++ d :: k.dumps.drop (j + 1) := by
    rw [← hget, ← List.drop_eq_getElem_cons hlt, List.take_append_drop]
  rw [List.eraseIdx_eq_take_drop_succ, List.filterMap_append] at hl
  constructor
  · intro hfase
    refine motivos_eq_cons ?_
    rw [hjoins, hmutexes, hio, ← hl, hsplit]
    have hespera : d.espera? = some (d.tcb.ident, .dump) := by simp [Dump.espera?, hfase]
    rw [List.filterMap_append, List.filterMap_cons_some hespera, ← hsplit]
    simp only [← List.append_assoc]
    exact List.perm_middle
  · intro hfase
    have hespera : d.espera? = none := by simp [Dump.espera?, hfase]
    have hsame : k.dumps.filterMap Dump.espera? = k'.dumps.filterMap Dump.espera? := by
      rw [← hl]
      conv_lhs => rw [hsplit]
      rw [List.filterMap_append, List.filterMap_cons_none hespera]
    simp only [motivos]
    rw [hjoins, hmutexes, hio, hsame]

/-- A dump that is past its answer has no reason to wait. -/
theorem filterMap_espera_set
    {l : List Dump} {j : Nat} {d : Dump}
    (hd : d.fase ≠ .enVuelo) :
    (l.eraseIdx j).filterMap Dump.espera? = (l.set j d).filterMap Dump.espera? := by
  have hespera : d.espera? = none := by simp [Dump.espera?, hd]
  induction l generalizing j with
  | nil =>
      rfl
  | cons x l ih =>
      cases j with
      | zero =>
          rw [List.eraseIdx_cons_zero, List.set_cons_zero, List.filterMap_cons_none hespera]
      | succ j =>
          rw [List.eraseIdx_cons_succ, List.set_cons_succ]
          simp only [List.filterMap_cons, ih]

/-- The answer of memoria to a dump. -/
theorem mueve_dumpRespuesta
    (ok : Pool Hilo (Nat × Nat) Motivo → PoolLabel Hilo (Nat × Nat) Motivo → Prop)
    {j : Nat} {r : RespuestaDump}
    (hwake : ∀ {a t}, ok a (.wake t .dump))
    (hpost : ∀ {a i}, ok a (.post i .dump))
    (hforget : ∀ {a i}, ok a (.forget i .dump))
    (h : dumpRespuesta j r k = some k') :
    Mueve ok k k' ∧ MismosPids k k' ∧ MismaFase k k' := by
  obtain ⟨d, hd, hfase, ⟨_, rfl⟩ | ⟨_, _, rfl⟩ | ⟨_, rfl⟩⟩ := dumpRespuesta_cases h
  · refine ⟨?_, ⟨rfl, rfl, rfl⟩, ⟨rfl, rfl, rfl⟩⟩
    refine mueve_despertar (fun _ => hwake) hpost ?_ rfl ⟨rfl, rfl, rfl, rfl⟩
    refine (motivos_dumps hd ?_ ?_).1 hfase
    · rfl
    · exact ⟨rfl, rfl, rfl⟩
  · refine ⟨?_, ⟨rfl, rfl, rfl⟩, ⟨rfl, rfl, rfl⟩⟩
    refine mueve_olvidar (i := d.tcb.ident) hforget ?_ rfl
    refine (motivos_dumps hd ?_ ?_).1 hfase
    · exact filterMap_espera_set (by simp)
    · exact ⟨rfl, rfl, rfl⟩
  · refine ⟨?_, ⟨rfl, rfl, rfl⟩, ⟨rfl, rfl, rfl⟩⟩
    refine mueve_olvidar (i := d.tcb.ident) hforget ?_ rfl
    refine (motivos_dumps hd ?_ ?_).1 hfase
    · rfl
    · exact ⟨rfl, rfl, rfl⟩

/-- A dump that goes on with the end of its process. -/
theorem mueve_dumpSeguir
    {j : Nat}
    (hviejos : k.listaTcbsBlockeados = [])
    (h : dumpSeguir cfg j k = some k') :
    Mueve (Permite cfg k (.dumpSeguir j)) k k' ∧ Mueve (fun _ l => ∀ t, l ≠ .create t) k k' ∧
      MismosPids k k' ∧ MismaFase k k' := by
  obtain ⟨d, hd, hcases⟩ := dumpSeguir_cases h
  -- the dump changes its own entry after the round
  have hpaso : ∀ k₁ k₂ : Globals μ, k₁.dumps = k.dumps → d.fase ≠ .enVuelo →
      (k₁.dumps.eraseIdx j).filterMap Dump.espera? = k₂.dumps.filterMap Dump.espera? →
      vista k₂ = { vista k₁ with waits := motivos k₂ } →
      k₂.listTcbJoins = k₁.listTcbJoins ∧ k₂.globalMutexes = k₁.globalMutexes ∧
        k₂.ioRequestQueue = k₁.ioRequestQueue → vista k₂ = vista k₁ := by
    intro k₁ k₂ hdumps hfase hl hvista hresto
    have hd₁ : k₁.dumps[j]? = some d := by
      rw [hdumps]
      exact hd
    have hmotivos := (motivos_dumps hd₁ hl hresto).2 hfase
    rw [hvista, hmotivos]
    rfl
  rcases hcases with ⟨pid, i, k₁, avance, hfase, hround, hcases⟩ |
    ⟨pid, i, k₁, hfase, hround, rfl⟩
  · obtain ⟨hmove, hcrea, salida, m, hresto⟩ :=
      mueve_finalizarHilo (.dumpSeguir j) hviejos hround
    have hdumps : k₁.dumps = k.dumps := by rw [hresto]
    have hno : d.fase ≠ .enVuelo := by simp [hfase]
    have hset : ∀ d' : Dump, d'.fase ≠ .enVuelo →
        vista { k₁ with dumps := k₁.dumps.set j d' } = vista k₁ := fun d' hd' =>
      hpaso k₁ { k₁ with dumps := k₁.dumps.set j d' } hdumps hno (filterMap_espera_set hd') rfl
        ⟨rfl, rfl, rfl⟩
    refine ⟨hmove.trans (Pool.Reaches.of_eq ?_), hcrea.trans (Pool.Reaches.of_eq ?_), ?_, ?_⟩
    · rcases hcases with ⟨_, rfl⟩ | ⟨_, rfl⟩ | ⟨_, rfl⟩
      · exact hset { d with fase := .esperando pid i } (by simp)
      · exact hset { d with fase := .finalizando pid (i + 1) } (by simp)
      · exact hpaso k₁ _ hdumps hno rfl rfl ⟨rfl, rfl, rfl⟩
    · rcases hcases with ⟨_, rfl⟩ | ⟨_, rfl⟩ | ⟨_, rfl⟩
      · exact hset { d with fase := .esperando pid i } (by simp)
      · exact hset { d with fase := .finalizando pid (i + 1) } (by simp)
      · exact hpaso k₁ _ hdumps hno rfl rfl ⟨rfl, rfl, rfl⟩
    · rcases hcases with ⟨_, rfl⟩ | ⟨_, rfl⟩ | ⟨_, rfl⟩ <;> exact hresto.mismosPids
    · rcases hcases with ⟨_, rfl⟩ | ⟨_, rfl⟩ | ⟨_, rfl⟩ <;> exact hresto.mismaFase
  · obtain ⟨hmove, hcrea, salida, n, hresto⟩ := mueve_reanudarHilo cfg
      (.dumpSeguir j) hviejos (Or.inr ⟨j, d, pid, i, rfl, hd, hfase⟩) hround
    have hdumps : k₁.dumps = k.dumps := by rw [hresto]
    have hfin : ({ d with fase := .finalizando pid (i + 1) } : Dump).fase ≠ .enVuelo := by simp
    have heq := hpaso k₁
      { k₁ with dumps := k₁.dumps.set j { d with fase := .finalizando pid (i + 1) } } hdumps
      (by simp [hfase]) (filterMap_espera_set hfin) rfl ⟨rfl, rfl, rfl⟩
    exact ⟨hmove.trans (Pool.Reaches.of_eq heq), hcrea.trans (Pool.Reaches.of_eq heq),
      hresto.mismosPids, hresto.mismaFase⟩

/-- A step of another thread of the kernel leaves the dispatcher alone. -/
theorem Coherente.mueve_aparte
    (hc : Coherente k)
    (h : Mueve (fun _ l => ∀ t, l ≠ .create t) k k')
    (hpids : MismosPids k k')
    (hmisma : MismaFase k k') :
    Coherente k' := by
  obtain ⟨hfase, htcb, hpcb⟩ := hmisma
  refine hc.mueve_sinCrear h hpids ?_ ?_
  · rw [hfase, htcb]
    exact hc.tcbActual
  · rw [hfase, hpcb]
    exact hc.pcbActual

/-- Every step of a coherent kernel makes the moves that `Permite` lists, and keeps
the kernel coherent. -/
theorem paso_mueve
    (hc : Coherente k)
    (h : paso cfg k e = some k') :
    Mueve (Permite cfg k e) k k' ∧ Coherente k' := by
  cases e with
  | despachar =>
      exact mueve_despachar hc h
  | respuesta m =>
      exact mueve_atenderMensaje hc h
  | seguirFin =>
      exact mueve_seguirFin hc h
  | ioFin =>
      have hwake : ∀ {a t}, Permite cfg k .ioFin a (.wake t .io) := by
        rintro a t p u hr
        cases hr
      obtain ⟨hmove, _⟩ := mueve_ioFin (Permite cfg k .ioFin) hwake (Or.inl rfl) h
      obtain ⟨hcrea, hpids, hmisma⟩ := mueve_ioFin (fun _ l => ∀ t, l ≠ .create t)
        (by simp) (by simp) h
      exact ⟨hmove, hc.mueve_aparte hcrea hpids hmisma⟩
  | dumpRespuesta j r =>
      have hwake : ∀ {a t}, Permite cfg k (.dumpRespuesta j r) a (.wake t .dump) := by
        rintro a t p u hr
        cases hr
      have hpost : ∀ {a i}, Permite cfg k (.dumpRespuesta j r) a (.post i .dump) := by
        rintro a i p u hr
        cases hr
      obtain ⟨hmove, _⟩ := mueve_dumpRespuesta (Permite cfg k (.dumpRespuesta j r)) hwake
        hpost (Or.inr rfl) h
      obtain ⟨hcrea, hpids, hmisma⟩ := mueve_dumpRespuesta (fun _ l => ∀ t, l ≠ .create t)
        (by simp) (by simp) (by simp) h
      exact ⟨hmove, hc.mueve_aparte hcrea hpids hmisma⟩
  | dumpSeguir j =>
      obtain ⟨hmove, hcrea, hpids, hmisma⟩ := mueve_dumpSeguir hc.viejos h
      exact ⟨hmove, hc.mueve_aparte hcrea hpids hmisma⟩

end Endings

section Runs

variable {cfg : Config μ} {k k' : Globals μ} {e : Evento}

theorem coherente_inicial (memoria : μ) : Coherente (inicial memoria) := by
  refine ⟨rfl, List.nodup_nil, ?_, ?_, ?_, ?_⟩
  · intro pid hpid
    cases hpid
  · intro h hh
    simp [vista, inicial, Pool.threads, Fase.corriendo] at hh
  · intro p hp
    cases hp
  · intro p hp
    cases hp

/-- The start: the moves that create the first process, from an empty pool. -/
theorem mueve_arranque
    (cfg : Config μ) (memoria : μ) (path : List Char) (size : Nat) :
    Mueve (fun a l => ∃ t, l = .create t ∨ (l = .enter t ∧ ∀ u ∈ a.threads, u.pid ≠ t.pid))
        (inicial memoria) (arranque cfg memoria path size) ∧
      Coherente (arranque cfg memoria path size) ∧
      (arranque cfg memoria path size).fase = .planificar false none := by
  refine mueve_processCreate cfg path size 0 (coherente_inicial memoria) _ ?_ ?_
  · intro a t _
    exact ⟨t, Or.inl rfl⟩
  · intro a t _ hfresh
    exact ⟨t, Or.inr ⟨rfl, hfresh⟩⟩

/-- The pool of the kernel before its first process. -/
theorem vista_inicial (memoria : μ) :
    Pool.Sound Hilo.ident (vista (inicial memoria)) := by
  refine ⟨List.nodup_nil, ?_, ?_⟩
  · intro t ht
    simp [vista, inicial, Pool.threads, Fase.corriendo] at ht
  · intro i
    exact Nat.le_refl 0

theorem solida_paso
    (hk : Coherente k ∧ Pool.Sound Hilo.ident (vista k))
    (h : paso cfg k e = some k') :
    Coherente k' ∧ Pool.Sound Hilo.ident (vista k') := by
  obtain ⟨hmove, hcoh⟩ := paso_mueve hk.1 h
  refine ⟨hcoh, hmove.invariant hk.2 ?_⟩
  intro a b l ha _ hmv
  exact ha.move hmv

/-- The kernel with its first process is coherent, and its pool sound. -/
theorem solida_arranque
    (cfg : Config μ) (memoria : μ) (path : List Char) (size : Nat) :
    Coherente (arranque cfg memoria path size) ∧
      Pool.Sound Hilo.ident (vista (arranque cfg memoria path size)) := by
  obtain ⟨hstart, hcoh, _⟩ := mueve_arranque cfg memoria path size
  refine ⟨hcoh, hstart.invariant (vista_inicial memoria) ?_⟩
  intro a b l ha _ hmove
  exact ha.move hmove

/-- Every reachable kernel is coherent and its pool of threads is sound: no TCB is in
two places, and whoever waits for something is in BLOCKED. -/
theorem Alcanza.solida
    {ok : Globals μ → Evento → Prop} {es : List Evento}
    (h : Alcanza cfg ok es k) :
    Coherente k ∧ Pool.Sound Hilo.ident (vista k) := by
  obtain ⟨memoria, path, size, hrun⟩ := h
  refine hrun.invariant (I := fun a => Coherente a ∧ Pool.Sound Hilo.ident (vista a))
    (solida_arranque cfg memoria path size) ?_
  intro a b e ha _ hstep
  exact solida_paso ha hstep

end Runs

end Kernel
end SinIdeas
