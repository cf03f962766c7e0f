import SinIdeas.Kernel.ProcessEnd

/-!
# The end of a process and the steps of the device

`io_device_thread` takes a thread out of BLOCKED, puts it in READY and posts
`sem_thread_count` in three critical sections, and `main` lets the dispatcher take the
first thread before it puts its PCB in `list_PCB_active`. In this refinement of the kernel
the other threads work in between. A process leaves no trace when it ends with its only
thread, none of its threads is in the hand of the device, and every mutex that it owns is
owned under the TID of a TCB that it counts.
-/

namespace SinIdeas
namespace Kernel

open Lib

variable {μ : Type}

/-- What `io_device_thread` has between its critical sections: nothing, the TCB that it
took out of BLOCKED, or a post of `sem_thread_count` that it owes. -/
inductive Mano where
  | nada
  | retirado (tcb : Tcb)
  | puesto
  deriving DecidableEq

/-- The thread that is in the hand of the device. -/
def Mano.tcb? : Mano → Option Tcb
  | .retirado tcb => some tcb
  | _ => none

/-- The kernel, what the device has, and the PCBs that `main` has not yet put in
`list_PCB_active`. -/
structure Separado (μ : Type) where
  kernel : Globals μ
  mano : Mano
  pendientes : List Nat

/-- A step of the kernel, a critical section of the device, or `main` with the first PCB. -/
inductive Tramo where
  | kernel (e : Evento)
  | retira
  | pone
  | publica
  | registra
  deriving DecidableEq

/-- The second critical section of the device: the thread goes to READY. -/
def ponerEnReady (tcb : Tcb) (k : Globals μ) : Globals μ :=
  { k with listReadyTcb := addTcbToList k.listReadyTcb { tcb with state := .ready } }

/-- The first one, for the request at the head of the queue. -/
def retirarDeBlocked (k : Globals μ) : Option (Globals μ × Mano) :=
  match k.ioRequestQueue with
  | [] => none
  | request :: resto =>
      let k := { k with ioRequestQueue := resto }
      match removeTcbFromList k.listBlockedTcb request.pid request.tid with
      | (none, _) => some (k, .nada)
      | (some tcb, blocked) => some ({ k with listBlockedTcb := blocked }, .retirado tcb)

/-- A step, with an IO completion in its three parts. -/
def pasoSeparado (cfg : Config μ) (s : Separado μ) : Tramo → Option (Separado μ)
  | .kernel .ioFin => none
  | .kernel e => (paso cfg s.kernel e).map (fun k => { s with kernel := k })
  | .retira =>
      match s.mano with
      | .nada => (retirarDeBlocked s.kernel).map (fun r => { s with kernel := r.1, mano := r.2 })
      | _ => none
  | .pone =>
      match s.mano with
      | .retirado tcb => some { s with kernel := ponerEnReady tcb s.kernel, mano := .puesto }
      | _ => none
  | .publica =>
      match s.mano with
      | .puesto => some { s with kernel := postThreadCount s.kernel, mano := .nada }
      | _ => none
  | .registra =>
      if s.pendientes = [] then
        none
      else
        some { s with
          kernel := { s.kernel with listPcbActive := s.kernel.listPcbActive ++ s.pendientes }
          pendientes := [] }

/-- The first thread is in READY, and the dispatcher runs. -/
def Separado.inicio (cfg : Config μ) (memoria : μ) (path : List Char) (size : Nat) :
    Separado μ where
  kernel := { arranque cfg memoria path size with listPcbActive := [] }
  mano := .nada
  pendientes := (arranque cfg memoria path size).listPcbActive

/-- A run of the separate steps. -/
abbrev CorreSeparado (cfg : Config μ) (ok : Separado μ → Tramo → Prop) (s : Separado μ)
    (as : List Tramo) (t : Separado μ) : Prop :=
  Run (fun a e b => pasoSeparado cfg a e = some b) ok s as t

/-- A process that starts to end has no thread in READY, in BLOCKED or in the hand of the
device, and its mutexes are owned under the TIDs of the TCBs that it counts; and the
dispatcher takes no thread before `main` has put its PCB in `list_PCB_active`. -/
def FinLimpioSeparado (s : Separado μ) : Tramo → Prop
  | .kernel e => FinLimpio s.kernel e ∧
      (∀ pid ∈ procesoQueTermina s.kernel e, ∀ t ∈ s.mano.tcb?, t.parentPid ≠ pid) ∧
      (e = .despachar → s.pendientes = [])
  | _ => True

instance decidableFinLimpioSeparado (s : Separado μ) : ∀ a, Decidable (FinLimpioSeparado s a)
  | .kernel e => inferInstanceAs (Decidable (FinLimpio s.kernel e ∧
      (∀ pid ∈ procesoQueTermina s.kernel e, ∀ t ∈ s.mano.tcb?, t.parentPid ≠ pid) ∧
      (e = .despachar → s.pendientes = [])))
  | .retira => inferInstanceAs (Decidable True)
  | .pone => inferInstanceAs (Decidable True)
  | .publica => inferInstanceAs (Decidable True)
  | .registra => inferInstanceAs (Decidable True)

section Refinement

variable {cfg : Config μ} {k k' : Globals μ}

theorem pasoSeparado_kernel
    {s : Separado μ} {e : Evento}
    (hio : e ≠ .ioFin) :
    pasoSeparado cfg s (.kernel e) =
      (paso cfg s.kernel e).map (fun k => { s with kernel := k }) := by
  cases e with
  | ioFin => exact absurd rfl hio
  | _ => rfl

theorem pasoSeparado_kernel_cases
    {s s' : Separado μ} {e : Evento}
    (h : pasoSeparado cfg s (.kernel e) = some s') :
    ∃ k, paso cfg s.kernel e = some k ∧ s' = { s with kernel := k } := by
  by_cases hio : e = .ioFin
  · subst hio
    cases h
  · rw [pasoSeparado_kernel hio] at h
    obtain ⟨k, hk, rfl⟩ := Option.map_eq_some_iff.mp h
    exact ⟨k, hk, rfl⟩

/-- An IO completion is the steps of the device with nothing in between. -/
theorem ioFin_separado
    (cfg : Config μ) (pendientes : List Nat)
    (h : ioFin k = some k') :
    ∃ as, (∀ x ∈ as, ∀ e, x ≠ .kernel e) ∧
      execute (pasoSeparado cfg) { kernel := k, mano := .nada, pendientes } as =
        some { kernel := k', mano := .nada, pendientes } := by
  unfold ioFin at h
  split at h
  · cases h
  · rename_i request resto hqueue
    dsimp only at h
    split at h
    · rename_i hremove
      cases h
      refine ⟨[.retira], by simp, ?_⟩
      simp [execute, pasoSeparado, retirarDeBlocked, hqueue, hremove]
    · rename_i tcb blocked hremove
      cases h
      refine ⟨[.retira, .pone, .publica], by simp, ?_⟩
      simp [execute, pasoSeparado, retirarDeBlocked, ponerEnReady, postThreadCount, hqueue,
        hremove]

/-- Every run of the kernel is one of its separate steps. -/
theorem correSeparado_of_run
    {memoria : μ} {path : List Char} {size : Nat} {es : List Evento}
    (hrun : Run (fun a e b => paso cfg a e = some b) anyLabel (arranque cfg memoria path size)
      es k) :
    ∃ as, CorreSeparado cfg anyLabel (Separado.inicio cfg memoria path size) as
      { kernel := k, mano := .nada, pendientes := [] } := by
  induction hrun with
  | nil =>
      by_cases hnone : (arranque cfg memoria path size).listPcbActive = []
      · refine ⟨[], ?_⟩
        have hstart : Separado.inicio cfg memoria path size =
            { kernel := arranque cfg memoria path size, mano := .nada, pendientes := [] } := by
          rw [Separado.inicio, hnone]
          congr 1
          rw [← hnone]
        rw [hstart]
        exact Run.nil
      · refine ⟨[.registra], Run.snoc Run.nil trivial ?_⟩
        simp [pasoSeparado, Separado.inicio, hnone]
  | @snoc es a b e _ _ hstep ih =>
      obtain ⟨as, hrun⟩ := ih
      have hkernel : e ≠ .ioFin → ∃ bs, CorreSeparado cfg anyLabel
          (Separado.inicio cfg memoria path size) bs
            { kernel := b, mano := .nada, pendientes := [] } := by
        intro hio
        refine ⟨as ++ [.kernel e], Run.snoc hrun trivial ?_⟩
        rw [pasoSeparado_kernel hio]
        exact Option.map_eq_some_iff.mpr ⟨b, hstep, rfl⟩
      cases e with
      | ioFin =>
          obtain ⟨bs, -, hexec⟩ := ioFin_separado cfg [] hstep
          exact ⟨as ++ bs, hrun.append
            (run_of_execute (pasoSeparado cfg) id (guarded_anyLabel _ _) hexec)⟩
      | despachar => exact hkernel (by simp)
      | respuesta m => exact hkernel (by simp)
      | seguirFin => exact hkernel (by simp)
      | dumpRespuesta j r => exact hkernel (by simp)
      | dumpSeguir j => exact hkernel (by simp)

end Refinement

/-- What is known of the thread in the hand of the device. -/
structure EnMano (k : Globals μ) (t : Tcb) : Prop where
  fuera : t.hilo ∉ (vista k).threads ++ (vista k).fresh
  emitida : t.hilo ∈ (vista k).issued
  pid : t.parentPid < k.globalPid ∧ t.parentPid ∉ k.listPcbNew
  activo : t.parentPid ∈ k.listPcbActive
  vive : ∀ causa p i pid, k.fase = .finalizando causa p i ∨ k.fase = .esperando causa p i →
    k.currentPcbExecuting = some pid → t.parentPid ≠ pid

section Hand

variable {cfg : Config μ} {k k' : Globals μ} {e : Evento} {t : Tcb} {pid : Nat}

theorem vista_ponerEnReady :
    vista (ponerEnReady t k) = { vista k with ready := (vista k).ready ++ [t.hilo] } := by
  simp [vista, ponerEnReady, addTcbToList, motivos]

theorem threads_ponerEnReady :
    (vista (ponerEnReady t k)).threads.Perm (t.hilo :: (vista k).threads) := by
  rw [vista_ponerEnReady]
  simp only [Pool.threads, List.append_assoc, List.singleton_append]
  rw [← List.append_assoc, ← List.append_assoc]
  exact List.perm_middle

/-- The invariant of the end of processes, for a thread on its way to READY. -/
theorem cerrados_ponerEnReady_iff :
    ProcesosCerrados (ponerEnReady t k) ↔ ProcesosCerrados k ∧ EnMano k t := by
  have hthreads : ∀ h, h ∈ (vista (ponerEnReady t k)).threads ↔
      h = t.hilo ∨ h ∈ (vista k).threads := by
    intro h
    rw [threads_ponerEnReady.mem_iff, List.mem_cons]
  have hplaces : ((vista (ponerEnReady t k)).threads ++ (vista (ponerEnReady t k)).fresh).Perm
      (t.hilo :: ((vista k).threads ++ (vista k).fresh)) :=
    threads_ponerEnReady.append_right _
  constructor
  · intro h
    have hnodup := hplaces.nodup_iff.mp h.solida.nodup
    rw [List.nodup_cons] at hnodup
    have hown := hplaces.mem_iff.mpr List.mem_cons_self
    have hin : ∀ {h}, h ∈ (vista k).threads ++ (vista k).fresh →
        h ∈ (vista (ponerEnReady t k)).threads ++ (vista (ponerEnReady t k)).fresh :=
      fun hh => hplaces.mem_iff.mpr (List.mem_cons_of_mem _ hh)
    refine ⟨⟨?_, ⟨hnodup.2, fun u hu => h.solida.known u (hin hu), h.solida.waits_le⟩,
      ⟨h.colas.nombres, h.colas.propias⟩, h.joins, ?_, h.dumps, ?_⟩, ?_⟩
    · exact ⟨h.coherente.viejos, h.coherente.nuevos, h.coherente.emitidos,
        fun u hu => h.coherente.hilos u (hin hu), h.coherente.tcbActual, h.coherente.pcbActual⟩
    · intro u hu
      exact h.activos u ((hthreads u).mpr (Or.inr hu))
    · intro causa p i pid hfase hpid
      obtain ⟨hsin, hde⟩ := h.fin causa p i pid hfase hpid
      exact ⟨⟨fun u hu => hsin.hilos u ((hthreads u).mpr (Or.inr hu)), hsin.emitido,
        hsin.noNuevo⟩, hde.of_mutexes rfl⟩
    · have hmem := (hthreads t.hilo).mpr (Or.inl rfl)
      exact ⟨hnodup.1, h.solida.known _ hown, h.coherente.hilos _ hown, h.activos _ hmem,
        fun causa p i pid hfase hpid => (h.fin causa p i pid hfase hpid).1.hilos _ hmem⟩
  · rintro ⟨h, hmano⟩
    have hcases : ∀ {P : Hilo → Prop}, P t.hilo →
        (∀ u ∈ (vista k).threads ++ (vista k).fresh, P u) →
        ∀ u ∈ (vista (ponerEnReady t k)).threads ++ (vista (ponerEnReady t k)).fresh, P u := by
      intro P ht hold u hu
      rcases List.mem_cons.mp (hplaces.mem_iff.mp hu) with rfl | hu
      · exact ht
      · exact hold u hu
    refine ⟨?_, ⟨?_, hcases hmano.emitida h.solida.known, h.solida.waits_le⟩,
      ⟨h.colas.nombres, h.colas.propias⟩, h.joins, ?_, h.dumps, ?_⟩
    · exact ⟨h.coherente.viejos, h.coherente.nuevos, h.coherente.emitidos,
        hcases hmano.pid h.coherente.hilos, h.coherente.tcbActual, h.coherente.pcbActual⟩
    · exact hplaces.nodup_iff.mpr (List.nodup_cons.mpr ⟨hmano.fuera, h.solida.nodup⟩)
    · intro u hu
      rcases (hthreads u).mp hu with rfl | hu
      · exact hmano.activo
      · exact h.activos u hu
    · intro causa p i pid hfase hpid
      obtain ⟨hsin, hde⟩ := h.fin causa p i pid hfase hpid
      refine ⟨⟨?_, hsin.emitido, hsin.noNuevo⟩, hde.of_mutexes rfl⟩
      intro u hu
      rcases (hthreads u).mp hu with rfl | hu
      · exact hmano.vive causa p i pid hfase hpid
      · exact hsin.hilos u hu

theorem sinHilos_ponerEnReady_iff :
    SinHilos (ponerEnReady t k) pid ↔ SinHilos k pid ∧ t.parentPid ≠ pid := by
  have hthreads : ∀ h, h ∈ (vista (ponerEnReady t k)).threads ↔
      h = t.hilo ∨ h ∈ (vista k).threads := by
    intro h
    rw [threads_ponerEnReady.mem_iff, List.mem_cons]
  constructor
  · rintro ⟨hhilos, hemitido, hnuevo⟩
    exact ⟨⟨fun u hu => hhilos u ((hthreads u).mpr (Or.inr hu)), hemitido, hnuevo⟩,
      hhilos t.hilo ((hthreads t.hilo).mpr (Or.inl rfl))⟩
  · rintro ⟨⟨hhilos, hemitido, hnuevo⟩, hne⟩
    refine ⟨?_, hemitido, hnuevo⟩
    intro u hu
    rcases (hthreads u).mp hu with rfl | hu
    · exact hne
    · exact hhilos u hu

/-- The long-term scheduler takes no process out of `list_PCB_active`. -/
theorem mem_activos_tryCreateRounds
    (cfg : Config μ) (n : Nat)
    (h : pid ∈ k.listPcbActive) :
    pid ∈ (tryCreateRounds cfg n k).listPcbActive := by
  refine tryCreateRounds_invariant cfg (I := fun a => pid ∈ a.listPcbActive) n h
    (fun ha => ha) ?_
  intro a q resto peticion peticiones ha _ _
  simp only [procesoCreado]
  split_ifs
  · exact List.mem_append_left _ (by rw [createThread_resto]; exact ha)
  · rw [createThread_resto]
    exact ha

/-- Only the process that ends leaves `list_PCB_active`. -/
theorem ProcesosCerrados.mem_activos_paso
    {q : Nat}
    (hk : ProcesosCerrados k)
    (hq : q ∈ k.listPcbActive)
    (hvive : ∀ causa p i pid, k.fase = .finalizando causa p i ∨ k.fase = .esperando causa p i →
      k.currentPcbExecuting = some pid → q ≠ pid)
    (h : Kernel.paso cfg k e = some k') :
    q ∈ k'.listPcbActive := by
  cases efectoProcesos_paso hk.coherente.viejos h with
  | igual _ hsame =>
      rw [hsame.2.2]
      exact hq
  | crea p path size priority _ _ hk' =>
      rw [hk']
      exact mem_activos_tryCreateRounds cfg _ hq
  | fin causa p i pid _ hfase hpid _ hk' =>
      have hne : q ≠ pid := hvive causa p i pid (Or.inl hfase) hpid
      obtain ⟨pcbs, salida, k₁, hk₁, _, heq⟩ := terminarProceso_cases cfg causa pid k
      have hmem : q ∈ k₁.listPcbActive := by
        rw [hk₁]
        refine (List.mem_eraseP_of_neg ?_).mpr hq
        simpa using hne
      rw [hk', heq]
      cases causa with
      | processExit =>
          exact mem_activos_tryCreateRounds cfg _ hmem
      | segmentationFault =>
          exact hmem
  | finDump j d pid i _ hd hfase _ _ =>
      have hvuelo := hk.dumps d (List.mem_of_getElem? hd)
      rw [hfase] at hvuelo
      cases hvuelo

/-- The process that is ending after an event was ending, or starts with it. -/
theorem fin_de_paso
    (hviejos : k.listaTcbsBlockeados = [])
    (h : paso cfg k e = some k') :
    ∀ causa p i pid, k'.fase = .finalizando causa p i ∨ k'.fase = .esperando causa p i →
      k'.currentPcbExecuting = some pid →
      (k.currentPcbExecuting = some pid ∧
        ∃ causa p i, k.fase = .finalizando causa p i ∨ k.fase = .esperando causa p i) ∨
      procesoQueTermina k e = some pid := by
  have hmisma : MismaFase k k' → ∀ causa p i pid,
      k'.fase = .finalizando causa p i ∨ k'.fase = .esperando causa p i →
      k'.currentPcbExecuting = some pid →
      (k.currentPcbExecuting = some pid ∧
        ∃ causa p i, k.fase = .finalizando causa p i ∨ k.fase = .esperando causa p i) ∨
      procesoQueTermina k e = some pid := by
    rintro ⟨hfase, _, hpcb⟩ causa p i pid hend hpid
    rw [hfase] at hend
    rw [hpcb] at hpid
    exact Or.inl ⟨hpid, causa, p, i, hend⟩
  cases e with
  | despachar =>
      obtain ⟨seguir, previo, proximo, k₁, _, _, rfl, _⟩ := despachar_cases h
      rintro causa p i pid (hend | hend) <;> cases hend
  | respuesta m =>
      obtain ⟨proximo, pcb, hrun, _, hsyscall⟩ := atenderMensaje_cases h
      obtain ⟨hfase, _⟩ := atenderSyscall_fase hsyscall
      rintro causa p i pid hend hpid
      rcases hfase with ⟨seguir, hfase⟩ | ⟨causa', rfl, hm⟩
      · rw [hfase] at hend
        rcases hend with hend | hend <;> cases hend
      · have hpid : k.currentPcbExecuting = some pid := hpid
        refine Or.inr ?_
        rcases hm with ⟨x, rfl⟩ | ⟨x, y, rfl⟩
        · simpa [procesoQueTermina, hrun, Fase.ejecutando?] using hpid
        · simpa [procesoQueTermina, hrun, Fase.ejecutando?] using hpid
  | seguirFin =>
      intro causa p i pid hend hpid
      refine Or.inl ?_
      rcases seguirFin_cases h with
        ⟨causa', proximo, i', pid', k₁, avance, hfase, hpid', hround, hcases⟩ |
        ⟨causa', proximo, i', pid', k₁, hfase, hpid', hround, rfl⟩
      · obtain ⟨_, _, salida, m, hresto⟩ := mueve_finalizarHilo .seguirFin hviejos hround
        have hpcb : k₁.currentPcbExecuting = k.currentPcbExecuting := by rw [hresto]
        rcases hcases with ⟨_, rfl⟩ | ⟨_, rfl⟩ | ⟨_, rfl⟩
        · exact ⟨hpcb.symm.trans hpid, causa', proximo, i', Or.inl hfase⟩
        · exact ⟨hpcb.symm.trans hpid, causa', proximo, i', Or.inl hfase⟩
        · rcases hend with hend | hend <;> cases hend
      · obtain ⟨n, tcb, _, _, hrelease⟩ := reanudarHilo_cases hviejos hround
        have hpcb : k₁.currentPcbExecuting = k.currentPcbExecuting := by
          rw [releaseAllMutexes_despierta hrelease]
        exact ⟨hpcb.symm.trans hpid, causa', proximo, i', Or.inr hfase⟩
  | ioFin =>
      exact hmisma (mueve_ioFin (fun _ _ => True) trivial trivial h).2.2
  | dumpRespuesta j r =>
      exact hmisma (mueve_dumpRespuesta (fun _ _ => True) trivial trivial trivial h).2.2
  | dumpSeguir j =>
      exact hmisma (mueve_dumpSeguir hviejos h).2.2.2

/-- A step of the kernel, with a thread in the hand of the device. -/
theorem EnMano.paso
    (hk : ProcesosCerrados k)
    (hmano : EnMano k t)
    (hok : ∀ pid ∈ procesoQueTermina k e, t.parentPid ≠ pid)
    (h : Kernel.paso cfg k e = some k') :
    EnMano k' t := by
  have hc := hk.coherente
  obtain ⟨hglobal, hnew⟩ := nuevos_paso hc.viejos h
  have hplace := (paso_mueve hc h).1.invariant
    (I := fun a => t.hilo ∈ a.issued ∧ t.hilo ∉ a.threads ++ a.fresh)
    ⟨hmano.emitida, hmano.fuera⟩ (fun ha _ hmove => hmove.stays_out ha.1 ha.2)
  refine ⟨hplace.2, hplace.1, ⟨hmano.pid.1.trans_le hglobal, ?_⟩,
    hk.mem_activos_paso hmano.activo hmano.vive h, ?_⟩
  · intro hmem
    rcases hnew _ hmem with hmem | hle
    · exact hmano.pid.2 hmem
    · exact absurd hmano.pid.1 (not_lt.mpr hle)
  · intro causa p i pid hfase hpid
    rcases fin_de_paso hc.viejos h causa p i pid hfase hpid with
      ⟨hpid, causa', p', i', hfase⟩ | hstart
    · exact hmano.vive causa' p' i' pid hfase hpid
    · exact hok pid hstart

/-- A step of the kernel while the device has what it has. -/
theorem ProcesosCerrados.paso_mano
    (h : ProcesosCerrados (ponerEnReady t k))
    (hlimpio : FinLimpio k e)
    (hok : ∀ pid ∈ procesoQueTermina k e, t.parentPid ≠ pid)
    (hstep : Kernel.paso cfg k e = some k') :
    ProcesosCerrados (ponerEnReady t k') := by
  obtain ⟨hk, hmano⟩ := cerrados_ponerEnReady_iff.mp h
  exact cerrados_ponerEnReady_iff.mpr ⟨hk.paso hlimpio hstep, hmano.paso hk hok hstep⟩

/-- What a critical section of the device does. The first is that of the completion, with
the thread in the hand instead of READY. -/
inductive CasoDispositivo (s : Separado μ) : Separado μ → Prop
  | descarta (requests : List IoRequest) :
      s.mano = .nada →
      ioFin s.kernel = some { s.kernel with ioRequestQueue := requests } →
      CasoDispositivo s { s with kernel := { s.kernel with ioRequestQueue := requests } }
  | retira (tcb : Tcb) (k : Globals μ) (blocked : List Tcb) (requests : List IoRequest) :
      s.mano = .nada →
      k = { s.kernel with listBlockedTcb := blocked, ioRequestQueue := requests } →
      ioFin s.kernel = some (postThreadCount (ponerEnReady tcb k)) →
      CasoDispositivo s { s with kernel := k, mano := .retirado tcb }
  | pone (tcb : Tcb) :
      s.mano = .retirado tcb →
      CasoDispositivo s { s with kernel := ponerEnReady tcb s.kernel, mano := .puesto }
  | publica :
      s.mano = .puesto →
      CasoDispositivo s { s with kernel := postThreadCount s.kernel, mano := .nada }

theorem casoDispositivo
    {s s' : Separado μ} {x : Tramo}
    (hx : ∀ e, x ≠ .kernel e)
    (hpend : s.pendientes = [])
    (h : pasoSeparado cfg s x = some s') :
    CasoDispositivo s s' := by
  obtain ⟨k, mano, pendientes⟩ := s
  cases x with
  | kernel e => exact absurd rfl (hx e)
  | retira =>
      cases mano with
      | nada =>
          obtain ⟨⟨k', mano'⟩, hretira, rfl⟩ := Option.map_eq_some_iff.mp h
          unfold retirarDeBlocked at hretira
          split at hretira
          · cases hretira
          · rename_i request resto hqueue
            have hqueue : k.ioRequestQueue = request :: resto := hqueue
            dsimp only at hretira
            split at hretira
            · rename_i hremove
              cases hretira
              exact .descarta resto rfl (by simp [ioFin, hqueue, hremove])
            · rename_i tcb blocked hremove
              cases hretira
              exact .retira tcb _ blocked resto rfl rfl
                (by simp [ioFin, hqueue, hremove, ponerEnReady])
      | retirado tcb => cases h
      | puesto => cases h
  | pone =>
      cases mano with
      | retirado tcb =>
          cases h
          exact .pone tcb rfl
      | nada => cases h
      | puesto => cases h
  | publica =>
      cases mano with
      | puesto =>
          cases h
          exact .publica rfl
      | nada => cases h
      | retirado tcb => cases h
  | registra =>
      simp [pasoSeparado, show pendientes = [] from hpend] at h

/-- The invariant does not speak of the semaphore. -/
theorem ProcesosCerrados.conSemaforo
    (h : ProcesosCerrados k) (n : Nat) :
    ProcesosCerrados { k with semThreadCount := n } := by
  refine ⟨⟨h.coherente.viejos, h.coherente.nuevos, h.coherente.emitidos, h.coherente.hilos,
      h.coherente.tcbActual, h.coherente.pcbActual⟩,
    ⟨h.solida.nodup, h.solida.known, h.solida.waits_le⟩,
    ⟨h.colas.nombres, h.colas.propias⟩, h.joins, h.activos, h.dumps, ?_⟩
  intro causa p i pid hfase hpid
  obtain ⟨⟨hhilos, hemitido, hnuevo⟩, hde⟩ := h.fin causa p i pid hfase hpid
  exact ⟨⟨hhilos, hemitido, hnuevo⟩, hde.of_mutexes rfl⟩

theorem cerrados_postThreadCount_iff :
    ProcesosCerrados (postThreadCount k) ↔ ProcesosCerrados k :=
  ⟨fun h => h.conSemaforo k.semThreadCount, fun h => h.conSemaforo _⟩

end Hand

/-- The kernel with the thread that the device has in READY. -/
def Separado.completo (s : Separado μ) : Globals μ :=
  match s.mano with
  | .retirado tcb => ponerEnReady tcb s.kernel
  | _ => s.kernel

/-- What holds all along: nothing but `main` works before the first PCB is active, and then
the processes that end leave no trace, the hand of the device included. -/
inductive Cerrado (cfg : Config μ) (s : Separado μ) : Prop
  | arrancando (memoria : μ) (path : List Char) (size : Nat) :
      s = Separado.inicio cfg memoria path size →
      s.pendientes ≠ [] →
      Cerrado cfg s
  | enMarcha :
      s.pendientes = [] →
      ProcesosCerrados s.completo →
      Cerrado cfg s

section Separate

variable {cfg : Config μ} {s s' : Separado μ} {a b c : Separado μ} {x : Tramo} {pid : Nat}
variable {as bs : List Tramo}

/-- A step is one of the kernel, of the device or of `main`. -/
theorem tramo_cases
    (hpend : s.pendientes = [])
    (h : pasoSeparado cfg s x = some s') :
    (∃ e k, x = .kernel e ∧ paso cfg s.kernel e = some k ∧ s' = { s with kernel := k }) ∨
      CasoDispositivo s s' := by
  by_cases hx : ∀ e, x ≠ .kernel e
  · exact Or.inr (casoDispositivo hx hpend h)
  · simp only [ne_eq, not_forall, not_not] at hx
    obtain ⟨e, rfl⟩ := hx
    obtain ⟨k, hk, rfl⟩ := pasoSeparado_kernel_cases h
    exact Or.inl ⟨e, k, rfl, hk, rfl⟩

/-- Once the first PCB is active, the separate steps keep the invariant. -/
theorem cerrados_pasoSeparado
    (hs : ProcesosCerrados s.completo)
    (hpend : s.pendientes = [])
    (hok : FinLimpioSeparado s x)
    (h : pasoSeparado cfg s x = some s') :
    s'.pendientes = [] ∧ ProcesosCerrados s'.completo := by
  rcases tramo_cases hpend h with ⟨e, k', rfl, hk', rfl⟩ | hcaso
  · obtain ⟨k, mano, pendientes⟩ := s
    obtain ⟨hlimpio, hmano, _⟩ := hok
    refine ⟨hpend, ?_⟩
    cases mano with
    | retirado tcb =>
        exact ProcesosCerrados.paso_mano hs hlimpio (fun q hq => hmano q hq tcb rfl) hk'
    | nada =>
        exact ProcesosCerrados.paso hs hlimpio hk'
    | puesto =>
        exact ProcesosCerrados.paso hs hlimpio hk'
  · obtain ⟨k, mano, pendientes⟩ := s
    have hfin : ∀ {k₁}, ProcesosCerrados k → ioFin k = some k₁ → ProcesosCerrados k₁ := by
      intro k₁ hk hio
      have hpaso : paso cfg k .ioFin = some k₁ := hio
      exact hk.paso (fun _ hno => by cases hno) hpaso
    cases hcaso with
    | descarta requests hmano hio =>
        obtain rfl : mano = .nada := hmano
        exact ⟨hpend, hfin hs hio⟩
    | retira tcb k₁ blocked requests hmano _ hio =>
        obtain rfl : mano = .nada := hmano
        exact ⟨hpend, cerrados_postThreadCount_iff.mp (hfin hs hio)⟩
    | pone tcb hmano =>
        obtain rfl : mano = .retirado tcb := hmano
        exact ⟨hpend, hs⟩
    | publica hmano =>
        obtain rfl : mano = .puesto := hmano
        exact ⟨hpend, cerrados_postThreadCount_iff.mpr hs⟩

/-- Before the first PCB is active, only `main` can take a step. -/
theorem Cerrado.arranca
    {memoria : μ} {path : List Char} {size : Nat}
    (hpend : (Separado.inicio cfg memoria path size).pendientes ≠ [])
    (hok : FinLimpioSeparado (Separado.inicio cfg memoria path size) x)
    (h : pasoSeparado cfg (Separado.inicio cfg memoria path size) x = some s') :
    Cerrado cfg s' := by
  have hcerrados : ProcesosCerrados (arranque cfg memoria path size) :=
    procesosCerrados_of_alcanza ⟨memoria, path, size, Run.nil⟩
  have hstart : (arranque cfg memoria path size).fase = .planificar false none ∧
      (arranque cfg memoria path size).dumps = [] ∧
      (arranque cfg memoria path size).ioRequestQueue = [] := by
    rw [arranque, processCreate_admite]
    exact ⟨rfl, rfl, rfl⟩
  obtain ⟨hfase, hdumps, hqueue⟩ := hstart
  cases x with
  | kernel e =>
      cases e with
      | despachar =>
          exact absurd (hok.2.2 rfl) hpend
      | respuesta m =>
          simp [pasoSeparado, Separado.inicio, paso, atenderMensaje, hfase] at h
      | seguirFin =>
          simp [pasoSeparado, Separado.inicio, paso, seguirFin, hfase] at h
      | ioFin =>
          cases h
      | dumpRespuesta j r =>
          simp [pasoSeparado, Separado.inicio, paso, dumpRespuesta, hdumps] at h
      | dumpSeguir j =>
          simp [pasoSeparado, Separado.inicio, paso, dumpSeguir, hdumps] at h
  | retira =>
      simp [pasoSeparado, Separado.inicio, retirarDeBlocked, hqueue] at h
  | pone => cases h
  | publica => cases h
  | registra =>
      simp only [pasoSeparado, if_neg hpend, Option.some.injEq] at h
      subst h
      exact .enMarcha rfl hcerrados

theorem Cerrado.paso
    (hs : Cerrado cfg s)
    (hok : FinLimpioSeparado s x)
    (h : pasoSeparado cfg s x = some s') :
    Cerrado cfg s' := by
  cases hs with
  | arrancando memoria path size hstart hpend =>
      subst hstart
      exact Cerrado.arranca hpend hok h
  | enMarcha hpend hcerrados =>
      obtain ⟨hpend', hcerrados'⟩ := cerrados_pasoSeparado hcerrados hpend hok h
      exact .enMarcha hpend' hcerrados'

theorem cerrado_inicio
    (cfg : Config μ) (memoria : μ) (path : List Char) (size : Nat) :
    Cerrado cfg (Separado.inicio cfg memoria path size) := by
  by_cases hnone : (arranque cfg memoria path size).listPcbActive = []
  · refine .enMarcha hnone ?_
    have hcerrados : ProcesosCerrados (arranque cfg memoria path size) :=
      procesosCerrados_of_alcanza ⟨memoria, path, size, Run.nil⟩
    have hsame : (Separado.inicio cfg memoria path size).completo =
        arranque cfg memoria path size := by
      rw [Separado.completo, Separado.inicio, ← hnone]
    rw [hsame]
    exact hcerrados
  · exact .arrancando memoria path size rfl hnone

/-- The end of the handler, in the separate steps. -/
def TerminaSeparado (a : Separado μ) (x : Tramo) (b : Separado μ) (pid : Nat) : Prop :=
  ∃ e, x = .kernel e ∧ TerminaProceso a.kernel e b.kernel pid

/-- Nothing that is left mentions the process: no thread in scheduling or in the hand of
the device, no mutex. -/
def SinHuella (s : Separado μ) (pid : Nat) : Prop :=
  SinHilos s.completo pid ∧ MutexesDe s.kernel pid []

theorem ProcesosCerrados.of_completo
    (h : ProcesosCerrados s.completo) :
    ProcesosCerrados s.kernel := by
  obtain ⟨k, mano, pendientes⟩ := s
  cases mano with
  | retirado tcb =>
      exact (cerrados_ponerEnReady_iff.mp h).1
  | nada =>
      exact h
  | puesto =>
      exact h

theorem sinHilos_completo_iff :
    SinHilos s.completo pid ↔ SinHilos s.kernel pid ∧ ∀ t ∈ s.mano.tcb?, t.parentPid ≠ pid := by
  obtain ⟨k, mano, pendientes⟩ := s
  cases mano with
  | retirado tcb =>
      refine sinHilos_ponerEnReady_iff.trans (and_congr_right' ?_)
      simp [Mano.tcb?]
  | nada =>
      simp [Separado.completo, Mano.tcb?]
  | puesto =>
      simp [Separado.completo, Mano.tcb?]

/-- A process without a trace gets none. -/
theorem SinHuella.paso
    (h : SinHuella s pid)
    (hs : ProcesosCerrados s.completo)
    (hpend : s.pendientes = [])
    (hstep : pasoSeparado cfg s x = some s') :
    SinHuella s' pid := by
  obtain ⟨hsin, hde⟩ := h
  have hk := hs.of_completo
  obtain ⟨hsin₀, hmano₀⟩ := sinHilos_completo_iff.mp hsin
  rcases tramo_cases hpend hstep with ⟨e, k', rfl, hk', rfl⟩ | hcaso
  · refine ⟨sinHilos_completo_iff.mpr ⟨hsin₀.paso hk.coherente hk', hmano₀⟩, ?_⟩
    refine hde.paso hk.coherente.viejos ?_ ?_ hk'
    · intro p hfase
      refine hsin₀.hilos p.hilo ?_
      simp [vista, Pool.threads, hfase, Fase.corriendo]
    · intro p q hfase hq
      exact hk.coherente.pcbActual p (by rw [hfase]; rfl) q hq
  · have hfin : ∀ {k₁}, ioFin s.kernel = some k₁ → SinHilos k₁ pid := by
      intro k₁ hio
      have hpaso : Kernel.paso cfg s.kernel .ioFin = some k₁ := hio
      exact hsin₀.paso hk.coherente hpaso
    cases hcaso with
    | descarta requests _ hio =>
        exact ⟨sinHilos_completo_iff.mpr ⟨hfin hio, hmano₀⟩, hde.of_mutexes rfl⟩
    | retira tcb k blocked requests _ hk₁ hio =>
        have hready := hfin hio
        exact ⟨⟨hready.hilos, hready.emitido, hready.noNuevo⟩, hde.of_mutexes (by rw [hk₁])⟩
    | pone tcb hmano =>
        have hne : tcb.parentPid ≠ pid := hmano₀ tcb (by rw [hmano]; rfl)
        exact ⟨sinHilos_ponerEnReady_iff.mpr ⟨hsin₀, hne⟩, hde.of_mutexes rfl⟩
    | publica _ =>
        exact ⟨⟨hsin₀.hilos, hsin₀.emitido, hsin₀.noNuevo⟩, hde.of_mutexes rfl⟩

theorem cerrado_of_corre
    {memoria : μ} {path : List Char} {size : Nat}
    (h : CorreSeparado cfg FinLimpioSeparado (Separado.inicio cfg memoria path size) as a) :
    Cerrado cfg a :=
  h.invariant (I := Cerrado cfg) (cerrado_inicio cfg memoria path size)
    (fun hs hok hstep => hs.paso hok hstep)

/-- The handler that ends a process runs when the first PCB is active, and leaves no trace
of the process. -/
theorem sinRastro_of_terminaSeparado
    (hs : Cerrado cfg a)
    (hstep : pasoSeparado cfg a x = some b)
    (hend : TerminaSeparado a x b pid) :
    a.pendientes = [] ∧ ProcesosCerrados a.completo ∧ SinHuella b pid := by
  obtain ⟨e, rfl, hend⟩ := hend
  cases hs with
  | arrancando memoria path size hstart _ =>
      -- the dispatcher is at its top, and no dump is in flight
      have hfase : a.kernel.fase = .planificar false none ∧ a.kernel.dumps = [] := by
        rw [hstart, Separado.inicio, arranque, processCreate_admite]
        exact ⟨rfl, rfl⟩
      rcases hend with ⟨_, _, ⟨causa, p, i, hno⟩, _⟩ | ⟨j, d, i, _, hno, _⟩
      · rw [hfase.1] at hno
        cases hno
      · simp [hfase.2] at hno
  | enMarcha hpend hcerrados =>
      have hk := hcerrados.of_completo
      obtain ⟨k', hk', rfl⟩ := pasoSeparado_kernel_cases hstep
      obtain ⟨hsin, hde⟩ := sinRastro_of_termina hk hk' hend
      refine ⟨hpend, hcerrados, sinHilos_completo_iff.mpr ⟨hsin, ?_⟩, hde⟩
      rcases hend with ⟨_, hpid, ⟨causa, p, i, hfase⟩, _⟩ | ⟨j, d, i, _, hd, hfase, _⟩
      · have hcompleto : a.completo.fase = a.kernel.fase ∧
            a.completo.currentPcbExecuting = a.kernel.currentPcbExecuting := by
          unfold Separado.completo
          split <;> exact ⟨rfl, rfl⟩
        have hfin := (hcerrados.fin causa p i pid (Or.inl (hcompleto.1.trans hfase))
          (hcompleto.2.trans hpid)).1
        exact (sinHilos_completo_iff.mp hfin).2
      · have hvuelo := hk.dumps d (List.mem_of_getElem? hd)
        rw [hfase] at hvuelo
        cases hvuelo

/-- From the end of a process on, nothing in the kernel mentions a thread of it, the device
has none, and the process of every thread that is scheduled is active. -/
theorem process_end_leaves_no_trace
    {memoria : μ} {path : List Char} {size : Nat}
    (ha : CorreSeparado cfg FinLimpioSeparado (Separado.inicio cfg memoria path size) as a)
    (hok : FinLimpioSeparado a x)
    (hstep : pasoSeparado cfg a x = some b)
    (hend : TerminaSeparado a x b pid)
    (hrun : CorreSeparado cfg FinLimpioSeparado b bs c) :
    (∀ h ∈ lugares c.kernel, h.pid ≠ pid) ∧
    (∀ t ∈ c.mano.tcb?, t.parentPid ≠ pid) ∧
    (∀ j ∈ c.kernel.listTcbJoins,
      j.blockedTcb.parentPid ≠ pid ∧ j.blockingTcb.parentPid ≠ pid) ∧
    (∀ m ∈ c.kernel.globalMutexes, (∀ t ∈ m.blockedTcbs, t.parentPid ≠ pid) ∧
      ¬ (m.assigned = true ∧ m.assignedPid = pid)) ∧
    ∀ t k', scheduleNextTcb cfg c.kernel = some (t, k') →
      findPcbByPid c.kernel t.parentPid ≠ none := by
  obtain ⟨hpend, hcerrados, hrastro⟩ :=
    sinRastro_of_terminaSeparado (cerrado_of_corre ha) hstep hend
  obtain ⟨hpend', hcerrados'⟩ := cerrados_pasoSeparado hcerrados hpend hok hstep
  have hinv := hrun.invariant
    (I := fun s => (s.pendientes = [] ∧ ProcesosCerrados s.completo) ∧ SinHuella s pid)
    ⟨⟨hpend', hcerrados'⟩, hrastro⟩ ?_
  · obtain ⟨⟨_, hc⟩, hcompleto, hde⟩ := hinv
    have hk := hc.of_completo
    obtain ⟨hsin, hmano⟩ := sinHilos_completo_iff.mp hcompleto
    refine ⟨hsin.hilos, hmano, ?_, ?_, ?_⟩
    · intro j hj
      have hblocked : j.blockedTcb.parentPid ≠ pid := by
        obtain ⟨t, ht, hident⟩ := blocked_of_motivo hk.solida
          (mem_motivos_join.mpr ⟨j, hj, rfl, rfl⟩)
        have hpid : t.parentPid = j.blockedTcb.parentPid := congrArg Prod.fst hident
        rw [← hpid]
        exact hsin.hilos t.hilo (Pool.mem_threads_of_blocked (List.mem_map_of_mem ht))
      exact ⟨hblocked, (hk.joins j hj).symm ▸ hblocked⟩
    · intro m hm
      constructor
      · intro t ht heq
        have hnil := hde.sinCola m hm ((hk.colas.propias m hm t ht).symm.trans heq)
        rw [hnil] at ht
        cases ht
      · rintro ⟨hassigned, hpid⟩
        have hno := hde.duenos m hm hpid hassigned
        cases hno
    · intro t k' hsched
      obtain ⟨l, m, q, hready, _⟩ := scheduleNextTcb_cases hsched
      have hmem : t.hilo ∈ (vista c.kernel).threads := by
        refine Pool.mem_threads_of_ready (List.mem_map_of_mem ?_)
        simp [hready]
      have hactive : t.parentPid ∈ c.kernel.listPcbActive := hk.activos t.hilo hmem
      rw [findPcbByPid_of_mem hactive]
      simp
  · rintro s s' y ⟨⟨hp, hc⟩, hr⟩ hok' hstep'
    exact ⟨cerrados_pasoSeparado hc hp hok' hstep', hr.paso hc hp hstep'⟩

/-- A second process is created, and the first thread asks for IO; the device takes it out
of BLOCKED while the only thread of the second process ends its process. -/
def finConMano : List Tramo :=
  [.registra, .kernel .despachar, .kernel (.respuesta (.processCreate ['b'] 16 0)),
    .kernel .despachar, .kernel (.respuesta (.io 5)), .kernel .despachar, .retira,
    .kernel (.respuesta (.processExit 0)), .kernel .seguirFin]

theorem process_end_leaves_no_trace_finConMano :
    ∃ a b c, execute (pasoSeparado (siempreOk .fifo))
        (Separado.inicio (siempreOk .fifo) () ['a'] 16) finConMano = some a ∧
      a.mano.tcb?.map Tcb.ident = some (0, 0) ∧
      pasoSeparado (siempreOk .fifo) a (.kernel .seguirFin) = some b ∧
      execute (pasoSeparado (siempreOk .fifo)) b [.pone, .publica, .kernel .despachar] = some c ∧
      (∀ h ∈ lugares c.kernel, h.pid ≠ 1) ∧ lugares c.kernel ≠ [] := by
  have ha : CorreSeparado (siempreOk .fifo) FinLimpioSeparado
      (Separado.inicio (siempreOk .fifo) () ['a'] 16) finConMano _ :=
    run_of_isSome (pasoSeparado (siempreOk .fifo)) id (by decide) (by decide)
  refine ⟨_, _, _, (Option.some_get (by decide)).symm, by decide,
    (Option.some_get (by decide)).symm, (Option.some_get (by decide)).symm, ?_, by decide⟩
  refine (process_end_leaves_no_trace ha (by decide) (Option.some_get (by decide)).symm
    ⟨_, rfl, Or.inl ⟨rfl, by decide, ⟨_, _, _, rfl⟩, by decide⟩⟩
    (run_of_isSome (pasoSeparado (siempreOk .fifo)) id (by decide) (by decide))).1

/-- The first thread creates another one and a process, and ends its own process: the
thread that it created stays in READY, and would be dispatched without a process. -/
theorem process_end_leaves_a_thread :
    ∃ a b t k', CorreSeparado (siempreOk .fifo) anyLabel
        (Separado.inicio (siempreOk .fifo) () ['a'] 16)
        (.registra :: ([.despachar, .respuesta (.threadCreate ['b'] 0), .despachar,
          .respuesta (.processCreate ['c'] 16 0), .despachar, .respuesta (.processExit 0),
          .seguirFin, .seguirFin, .seguirFin, .seguirFin] : List Evento).map .kernel) a ∧
      pasoSeparado (siempreOk .fifo) a (.kernel .seguirFin) = some b ∧
      TerminaSeparado a (.kernel .seguirFin) b 0 ∧
      { dir := 1, pid := 0, tid := 1 } ∈ lugares b.kernel ∧
      scheduleNextTcb (siempreOk .fifo) b.kernel = some (t, k') ∧
      findPcbByPid b.kernel t.parentPid = none :=
  ⟨_, _, _, _, run_of_isSome (pasoSeparado (siempreOk .fifo)) id (by decide) (by decide),
    (Option.some_get (by decide)).symm,
    ⟨_, rfl, Or.inl ⟨rfl, by decide, ⟨_, _, _, rfl⟩, by decide⟩⟩,
    by decide, rfl, by decide⟩

end Separate

end Kernel
end SinIdeas
