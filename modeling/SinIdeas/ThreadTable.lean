import SinIdeas.Kernel.FreedMemory
import SinIdeas.Kernel.LiveThreads
import SinIdeas.Kernel.ThreadIds
import SinIdeas.Residency

/-!
# The identifiers of threads in the kernel and in memoria

The kernel asks memoria for a context of each new thread under the PID and the TID that
it gives the thread, and memoria looks contexts up by them. The identifiers are those of
one thread and of one context as long as no thread is created with those of a live
thread or of a context that memoria still has.
-/

namespace SinIdeas
namespace Kernel

open Lib

section Keys

variable {μ : Type}

/-- No two live threads and no two contexts have the same identifiers, as they are sent. -/
structure Claves (res : μ → Residencia) (k : Globals μ) : Prop where
  vivas : (vivos k).Nodup
  tabla : (res k.memoria).hilos.Nodup

/-- The identifiers of the thread that the event creates, as they are sent. -/
def claveNueva (k : Globals μ) (e : Evento) : Option (UInt32 × UInt32) :=
  (tidNuevo k e).map (fun i => (.ofNat i.1, .ofNat i.2))

/-- Memoria answers OK to the request for a thread, if the event makes one. -/
def aceptaHilo (cfg : Config μ) (k : Globals μ) : Evento → Bool
  | .respuesta (.threadCreate path priority) => k.currentPcbExecuting.all (fun pid =>
      (cfg.createThreadMemory k.memoria (nuevoTcb (interruptQuantum k) pid path priority)).2)
  | _ => true

variable {cfg : Config μ} {res : μ → Residencia} {I : μ → Prop} {k k' : Globals μ} {e : Evento}
variable {pid : Nat} {path : List Char} {priority : Nat}

theorem Claves.createThread
    (hspec : Reside cfg res I)
    (hm : I k.memoria)
    (h : Claves res k)
    (hvivas : (nuevoTcb k pid path priority).hilo.clave ∉ vivos k)
    (htabla : (nuevoTcb k pid path priority).hilo.clave ∉ (res k.memoria).hilos) :
    Claves res (createThread cfg k pid path priority).1 := by
  obtain ⟨_, ⟨_, t, hclave, hperm, hres⟩ | ⟨_, hthreads, hres⟩⟩ :=
    createThread_residencia hspec pid path priority hm
  · refine ⟨?_, ?_⟩
    · rw [vivos_cons hperm, hclave, Multiset.nodup_cons]
      exact ⟨hvivas, h.vivas⟩
    · rw [hres, hclave, Residencia.conHilo, Multiset.nodup_cons]
      exact ⟨htabla, h.tabla⟩
  · exact ⟨vivos_of_threads (List.Perm.of_eq hthreads) ▸ h.vivas, hres ▸ h.tabla⟩

/-- A thread that is created with identifiers that are taken shares them. -/
theorem not_claves_createThread
    (hspec : Reside cfg res I)
    (hm : I k.memoria)
    (hok : (cfg.createThreadMemory k.memoria (nuevoTcb k pid path priority)).2 = true)
    (htaken : ¬ ((nuevoTcb k pid path priority).hilo.clave ∉ vivos k ∧
      (nuevoTcb k pid path priority).hilo.clave ∉ (res k.memoria).hilos)) :
    ¬ Claves res (createThread cfg k pid path priority).1 := by
  have hresident := (hspec.agregar (nuevoTcb k pid path priority) hm).2.1.mp hok
  obtain ⟨_, ⟨_, t, hclave, hperm, hres⟩ | ⟨hno, _⟩⟩ :=
    createThread_residencia hspec pid path priority hm
  · rintro ⟨hvivas, htabla⟩
    rw [vivos_cons hperm, hclave, Multiset.nodup_cons] at hvivas
    rw [hres, hclave, Residencia.conHilo, Multiset.nodup_cons] at htabla
    exact htaken ⟨hvivas.1, htabla.1⟩
  · exact absurd hresident hno

/-- The first thread of a waiting process gets identifiers that nobody has. -/
theorem Claves.intento
    (hspec : Reside cfg res I)
    (hmarco : ∀ m, ∀ i ∈ (res m).hilos, i.1 ∈ (res m).procesos)
    (hres : Residentes res I k)
    (hpids : k.globalPid ≤ pidsDisponibles)
    (h : Claves res k) :
    Claves res (tryCreateNewProcess cfg k).1 := by
  rcases tryCreateNewProcess_pedidos cfg k with ⟨heq, _⟩ | ⟨pid, resto, hnew, _, heq⟩ |
    ⟨pid, resto, peticion, peticiones, hnew, _, _, heq⟩
  · rw [heq]
    exact h
  · rw [heq]
    exact ⟨h.vivas, (hres.hilos_createProcessMemory hspec hpids hnew).2 ▸ h.tabla⟩
  · obtain ⟨hm, hhilos⟩ := hres.hilos_createProcessMemory hspec hpids hnew
    have hpid : pid ∈ k.listPcbNew := by simp [hnew]
    rw [heq]
    suffices hcreado : Claves res (Kernel.createThread cfg
        { k with memoria := (cfg.createProcessMemory k.memoria pid (k.pcbs pid).size).1 } pid
          peticion.nombreArchivo peticion.prioridad).1 from ⟨hcreado.vivas, hcreado.tabla⟩
    refine Claves.createThread hspec hm ⟨h.vivas, hhilos.symm ▸ h.tabla⟩ ?_ ?_
    · -- the live threads are of processes that do not wait
      intro hmem
      obtain ⟨t, ht, hclave⟩ := List.mem_map.mp (Multiset.mem_coe.mp hmem)
      have hne : t.pid ≠ pid := by
        rintro rfl
        exact (hres.coherente.hilos t (List.mem_append_left _ ht)).2 hpid
      exact hres.clave_ne hpids ht (hres.coherente.emitidos pid hpid) hne
        (congrArg Prod.fst hclave)
    · -- the contexts are of resident processes
      intro hmem
      exact (hres.noActivo hpids hnew).2.2 (hmarco k.memoria _ (hhilos ▸ hmem))

theorem Claves.bucle
    (hspec : Reside cfg res I)
    (hmarco : ∀ m, ∀ i ∈ (res m).hilos, i.1 ∈ (res m).procesos)
    (hres : Residentes res I k)
    (hpids : k.globalPid ≤ pidsDisponibles)
    (h : Claves res k) :
    Claves res (tryCreateNewProcessLoop cfg k) ∧
      (tryCreateNewProcessLoop cfg k).fase = k.fase := by
  refine ((tryCreateNewProcessLoop_run cfg k).invariant
    (I := fun v => (Residentes res I v ∧ v.globalPid = k.globalPid) ∧
      Claves res v ∧ v.fase = k.fase)
    ⟨⟨hres, rfl⟩, h, rfl⟩ ?_).2.2
  rintro v ⟨⟨hv, hglobal⟩, hclaves, hfase⟩
  exact ⟨⟨hv.intento hspec (hglobal ▸ hpids),
      (tryCreateNewProcess_globalPid cfg v).trans hglobal⟩,
    hclaves.intento hspec hmarco hv (hglobal ▸ hpids), (tryCreateNewProcess_fase cfg v).trans hfase⟩

/-- A dump that is ending its process wakes threads and takes contexts out. -/
theorem Claves.dumpSeguir
    {j : Nat}
    (hspec : Reside cfg res I)
    (hm : I k.memoria)
    (hviejos : k.listaTcbsBlockeados = [])
    (h : Claves res k)
    (hstep : dumpSeguir cfg j k = some k') :
    Claves res k' := by
  have hperm : (vista k').threads.Perm (vista k).threads := by
    refine threads_perm_of_permite (mueve_dumpSeguir hviejos hstep).1 ?_ ?_ (by simp)
    · rintro pid (⟨_, _, _, _, hno, _⟩ | ⟨⟨hno, _⟩ | ⟨_, _, _, hno⟩, _⟩) <;> cases hno
    · rintro p m _ hno
      cases hno
  refine ⟨vivos_of_threads hperm ▸ h.vivas, ?_⟩
  have hquitar : ∀ t, (res (cfg.deleteThreadMemory k.memoria t).1).hilos.Nodup := by
    intro t
    rw [(hspec.quitar t hm).2]
    exact h.tabla.erase _
  obtain ⟨d, _, ⟨pid, i, k₁, avance, _, hround, hcases⟩ | ⟨pid, i, k₁, _, hround, rfl⟩⟩ :=
    dumpSeguir_cases hstep
  · rcases finalizarHilo_cases hviejos hround with ⟨rfl, _, rfl⟩ |
      ⟨tcb, _, _, ⟨rfl, _, rfl⟩ | ⟨rfl, _, hrelease⟩⟩
    · rcases hcases with ⟨hno, _⟩ | ⟨hno, _⟩ | ⟨_, rfl⟩
      · cases hno
      · cases hno
      · have hborrar := (hspec.borrar pid (k₁.pcbs pid).size hm).2
        simp only [removePcbFromActive, deleteProcessMemory, hborrar, Residencia.sinProceso]
        exact h.tabla.filter _
    · rcases hcases with ⟨_, rfl⟩ | ⟨hno, _⟩ | ⟨hno, _⟩
      · exact hquitar tcb
      · cases hno
      · cases hno
    · have hmem : k₁.memoria = (cfg.deleteThreadMemory k.memoria tcb).1 := by
        rw [releaseAllMutexes_despierta hrelease]
      rcases hcases with ⟨hno, _⟩ | ⟨_, rfl⟩ | ⟨hno, _⟩
      · cases hno
      · exact hmem ▸ hquitar tcb
      · cases hno
  · obtain ⟨n, tcb, _, _, hrelease⟩ := reanudarHilo_cases hviejos hround
    have hmem : k₁.memoria = k.memoria := by rw [releaseAllMutexes_despierta hrelease]
    exact hmem ▸ h.tabla

/-- The process is over: its contexts go, and the long-term scheduler may run. -/
theorem Claves.termina
    {causa : Causa} {p : Tcb}
    (hspec : Reside cfg res I)
    (hmarco : ∀ m, ∀ i ∈ (res m).hilos, i.1 ∈ (res m).procesos)
    (hres : Residentes res I k)
    (hpids : k.globalPid ≤ pidsDisponibles)
    (hpid : k.currentPcbExecuting = some pid)
    (hcorre : k.fase.corriendo = none)
    (h : Claves res k) :
    Claves res (soltar p (terminarProceso cfg causa pid k)) := by
  obtain ⟨pcbs, salida, k₁, hk₁, _, hrest⟩ := terminarProceso_cases cfg .segmentationFault pid k
  have hfin := hres.terminarProceso hspec hpids hpid .segmentationFault
  have hglobal : (terminarProceso cfg .segmentationFault pid k).globalPid = k.globalPid := by
    rw [hrest, hk₁]
  have hcorre₁ : (terminarProceso cfg .segmentationFault pid k).fase.corriendo = none := by
    rw [hrest, hk₁]
    exact hcorre
  have hclaves : Claves res (terminarProceso cfg .segmentationFault pid k) := by
    have hvivos : vivos (terminarProceso cfg .segmentationFault pid k) = vivos k := by
      rw [hrest, hk₁]
      rfl
    refine ⟨hvivos ▸ h.vivas, ?_⟩
    have hborrar := (hspec.borrar pid (k.pcbs pid).size hres.memoria).2
    rw [hrest]
    simp only [hk₁, hborrar, Residencia.sinProceso]
    exact h.tabla.filter _
  cases causa with
  | segmentationFault =>
      exact ⟨vivos_soltar hcorre₁ (p := p) ▸ hclaves.vivas, hclaves.tabla⟩
  | processExit =>
      obtain ⟨hloop, hfase⟩ := hclaves.bucle hspec hmarco hfin (hglobal.symm ▸ hpids)
      have hlast : (tryCreateNewProcessLoop cfg
          (terminarProceso cfg .segmentationFault pid k)).fase.corriendo = none := by
        rw [hfase]
        exact hcorre₁
      exact ⟨vivos_soltar hlast (p := p) ▸ hloop.vivas, hloop.tabla⟩

/-- The threads that go take their identifiers with them. -/
theorem Claves.menos
    (h : Claves res k)
    (hvivos : vivos k' ≤ vivos k)
    (hmem : (res k'.memoria).hilos ≤ (res k.memoria).hilos) :
    Claves res k' :=
  ⟨Multiset.nodup_of_le hvivos h.vivas, Multiset.nodup_of_le hmem h.tabla⟩

/-- A step that is no step of a dump keeps the identifiers apart, if it creates no thread
under some that are taken. -/
theorem Claves.efecto
    (hspec : Reside cfg res I)
    (hmarco : ∀ m, ∀ i ∈ (res m).hilos, i.1 ∈ (res m).procesos)
    (hres : Residentes res I k)
    (hpids : k'.globalPid ≤ pidsDisponibles)
    (h : Claves res k)
    (hok : ∀ i ∈ claveNueva k e, i ∉ vivos k ∧ i ∉ (res k.memoria).hilos)
    (hstep : paso cfg k e = some k')
    (hefecto : EfectoHilos cfg k e k') :
    Claves res k' := by
  have hpids₀ : k.globalPid ≤ pidsDisponibles := (globalPid_le_paso hres.fila hstep).trans hpids
  cases hefecto with
  | quietos hsub _ hmem _ =>
      refine h.menos (Multiset.map_le_map (f := Hilo.clave) (Multiset.coe_le.mpr hsub)) ?_
      rw [hmem]
  | sale p hperm hmem _ _ =>
      refine h.menos ?_ ?_
      · rw [vivos_cons hperm]
        exact Multiset.le_cons_self _ _
      · rw [hmem, (hspec.quitar p hres.memoria).2]
        exact Multiset.erase_le _ _
  | crea p pid path priority he hrun hpid hk' =>
      have hcorre :
          (Kernel.createThread cfg (interruptQuantum k) pid path priority).1.fase.corriendo =
            some p.hilo := by
        rw [createThread_resto]
        simp [interruptQuantum, hrun, Fase.corriendo]
      have hnueva : (nuevoTcb (interruptQuantum k) pid path priority).hilo.clave ∈
          claveNueva k e := by
        rw [he]
        simp [claveNueva, tidNuevo, hrun, Fase.ejecutando?, hpid, nuevoTcb, interruptQuantum,
          Hilo.clave, Tcb.hilo]
      obtain ⟨hvivas, htabla⟩ := hok _ hnueva
      have hclaves := Claves.createThread (k := interruptQuantum k) hspec hres.memoria
        ⟨h.vivas, h.tabla⟩ hvivas htabla
      rw [hk']
      refine ⟨?_, hclaves.tabla⟩
      rw [vivos, vista_seguirCon hcorre]
      exact hclaves.vivas
  | procesos p path size priority hrun hk' =>
      have hwait := hres.interruptQuantum.pedir path size priority
      have hsame : (pedirProceso path size priority (interruptQuantum k)).globalPid ≤
          pidsDisponibles := by
        have hloop : k'.globalPid =
            (pedirProceso path size priority (interruptQuantum k)).globalPid := by
          obtain ⟨_, _, hfila⟩ := hwait.fila
          rw [hk']
          exact (Fila.bucle cfg hfila).2.emitidos.trans hfila.emitidos.symm
        exact hloop ▸ hpids
      obtain ⟨hloop, hfase⟩ := Claves.bucle
        (k := pedirProceso path size priority (interruptQuantum k)) hspec hmarco hwait hsame
        ⟨h.vivas, h.tabla⟩
      have hcorre : (tryCreateNewProcessLoop cfg
          (pedirProceso path size priority (interruptQuantum k))).fase.corriendo =
            some p.hilo := by
        rw [hfase]
        simp [pedirProceso, createProcess, interruptQuantum, hrun, Fase.corriendo]
      rw [hk']
      refine ⟨?_, hloop.tabla⟩
      rw [vivos, vista_seguirCon hcorre]
      exact hloop.vivas
  | empieza p causa pid hrun hpid hk' =>
      refine h.menos ?_ (by rw [hk']; rfl)
      have hvivos : vivos k = p.hilo.clave ::ₘ vivos k' := by
        refine vivos_cons (List.Perm.of_eq ?_)
        simp [hk', vista, Pool.threads, hrun, Fase.corriendo, interruptQuantum]
      rw [hvivos]
      exact Multiset.le_cons_self _ _
  | ronda pid t hperm _ _ _ hmem =>
      refine h.menos (vivos_of_threads hperm).le ?_
      rw [hmem, (hspec.quitar t hres.memoria).2]
      exact Multiset.erase_le _ _
  | termina p causa pid _ hpid hcorre hk' =>
      rw [hk']
      exact h.termina hspec hmarco hres hpids₀ hpid hcorre

end Keys

/-- What memoria has of the processes. -/
def Vecina.residencia (v : Vecina) : Residencia := Memoria.residencia v.memoria

/-- No PID twice in the table of memoria. -/
def SinPidRepetido (v : Vecina) : Prop := (v.memoria.memoryProcessList.map Memoria.MemPcb.pid).Nodup

/-- A step in which memoria answers OK to the requests for threads, with PIDs left. -/
def pasoAceptado (mcfg : Memoria.Config) (alg : SchedulerAlgorithm) (k : Globals Vecina)
    (e : Suceso) :
    Option (Globals Vecina) :=
  (pasoConjunto mcfg alg k e).filter (fun k' =>
    (match e with
      | .kernel e => aceptaHilo (enlazada mcfg alg) k e
      | .cpu _ => true) && decide (k'.globalPid ≤ pidsDisponibles))

/-- The step creates no thread with the identifiers of a live one or of a context. -/
def ClaveLibre (k : Globals Vecina) : Suceso → Prop
  | .kernel e => ∀ i ∈ claveNueva k e, i ∉ vivos k ∧ i ∉ k.memoria.residencia.hilos
  | .cpu _ => True

instance decidableClaveLibre (k : Globals Vecina) : ∀ e, Decidable (ClaveLibre k e)
  -- by the option: the pairs of numbers are a finite type as well
  | .kernel e => Option.decidableForallMem
      (p := fun i => i ∉ vivos k ∧ i ∉ k.memoria.residencia.hilos) (claveNueva k e)
  | .cpu _ => inferInstanceAs (Decidable True)

/-- The live threads have different identifiers, also as they are sent; the lookups of the
kernel find the thread that they are for, and memoria's table has no two contexts with the
same PID and TID. -/
structure HilosUnicos (k : Globals Vecina) : Prop where
  kernel : IdsUnicos k
  enviados : ((lugares k).map Hilo.clave).Nodup
  tabla : k.memoria.residencia.hilos.Nodup

section Linked

open Memoria (ordenarPorBase)

variable {mcfg : Memoria.Config} {alg : SchedulerAlgorithm} {k k' : Globals Vecina} {e : Suceso}

/-- Memoria answers as the kernel counts on. -/
theorem reside_enlazada
    (hperm : ∀ l, (mcfg.listSort ordenarPorBase l).Perm l)
    (hesq : mcfg.esquema ≠ .otro) :
    Reside (enlazada mcfg alg) Vecina.residencia SinPidRepetido := by
  have hpedido : ∀ {v : Vecina} {p : Memoria.Peticion} {g : Memoria.Globals} {j : Bool},
      SinPidRepetido v →
      (∀ pid size, p = .processCreate pid size →
        Memoria.buscarProcesoPorPid v.memoria pid = none) →
      Memoria.atiende mcfg v.memoria p = some g →
      SinPidRepetido { memoria := g, justa := j } := by
    intro v p g j hv hnew hstep
    obtain ⟨l, hefecto, hl⟩ := Memoria.efectoTabla_of_atiende hperm hstep
    exact ((hl.map Memoria.MemPcb.pid).nodup_iff).mpr (hefecto.pids hv hnew)
  refine ⟨?_, ?_, ?_, ?_⟩
  · intro v pid size hv _ hout
    have hfresh : Memoria.buscarProcesoPorPid v.memoria (.ofNat pid) = none := by
      rwa [Vecina.residencia, Memoria.mem_procesos, Bool.not_eq_true,
        Option.isSome_eq_false_iff, Option.isNone_iff_eq_none] at hout
    refine ⟨hpedido (p := .processCreate (.ofNat pid) (.ofNat size)) hv ?_ rfl,
      Memoria.residencia_verificarEspacio hperm hesq _ _ _⟩
    rintro _ _ ⟨rfl, rfl⟩
    exact hfresh
  · intro v t hv
    obtain ⟨hok, hres⟩ := Memoria.residencia_agregarHilo v.memoria (.ofNat t.parentPid)
      (.ofNat t.tid) t.filePath
    exact ⟨hpedido (p := .threadCreate (.ofNat t.parentPid) (.ofNat t.tid) t.filePath) hv
      (by simp) rfl, hok, hres⟩
  · intro v pid _ hv
    exact ⟨hpedido (p := .processExit (.ofNat pid)) hv (by simp) rfl,
      Memoria.residencia_eliminarProceso hperm hv _⟩
  · intro v t hv
    exact ⟨hpedido (p := .threadExit (.ofNat t.parentPid) (.ofNat t.tid)) hv (by simp) rfl,
      Memoria.residencia_eliminarHilo hperm hv _ _⟩

/-- A context is kept in the entry of its process. -/
theorem pid_mem_of_mem_hilos
    (v : Vecina) :
    ∀ i ∈ v.residencia.hilos, i.1 ∈ v.residencia.procesos := by
  intro i hi
  obtain ⟨p, hp, hi⟩ := List.mem_flatMap.mp (Multiset.mem_coe.mp hi)
  obtain ⟨hilo, _, rfl⟩ := List.mem_map.mp hi
  exact Multiset.mem_coe.mpr (List.mem_map_of_mem hp)

/-- What a step needs of the two. -/
structure Enlazados (k : Globals Vecina) : Prop where
  residentes : Residentes Vecina.residencia SinPidRepetido k
  solida : Pool.Sound Hilo.ident (vista k)
  pids : k.globalPid ≤ pidsDisponibles

/-- Different keys make the identifiers unique, and the other way round. -/
theorem hilosUnicos_iff
    (hs : Pool.Sound Hilo.ident (vista k)) :
    HilosUnicos k ↔ Claves Vecina.residencia k := by
  constructor
  · rintro ⟨_, henviados, htabla⟩
    exact ⟨Multiset.coe_nodup.mpr henviados, htabla⟩
  · rintro ⟨hvivas, htabla⟩
    have henviados := Multiset.coe_nodup.mp hvivas
    refine ⟨idsUnicos_of_distinct hs ?_, henviados, htabla⟩
    -- what is sent is computed from the identifiers
    have hclave : (vista k).threads.map Hilo.clave = ((vista k).threads.map Hilo.ident).map
        (fun i => (UInt32.ofNat i.1, UInt32.ofNat i.2)) := by
      rw [List.map_map]
      rfl
    rw [hclave] at henviados
    exact henviados.of_map _

theorem pasoAceptado_eq_some
    (h : pasoAceptado mcfg alg k e = some k') :
    pasoConjunto mcfg alg k e = some k' ∧ k'.globalPid ≤ pidsDisponibles ∧
      ∀ ev, e = .kernel ev → aceptaHilo (enlazada mcfg alg) k ev = true := by
  obtain ⟨hstep, hok⟩ := Option.filter_eq_some_iff.mp h
  rw [Bool.and_eq_true, decide_eq_true_iff] at hok
  refine ⟨hstep, hok.2, ?_⟩
  rintro ev rfl
  exact hok.1

/-- A request of the CPU leaves the contexts where they are. -/
theorem pasoConjunto_cpu
    {p : Memoria.Peticion}
    (h : pasoConjunto mcfg alg k (.cpu p) = some k') :
    ∃ v : Vecina, k' = { k with memoria := v } ∧ v.residencia = k.memoria.residencia := by
  unfold pasoConjunto at h
  dsimp only at h
  split_ifs at h with hp
  obtain ⟨g, hg, hk'⟩ := Option.map_eq_some_iff.mp h
  exact ⟨_, hk'.symm, (Memoria.residencia_deCpu hp.1 hg).1⟩

variable (hperm : ∀ l, (mcfg.listSort ordenarPorBase l).Perm l)
variable (hesq : mcfg.esquema ≠ .otro)
include hperm hesq

theorem Enlazados.paso
    (h : Enlazados k)
    (hstep : pasoAceptado mcfg alg k e = some k') :
    Enlazados k' := by
  obtain ⟨hstep, hpids, _⟩ := pasoAceptado_eq_some hstep
  cases e with
  | kernel e =>
      exact ⟨h.residentes.paso (reside_enlazada hperm hesq) hpids hstep,
        (solida_paso ⟨h.residentes.coherente, h.solida⟩ hstep).2, hpids⟩
  | cpu p =>
      obtain ⟨v, rfl, hres⟩ := pasoConjunto_cpu hstep
      refine ⟨h.residentes.conMemoria ?_ (congrArg Residencia.procesos hres), h.solida, hpids⟩
      have hpids₀ : SinPidRepetido k.memoria := h.residentes.memoria
      have hprocs : (v.memoria.memoryProcessList.map Memoria.MemPcb.pid).Perm
          (k.memoria.memoria.memoryProcessList.map Memoria.MemPcb.pid) :=
        Multiset.coe_eq_coe.mp (congrArg Residencia.procesos hres)
      exact hprocs.nodup_iff.mpr hpids₀

theorem enlazados_arranque
    (alg : SchedulerAlgorithm) (path : List Char) (size : Nat) :
    Enlazados (arranqueConjunto mcfg alg path size) ∧
      Claves Vecina.residencia (arranqueConjunto mcfg alg path size) := by
  have hspec : Reside (enlazada mcfg alg) Vecina.residencia SinPidRepetido :=
    reside_enlazada hperm hesq
  have hm : SinPidRepetido { memoria := Memoria.inicializar mcfg, justa := true } :=
    List.nodup_nil
  have hstart : Residentes Vecina.residencia SinPidRepetido
      (inicial ({ memoria := Memoria.inicializar mcfg, justa := true } : Vecina)) :=
    ⟨coherente_inicial _, ⟨[], [], fila_inicial _⟩, by simp [inicial], hm, rfl, List.nodup_nil⟩
  have hpedido := hstart.pedir path size 0
  have huno : (pedirProceso path size 0 (inicial
      ({ memoria := Memoria.inicializar mcfg, justa := true } : Vecina))).globalPid ≤
        pidsDisponibles :=
    (by decide : 1 ≤ pidsDisponibles)
  have hclaves : Claves Vecina.residencia (pedirProceso path size 0 (inicial
      ({ memoria := Memoria.inicializar mcfg, justa := true } : Vecina))) :=
    ⟨Multiset.nodup_zero, Multiset.nodup_zero⟩
  have hres := hpedido.bucle hspec huno
  obtain ⟨_, _, hfila⟩ := hpedido.fila
  have hglobal := (Fila.bucle (enlazada mcfg alg) hfila).2.emitidos.trans hfila.emitidos.symm
  refine ⟨⟨hres, (solida_arranque (enlazada mcfg alg) _ path size).2, ?_⟩, ?_⟩
  · exact hglobal.le.trans huno
  · exact (hclaves.bucle hspec pid_mem_of_mem_hilos hpedido huno).1

/-- The keys stay different in a step exactly when it creates no thread under one that is
taken. -/
theorem claves_paso_iff
    (h : Enlazados k)
    (hclaves : Claves Vecina.residencia k)
    (hstep : pasoAceptado mcfg alg k e = some k') :
    ClaveLibre k e ↔ Claves Vecina.residencia k' := by
  obtain ⟨hstep, hpids, hacepta⟩ := pasoAceptado_eq_some hstep
  have hspec : Reside (enlazada mcfg alg) Vecina.residencia SinPidRepetido :=
    reside_enlazada hperm hesq
  have hcoherente := h.residentes.coherente
  cases e with
  | cpu p =>
      obtain ⟨v, rfl, hres⟩ := pasoConjunto_cpu hstep
      have htabla : v.residencia.hilos.Nodup := hres ▸ hclaves.tabla
      exact ⟨fun _ => ⟨hclaves.vivas, htabla⟩, fun _ => trivial⟩
  | kernel e =>
      constructor
      · intro hok
        cases e with
        | dumpSeguir j =>
            exact hclaves.dumpSeguir hspec h.residentes.memoria hcoherente.viejos hstep
        | despachar =>
            exact hclaves.efecto hspec pid_mem_of_mem_hilos h.residentes hpids hok hstep
              (efectoHilos_despachar hcoherente hstep)
        | respuesta m =>
            exact hclaves.efecto hspec pid_mem_of_mem_hilos h.residentes hpids hok hstep
              (efectoHilos_respuesta hcoherente hstep)
        | seguirFin =>
            exact hclaves.efecto hspec pid_mem_of_mem_hilos h.residentes hpids hok hstep
              (efectoHilos_seguirFin hcoherente.viejos hstep)
        | ioFin =>
            exact hclaves.efecto hspec pid_mem_of_mem_hilos h.residentes hpids hok hstep
              (efectoHilos_ioFin hstep)
        | dumpRespuesta j r =>
            exact hclaves.efecto hspec pid_mem_of_mem_hilos h.residentes hpids hok hstep
              (efectoHilos_dumpRespuesta hstep)
      · intro hclaves' i hi
        by_contra htaken
        cases e with
        | respuesta m =>
            cases m with
            | threadCreate path priority =>
                obtain ⟨proximo, pid, hfase, hpid, hsyscall⟩ := atenderMensaje_cases hstep
                have hpid : k.currentPcbExecuting = some pid := by
                  rcases hpid with hpid | ⟨_, _, hno⟩
                  · exact hpid
                  · cases hno
                cases hsyscall
                have hclave : (nuevoTcb (interruptQuantum k) pid path priority).hilo.clave = i := by
                  simpa [claveNueva, tidNuevo, hfase, Fase.ejecutando?, hpid, nuevoTcb,
                    interruptQuantum, Hilo.clave, Tcb.hilo] using hi
                have hok := hacepta _ rfl
                simp only [aceptaHilo, hpid, Option.all_some] at hok
                refine not_claves_createThread (k := interruptQuantum k) hspec
                  h.residentes.memoria hok (hclave ▸ htaken) ?_
                refine ⟨?_, hclaves'.tabla⟩
                have hvivas := hclaves'.vivas
                rwa [vivos, vista_seguirCon] at hvivas
                rw [createThread_resto]
                simp [interruptQuantum, hfase, Fase.corriendo]
            | _ => cases hi
        | _ => cases hi

end Linked

/-- In the runs in which memoria answers OK, the identifiers of threads are unique all along,
in the kernel and in memoria's table, exactly when no thread is created with those of a live
thread or of a context that memoria has. -/
theorem thread_ids_unique_iff
    {mcfg : Memoria.Config} {alg : SchedulerAlgorithm} {es : List Suceso} {k : Globals Vecina}
    (path : List Char) (size : Nat)
    (hperm : ∀ l, (mcfg.listSort Memoria.ordenarPorBase l).Perm l)
    (hesq : mcfg.esquema ≠ .otro) :
    Run (fun a e b => pasoAceptado mcfg alg a e = some b) ClaveLibre
        (arranqueConjunto mcfg alg path size) es k ↔
      Run (fun a e b => pasoAceptado mcfg alg a e = some b) (fun a _ => HilosUnicos a)
        (arranqueConjunto mcfg alg path size) es k ∧ HilosUnicos k := by
  obtain ⟨hstart, hclaves⟩ := enlazados_arranque hperm hesq alg path size
  refine Run.guarded_iff (J := Enlazados) ⟨hstart, (hilosUnicos_iff hstart.solida).mpr hclaves⟩
    ?_ ?_
  · intro a b e ha hstep
    exact ha.paso hperm hesq hstep
  · intro a b e ha hunicos hstep
    rw [hilosUnicos_iff (ha.paso hperm hesq hstep).solida]
    exact claves_paso_iff hperm hesq ha ((hilosUnicos_iff ha.solida).mp hunicos) hstep

/-- The first thread creates two, and is preempted. -/
def dosHilos : List Suceso :=
  [.kernel .despachar, .kernel (.respuesta (.threadCreate ['b'] 0)), .kernel .despachar,
    .cpu (.executionContext 0 0), .kernel (.respuesta (.threadCreate ['c'] 0)),
    .kernel .despachar, .kernel (.respuesta (.kernelInterruption 0 0))]

theorem thread_ids_unique_iff_dosHilos :
    ∃ k, Run (fun a e b => pasoAceptado memoriaChica .fifo a e = some b)
        (fun a _ => HilosUnicos a) (arranqueConjunto memoriaChica .fifo ['a'] 16) dosHilos k ∧
      HilosUnicos k ∧ k.memoria.residencia.hilos = {(0, 0), (0, 1), (0, 2)} := by
  have hlibre : Run (fun a e b => pasoAceptado memoriaChica .fifo a e = some b) ClaveLibre
      (arranqueConjunto memoriaChica .fifo ['a'] 16) dosHilos _ :=
    run_of_isSome (pasoAceptado memoriaChica .fifo) id (by decide +kernel) (by decide +kernel)
  obtain ⟨hrun, hunicos⟩ :=
    (thread_ids_unique_iff ['a'] 16 estable_memoriaChica.perm (by decide +kernel)).mp hlibre
  exact ⟨_, hrun, hunicos, by decide +kernel⟩

/-- When the first of the two ends instead, the next thread gets the TID of the last, and
memoria has two contexts for it. -/
theorem thread_ids_repeat_after_threadExit :
    ∃ k, Run (fun a e b => pasoAceptado memoriaChica .fifo a e = some b) anyLabel
        (arranqueConjunto memoriaChica .fifo ['a'] 16)
        (dosHilos ++ [.kernel .despachar, .kernel (.respuesta (.threadExit 1)),
          .kernel .despachar, .kernel (.respuesta (.threadCreate ['d'] 0))]) k ∧
      (lugares k).count { dir := 2, pid := 0, tid := 2 } = 1 ∧
      (lugares k).count { dir := 3, pid := 0, tid := 2 } = 1 ∧
      k.memoria.residencia.hilos.count (0, 2) = 2 ∧ ¬ HilosUnicos k := by
  refine ⟨_, run_of_isSome (pasoAceptado memoriaChica .fifo) id (by decide +kernel)
      (by decide +kernel), by decide +kernel, by decide +kernel, by decide +kernel, ?_⟩
  intro h
  exact absurd h.tabla (by decide +kernel)

end Kernel
end SinIdeas
