import SinIdeas.Memoria.Rebuild

/-!
# The dynamic partitions as a function of the process table

Under ESQUEMA=DINAMICAS the partition list is the one built from the process table,
which is sorted by base. So two histories that end with the same table end with the
same partitions: a process that is created and ended leaves them as they were, and it
does not matter in which order two processes end.
-/

namespace SinIdeas
namespace Memoria

open Lib

section Tables

variable {cfg : Config} {g : Globals}

/-- Every request keeps the list built from the table. -/
theorem AlDia.step
    {g' : Globals} {p : Peticion}
    (hsort : StableFor ordenarPorBase (cfg.listSort ordenarPorBase))
    (h : AlDia cfg g)
    (hreg : Regular g p)
    (hstep : atiende cfg g p = some g') :
    AlDia cfg g' := by
  cases p with
  | processCreate pid size =>
      obtain rfl := Option.some.inj hstep
      exact verificarEspacioYCrearProceso_alDia hsort h pid size
  | processExit pid =>
      obtain rfl := Option.some.inj hstep
      exact eliminarProcesoMem_alDia hsort h pid
  | threadCreate pid tid filePath =>
      obtain rfl := Option.some.inj hstep
      exact (verificarYAgregarHilo_particiones hsort h pid tid filePath).alDia
  | threadExit pid tid =>
      obtain rfl := Option.some.inj hstep
      exact (eliminarHiloMem_particiones hsort h pid tid).alDia
  | _ =>
      exact (deCpu_particiones hsort h rfl hreg hstep).alDia

variable (hesq : cfg.esquema = .dinamicas)
  (hsort : StableFor ordenarPorBase (cfg.listSort ordenarPorBase))
include hesq hsort

omit hesq in
/-- Rebuilding the list leaves a sorted table as it is. -/
theorem memoryProcessList_update_of_sorted
    (hsorted : Sorted claveBase g.memoryProcessList) :
    (updateDynamicPartitionList cfg g).memoryProcessList = g.memoryProcessList := by
  rw [ordenarPorBase_eq] at hsort
  unfold updateDynamicPartitionList buildDynamicPartitionList
  split_ifs
  · rfl
  · rw [ordenarPorBase_eq]
    exact hsort.sort_of_sorted hsorted

/-- A process that ends is taken out of the table. -/
theorem AlDia.memoryProcessList_eliminar
    (h : AlDia cfg g)
    (pid : UInt32) :
    (eliminarProcesoMem cfg g pid).memoryProcessList =
      g.memoryProcessList.eraseP (fun proceso => proceso.pid == pid) := by
  have hsorted := (h hesq).1
  unfold eliminarProcesoMem
  split_ifs with hfound
  · simp only [hesq]
    exact memoryProcessList_update_of_sorted hsort (hsorted.sublist List.eraseP_sublist)
  · rw [buscarProcesoPorPid, List.find?_isSome] at hfound
    refine (List.eraseP_of_forall_not ?_).symm
    intro proceso hmem hpid
    exact hfound ⟨proceso, hmem, hpid⟩

/-- The partitions after a process ends are those of the table without it. -/
theorem AlDia.partitionList_eliminar
    (h : AlDia cfg g)
    (pid : UInt32) :
    (eliminarProcesoMem cfg g pid).partitionList =
      (buildDynamicPartitionList cfg
        (g.memoryProcessList.eraseP (fun proceso => proceso.pid == pid))).2 := by
  rw [← h.memoryProcessList_eliminar hesq hsort pid]
  exact (eliminarProcesoMem_alDia hsort h pid hesq).2

/-- A new process is put in the place of its base in the table. -/
theorem AlDia.memoryProcessList_crear
    {pid size : UInt32}
    (h : AlDia cfg g)
    (hok : (verificarEspacioYCrearProceso cfg g pid size).2 = true) :
    ∃ base limite, (verificarEspacioYCrearProceso cfg g pid size).1.memoryProcessList =
      insertAfter claveBase (nuevoProceso pid base limite size) g.memoryProcessList := by
  have hsorted := (h hesq).1
  unfold verificarEspacioYCrearProceso at hok ⊢
  simp only [hesq] at hok ⊢
  cases halloc : allocateProcessInPartition g.partitionList size cfg.algoritmoBusqueda pid with
  | none =>
      simp [halloc] at hok
  | some r =>
      obtain ⟨selected, partitions⟩ := r
      refine ⟨selected.base, selected.base + size, ?_⟩
      rw [ordenarPorBase_eq] at hsort
      rw [← hsort.sort_append_singleton hsorted]
      simp [updateDynamicPartitionList, buildDynamicPartitionList, crearProcesoMem,
        ordenarPorBase_eq]

/-- A new process that ends leaves the partitions as they were. -/
theorem AlDia.eliminar_crear
    {pid size : UInt32}
    (h : AlDia cfg g)
    (hnew : buscarProcesoPorPid g pid = none)
    (hok : (verificarEspacioYCrearProceso cfg g pid size).2 = true) :
    (eliminarProcesoMem cfg (verificarEspacioYCrearProceso cfg g pid size).1 pid).partitionList =
      g.partitionList := by
  have hcreated := verificarEspacioYCrearProceso_alDia hsort h pid size
  obtain ⟨base, limite, htable⟩ := h.memoryProcessList_crear hesq hsort hok
  have hfresh : ∀ proceso ∈ g.memoryProcessList, ¬ (proceso.pid == pid) = true := by
    rw [buscarProcesoPorPid, List.find?_eq_none] at hnew
    exact hnew
  have hself : ((nuevoProceso pid base limite size).pid == pid) = true := beq_self_eq_true pid
  rw [hcreated.partitionList_eliminar hesq hsort, htable,
    eraseP_insertAfter (p := fun proceso : MemPcb => proceso.pid == pid) hself hfresh]
  exact (h hesq).2.symm

/-- It does not matter in which order two processes end. -/
theorem AlDia.eliminar_comm
    (h : AlDia cfg g)
    (p q : UInt32) :
    (eliminarProcesoMem cfg (eliminarProcesoMem cfg g p) q).partitionList =
      (eliminarProcesoMem cfg (eliminarProcesoMem cfg g q) p).partitionList := by
  by_cases hpq : p = q
  · rw [hpq]
  · have hp := eliminarProcesoMem_alDia hsort h p
    have hq := eliminarProcesoMem_alDia hsort h q
    rw [hp.partitionList_eliminar hesq hsort, hq.partitionList_eliminar hesq hsort,
      h.memoryProcessList_eliminar hesq hsort, h.memoryProcessList_eliminar hesq hsort,
      List.eraseP_comm]
    intro proceso _
    simp only [beq_iff_eq]
    by_contra hboth
    simp only [not_or, not_not] at hboth
    exact hpq (hboth.1.symm.trans hboth.2)

end Tables

/-- Under ESQUEMA=DINAMICAS, after every sequence of requests: creating a process and
ending it restores the partitions, and two processes can end in either order. -/
theorem dynamic_partitioning_is_canonical
    (cfg : Config)
    (hesq : cfg.esquema = .dinamicas)
    (hsort : StableFor ordenarPorBase (cfg.listSort ordenarPorBase))
    {peticiones : List Peticion} {g : Globals}
    (hrun : Run (fun g p g' => atiende cfg g p = some g') Regular
      (inicializar cfg) peticiones g) :
    (∀ (pid size : UInt32) (g' : Globals), buscarProcesoPorPid g pid = none →
      handleClient cfg g (.processCreate pid size) = some (g', .ok) →
      (atiende cfg g' (.processExit pid)).map Globals.partitionList = some g.partitionList) ∧
    ∀ p ∈ g.memoryProcessList, ∀ q ∈ g.memoryProcessList,
      (execute (atiende cfg) g [.processExit p.pid, .processExit q.pid]).map
          Globals.partitionList =
        (execute (atiende cfg) g [.processExit q.pid, .processExit p.pid]).map
          Globals.partitionList := by
  have halDia : AlDia cfg g :=
    hrun.invariant (I := AlDia cfg) (alDia_inicializar cfg)
      (fun h hreg hstep => h.step hsort hreg hstep)
  constructor
  · intro pid size g' hnew hcreate
    simp only [handleClient, Option.some.injEq, Prod.mk.injEq] at hcreate
    obtain ⟨rfl, hrespuesta⟩ := hcreate
    have hok : (verificarEspacioYCrearProceso cfg g pid size).2 = true := by
      cases hflag : (verificarEspacioYCrearProceso cfg g pid size).2 with
      | true => rfl
      | false => simp [hflag, Respuesta.de] at hrespuesta
    exact congrArg some (halDia.eliminar_crear hesq hsort hnew hok)
  · intro p _ q _
    exact congrArg some (halDia.eliminar_comm hesq hsort p.pid q.pid)

/-- A process in the hole between two others. -/
theorem dynamic_partitioning_is_canonical_64 :
    ∃ h : (execute (atiende configDinamicas) (inicializar configDinamicas)
        peticionesDinamicas).isSome = true,
      ∃ g', handleClient configDinamicas ((execute (atiende configDinamicas)
          (inicializar configDinamicas) peticionesDinamicas).get h) (.processCreate 7 4) =
        some (g', .ok) ∧
      (atiende configDinamicas g' (.processExit 7)).map Globals.partitionList =
        some ((execute (atiende configDinamicas) (inicializar configDinamicas)
          peticionesDinamicas).get h).partitionList := by
  refine ⟨by decide, _, rfl, ?_⟩
  exact (dynamic_partitioning_is_canonical configDinamicas rfl estable_configDinamicas
    (run_of_isSome (atiende configDinamicas) (fun h => h) (by decide) _)).1 7 4 _ (by decide) rfl

end Memoria
end SinIdeas
